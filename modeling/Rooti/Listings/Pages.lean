import Rooti.Listings.Collect
import Rooti.Services.Board
import Rooti.Services.Charger
import Rooti.Services.Company
import Rooti.Services.Job
import Rooti.Services.Kiosk
import Rooti.Services.Leave
import Rooti.Services.Schedule
import Rooti.Services.User
import Rooti.Services.Worker

/-!
# The paginated listings

Seven listings are sorted by id, and lose nothing.  The shifts, the leaves and the posts
are sorted by a time that many of them share: `batchMake` lets all shifts of a day start
at midnight.  A page that ends between two of these may show one of them again on the next
page and never show the other.

## Main definitions

* `Listing` — the requests
* `Listing.query` — what each of them asks
* `Listing.Untied` — no page ends between two rows of equal times
* `listings_complete_iff` — when a listing loses and repeats nothing

## Why ties matter

The database may answer rows with equal sort keys in any order, and it may choose
another order for each page. If the rows of one key lie within one page, that page shows
all of them whatever the order. If a page ends between them, one order puts a row before
the cut and the next one after it. So `Untied` is not only enough but necessary, and
`Lib.Paging` proves both for any query; what is left for this module is to name the key
and the ids of each listing.

A listing that is sorted by the id it shows has no ties at all. For the four that are
sorted by a time or a date the condition stays, and it is one on the rows and the size
of a page only.
-/

namespace Rooti

open Relational Program

variable {V D : Type}

/-- **The paginated listings.** -/
inductive Listing
  | schedules
  | schedulesOf (jobStandardId : ℤ) (from_ to_ : Date)
  | leaves (filter : LeaveFilter)
  | board (keyword : Option String)
  | workers (keyword employmentStatus : Option String)
  | companyWorkers (companyId : ℤ)
  | chargers (keyword : Option String) (companyId : Option ℤ)
  | kiosks (keyword : Option String) (companyId : Option ℤ) (status : Option String)
  | standards (companyId : Option ℤ) (keyword : Option String)
  | companies (keyword : Option String)
  | users (keyword : Option String) (role : Option UserRole)

/-- A standard is shown under its id. -/
theorem id_of_toStandardResponse {s : JobStandard} {rows : List JobProcess} {name : Option String}
    {resp : JobStandardResponse} (h : toStandardResponse s rows name = .ok resp) :
    resp.id = s.id := by
  obtain ⟨context, responses, -, -, rfl⟩ := toStandardResponse_eq_ok_iff.mp h
  rfl

/-- So is a company. -/
theorem id_of_ofRow {company : Company} {resp : CompanyResponse}
    (h : CompanyResponse.ofRow company = .ok resp) : resp.id = company.id := by
  rw [CompanyResponse.ofRow] at h
  cases hdata : Dict.ofColumn company.templateData with
  | error e =>
      rw [hdata] at h
      cases h
  | ok fields =>
      rw [hdata] at h
      cases h
      rfl

namespace Listing

variable (ilike : String → String → Bool)

/-- **What a listing asks**: which rows match, how they are sorted and shown. -/
def query : Listing → Query
  | .schedules => {
      Item := WorkSchedule × JobStandard
      Answer := ScheduleResponse
      binds := []
      matching := WorkScheduleService.allRows
      key := fun row => row.1.startAt.micros
      descending := true
      respond := fun row => .ok (WorkScheduleService.rowToResponse row)
      itemId := fun row => row.1.id
      answerId := ScheduleResponse.id }
  | .schedulesOf jobStandardId from_ to_ => {
      Item := WorkSchedule × JobStandard
      Answer := ScheduleResponse
      refused := decide (WorkScheduleService.maxDateSpanDays < to_.days - from_.days)
      binds := [.int jobStandardId]
      matching := WorkScheduleService.rowsForStandard jobStandardId from_ to_
      key := fun row => row.1.startAt.micros
      descending := false
      respond := fun row => .ok (WorkScheduleService.rowToResponse row)
      itemId := fun row => row.1.id
      answerId := ScheduleResponse.id }
  | .leaves filter => {
      Item := LeaveRow
      Answer := LeaveResponse
      binds := filter.companyId.toList.map Bind.int ++ filter.workerId.toList.map Bind.int ++
        keywordBinds filter.keyword
      matching := fun db => leaveRows db (filter.ok ilike)
      key := fun row => row.leave.startDate.days
      descending := true
      respond := fun row => .ok row.toResponse
      itemId := fun row => row.leave.id
      answerId := LeaveResponse.id }
  | .board keyword => {
      Item := CaregiverBoard × String
      Answer := BoardResponse
      binds := keywordBinds keyword
      matching := CaregiverBoardService.listRows ilike keyword
      key := fun row => row.1.createdAt.micros
      descending := true
      respond := fun row => .ok (CaregiverBoardService.toResponse row.1 (some row.2))
      itemId := fun row => row.1.id
      answerId := BoardResponse.id }
  | .workers keyword employmentStatus => {
      Item := ChallengedWorker × User
      Answer := WorkerResponse
      binds := keywordBinds keyword
      matching := WorkerService.searchRows ilike keyword employmentStatus
      key := fun row => row.1.id
      descending := true
      respond := fun row => .ok (toWorkerResponse row.1 row.2)
      itemId := fun row => row.1.id
      answerId := WorkerResponse.id }
  | .companyWorkers companyId => {
      Item := CompanyWorker × ChallengedWorker × User × Company
      Answer := CompanyWorkerResponse
      binds := [.int companyId]
      matching := WorkerService.rowsByCompany companyId
      key := fun row => row.1.id
      descending := true
      respond := fun row => .ok (toCompanyWorkerResponse row.1 row.2.1 row.2.2.1 row.2.2.2)
      itemId := fun row => row.1.id
      answerId := CompanyWorkerResponse.id }
  | .chargers keyword companyId => {
      Item := CompanyCharger × User × Company
      Answer := ChargerResponse
      binds := companyId.toList.map Bind.int ++ keywordBinds keyword
      matching := ChargerService.searchRows ilike keyword companyId
      key := fun row => row.1.id
      descending := false
      respond := fun row => .ok (ChargerService.toResponse row.1 row.2.1 row.2.2)
      itemId := fun row => row.1.id
      answerId := ChargerResponse.id }
  | .kiosks keyword companyId status => {
      Item := CompanyKiosk × String
      Answer := KioskResponse
      binds := companyId.toList.map Bind.int ++ KioskService.statusBinds status ++
        keywordBinds keyword
      matching := KioskService.searchRows ilike keyword companyId status
      key := fun row => row.1.id
      descending := false
      respond := fun row => .ok (KioskService.toResponse row.1 (some row.2))
      itemId := fun row => row.1.id
      answerId := KioskResponse.id }
  | .standards companyId keyword => {
      Item := JobStandard × String
      Answer := JobStandardResponse
      binds := companyId.toList.map Bind.int ++ keywordBinds keyword
      matching := JobStandardService.searchRows ilike companyId keyword
      key := fun row => row.1.id
      descending := true
      respond := fun row => toStandardResponse row.1 [] (some row.2)
      itemId := fun row => row.1.id
      answerId := JobStandardResponse.id }
  | .companies keyword => {
      Item := Company
      Answer := CompanyResponse
      binds := keywordBinds keyword
      matching := CompanyService.searchRows ilike keyword
      key := Company.id
      descending := true
      respond := CompanyResponse.ofRow
      itemId := Company.id
      answerId := CompanyResponse.id }
  | .users keyword role => {
      Item := User
      Answer := UserDTO
      binds := keywordBinds keyword
      matching := UserService.searchRows ilike keyword role
      key := User.id
      descending := false
      respond := fun user => .ok (UserService.toDTO user)
      itemId := User.id
      answerId := UserDTO.id }

/-- What the services run. -/
def list : (l : Listing) → PageParams → Async V D (Page (l.query ilike).Answer)
  | .schedules => WorkScheduleService.listAll
  | .schedulesOf jobStandardId from_ to_ =>
      WorkScheduleService.listForStandard jobStandardId from_ to_
  | .leaves filter => LeaveService.search ilike filter
  | .board keyword => CaregiverBoardService.list ilike keyword
  | .workers keyword employmentStatus =>
      fun params => WorkerService.search ilike keyword params employmentStatus
  | .companyWorkers companyId => WorkerService.listByCompany companyId
  | .chargers keyword companyId => ChargerService.search ilike keyword companyId
  | .kiosks keyword companyId status => KioskService.search ilike keyword companyId status
  | .standards companyId keyword => JobStandardService.search ilike companyId keyword
  | .companies keyword => CompanyService.search ilike keyword
  | .users keyword role => UserService.search ilike keyword role

/-- **No page ends between two rows of equal times.**  The other listings are sorted by
id. -/
def Untied (size : ℕ) (db : Db) (l : Listing) : Prop :=
  match l with
  | .schedules | .schedulesOf .. | .leaves _ | .board _ =>
      ¬Paging.SplitsTie (l.query ilike).le size ((l.query ilike).matching db)
  | _ => True

/-- The services run what the query says. -/
theorem list_eq (l : Listing) : (l.list ilike : PageParams → Async V D _) =
    (l.query ilike).list
      (businessExceptionWith .invalidInput "date range must be ≤ 31 days") := by
  funext params
  cases l <;> rfl

/-! ### Rows and their ids -/

section Ids

variable {α : Type} {t : Entity} {db : Db}

/-- Joined rows are told apart by the ids of the table they were joined to. -/
theorem nodup_joined {f : Row t → Option α} {idOf : α → ℤ}
    (hf : ∀ r x, f r = some x → idOf x = keyOf t r) (db : Db) :
    (((db.rows t).filterMap f).map idOf).Nodup := by
  refine List.Nodup.sublist ?_ (db.table t).nodup_key
  change List.Sublist _ ((db.rows t).map (keyOf t))
  induction db.rows t with
  | nil => exact List.Sublist.slnil
  | cons r rest ih =>
      cases hr : f r with
      | none =>
          rw [List.filterMap_cons_none hr]
          exact ih.cons _
      | some x =>
          rw [List.filterMap_cons_some hr, List.map_cons, List.map_cons, hf r x hr]
          exact ih.cons_cons _

/-- Joined rows that pass a filter are told apart in the same way. -/
theorem nodup_matching {f : Row t → Option α} {idOf : α → ℤ} (ok : α → Bool)
    (hf : ∀ r x, f r = some x → idOf x = keyOf t r) (db : Db) :
    ((((db.rows t).filterMap f).filter ok).map idOf).Nodup :=
  (nodup_joined hf db).sublist (List.filter_sublist.map _)

/-- The ids of a table, restricted to some of its rows. -/
theorem nodup_filtered (ok : Row t → Bool) (db : Db) :
    (((db.rows t).filter ok).map (keyOf t)).Nodup :=
  (db.table t).nodup_key.sublist (List.filter_sublist.map _)

end Ids

/-- **Every listing shows the ids of its rows**, which tell them apart. -/
theorem identified (l : Listing) (db : Db) : (l.query ilike).Identified db := by
  cases l with
  | schedules =>
      -- the response of a row has its id
      refine ⟨nodup_joined (t := .workSchedule) (fun r x h => ?_) db, fun row answer h => ?_⟩
      · obtain ⟨standard, -, rfl⟩ := Option.map_eq_some_iff.mp h
        rfl
      · cases h
        rfl
  | schedulesOf jobStandardId from_ to_ =>
      refine ⟨nodup_matching (t := .workSchedule) _ (fun r x h => ?_) db, fun row answer h => ?_⟩
      · obtain ⟨standard, -, rfl⟩ := Option.map_eq_some_iff.mp h
        rfl
      · cases h
        rfl
  | leaves filter =>
      refine ⟨nodup_matching (t := .leave) _ (fun r x h => ?_) db, fun row answer h => ?_⟩
      · obtain ⟨company, -, h⟩ := Option.bind_eq_some_iff.mp h
        obtain ⟨worker, -, h⟩ := Option.bind_eq_some_iff.mp h
        obtain ⟨user, -, h⟩ := Option.bind_eq_some_iff.mp h
        obtain rfl := Option.some.inj h
        rfl
      · cases h
        rfl
  | board keyword =>
      refine ⟨nodup_matching (t := .caregiverBoard) _ (fun r x h => ?_) db,
        fun row answer h => ?_⟩
      · obtain ⟨user, -, rfl⟩ := Option.map_eq_some_iff.mp h
        rfl
      · cases h
        rfl
  | workers keyword employmentStatus =>
      refine ⟨nodup_matching (t := .challengedWorker) _ (fun r x h => ?_) db,
        fun row answer h => ?_⟩
      · obtain ⟨user, -, rfl⟩ := Option.map_eq_some_iff.mp h
        rfl
      · cases h
        rfl
  | companyWorkers companyId =>
      refine ⟨nodup_matching (t := .companyWorker) _ (fun r x h => ?_) db,
        fun row answer h => ?_⟩
      · obtain ⟨worker, -, h⟩ := Option.bind_eq_some_iff.mp h
        obtain ⟨user, -, h⟩ := Option.bind_eq_some_iff.mp h
        obtain ⟨company, -, h⟩ := Option.bind_eq_some_iff.mp h
        obtain rfl := Option.some.inj h
        rfl
      · cases h
        rfl
  | chargers keyword companyId =>
      refine ⟨nodup_matching (t := .companyCharger) _ (fun r x h => ?_) db,
        fun row answer h => ?_⟩
      · obtain ⟨user, -, h⟩ := Option.bind_eq_some_iff.mp h
        obtain ⟨company, -, h⟩ := Option.bind_eq_some_iff.mp h
        obtain rfl := Option.some.inj h
        rfl
      · cases h
        rfl
  | kiosks keyword companyId status =>
      refine ⟨nodup_matching (t := .companyKiosk) _ (fun r x h => ?_) db, fun row answer h => ?_⟩
      · obtain ⟨company, -, rfl⟩ := Option.map_eq_some_iff.mp h
        rfl
      · cases h
        rfl
  | standards companyId keyword =>
      refine ⟨nodup_matching (t := .jobStandard) _ (fun r x h => ?_) db, fun row answer h => ?_⟩
      · obtain ⟨company, -, rfl⟩ := Option.map_eq_some_iff.mp h
        rfl
      · exact id_of_toStandardResponse h
  | companies keyword =>
      exact ⟨nodup_filtered (t := .company) _ db, fun row answer h => id_of_ofRow h⟩
  | users keyword role =>
      refine ⟨nodup_filtered (t := .user) _ db, fun row answer h => ?_⟩
      cases h
      rfl

end Listing

/-- **When a listing loses and repeats nothing**: its requests are answered, and no page
ends between two rows of equal times. -/
theorem listings_complete_iff (ilike : String → String → Bool) (l : Listing)
    (params : PageParams) (w : World V D) :
    (l.query ilike).CollectsAll (l.list ilike : PageParams → Async V D _) params w.db ↔
      (l.query ilike).Served params.size w.db ∧ l.Untied ilike params.size w.db := by
  have hid := l.identified ilike w.db
  rw [l.list_eq ilike, Query.collectsAll_iff params _ hid]
  refine and_congr_right fun _ => ?_
  -- sorted by id: the condition holds for free, as it does in `Untied`
  have hsorted : (∀ row, (l.query ilike).key row = (l.query ilike).itemId row) →
      (¬Paging.SplitsTie (l.query ilike).le params.size ((l.query ilike).matching w.db) ↔
        True) :=
    fun hkey => iff_true_intro (Query.not_splitsTie_of_key hid hkey params.size)
  cases l with
  | schedules | schedulesOf | leaves | board => exact Iff.rfl
  | _ => exact hsorted fun row => rfl

/-- Two shifts that start at the same time. -/
def Db.twoShifts : Db := Db.ofStatements
  [.insert .company ⟨1, "Workshop", none, true, none, none, none, none, none⟩,
    .insert .user ⟨1, "worker", none, "", "Worker", none, .worker, true, none⟩,
    .insert .challengedWorker ⟨1, 1, none, none⟩,
    .insert .companyWorker ⟨1, 1, 1, true⟩,
    .insert .jobStandard ⟨1, 1, "Packing", true, none, 8, 1, none, none, none, true⟩,
    .insert .jobWorker ⟨1, 1, 1, true⟩,
    .insert .workSchedule ⟨1, 1, none, 1, ⟨0, none⟩, none, none, false⟩,
    .insert .workSchedule ⟨2, 1, none, 1, ⟨0, none⟩, none, none, false⟩]

/-- **One shift may be shown twice, and the other one never**, on pages of one shift. -/
theorem listings_incomplete :
    ¬(Listing.schedules.query fun _ _ => false).CollectsAll
      (Listing.schedules.list fun _ _ => false : PageParams → Async Unit Unit _)
      { size := 1 } Db.twoShifts := by
  intro h
  have hid := Listing.schedules.identified (fun _ _ => false) Db.twoShifts
  rw [Listing.list_eq] at h
  have hcollects := (Query.collectsAll_iff { size := 1 } _
    (w := (World.fresh Db.twoShifts () : World Unit Unit)) hid).mp h
  refine hcollects.2 ⟨1, (⟨1, 1, none, 1, ⟨0, none⟩, none, none, false⟩,
    ⟨1, 1, "Packing", true, none, 8, 1, none, none, none, true⟩), ?_, ?_, ?_⟩
  · show _ ∈ WorkScheduleService.allRows Db.twoShifts
    decide +kernel
  · show (WorkScheduleService.allRows Db.twoShifts).countP _ < 1
    decide +kernel
  · show 1 < (WorkScheduleService.allRows Db.twoShifts).countP _
    decide +kernel

end Rooti
