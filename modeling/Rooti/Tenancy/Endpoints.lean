import Rooti.Api.Endpoints
import Rooti.Journals.Updates
import Rooti.Leaves.LifeCycle
import Rooti.Tenancy.Isolation

/-!
# Endpoints that keep to a company

Every endpoint that is given the scope of a charger keeps to the charger's company: listings
by their filter, single objects by the company of the row, new objects by the company of the
body.

## Main definitions

* `LeaveOf`, `KioskOf`, `JobOf`, `EmailScheduleOf` — responses about rows of the company
* `ShiftOf`, `JournalOf` — shifts of workers of the company, and their journals
* `confined_listLeaves`, … — one theorem for each endpoint

The scope is `some c` throughout: `None`, which an administrator gets, restricts
nothing, and nothing is said of it. A theorem `confined_f` says of `f` in every state,
and with any outcome, that the rows of other companies are the same afterwards, that
none were added or moved, and that the response, if there is one, is about company `c`.

## Three kinds of endpoint

* A listing filters by `c`, or refuses when the query string names another company. The
  weight is on the response: each row shown satisfied the filter in the state it was
  read from.
* An endpoint about one row reads it and compares its company with the scope. The weight
  is on the order, since the comparison stands before the first write.
* An endpoint that creates has only the body to look at, and compares the company of the
  body.
-/

namespace Rooti

open Relational Program

variable {V D α β : Type} {env : Env} {c : ℤ} {w : World V D} {db d : Db}

/-! ## What is shown -/

/-- A leave of the company. -/
def LeaveOf (c : ℤ) (db : Db) (l : LeaveResponse) : Prop := ShownOf c db .leave l.id l.companyId

/-- A kiosk of the company. -/
def KioskOf (c : ℤ) (db : Db) (k : KioskResponse) : Prop :=
  ShownOf c db .companyKiosk k.id k.companyId

/-- A bulk-mail job of the company. -/
def JobOf (c : ℤ) (db : Db) (job : BulkEmailJobResponse) : Prop :=
  ShownOf c db .bulkEmailJob job.id job.companyId

/-- An e-mail schedule of the company. -/
def EmailScheduleOf (c : ℤ) (db : Db) (s : JournalScheduleResponse) : Prop :=
  ShownOf c db .journalEmailSchedule s.id s.companyId

/-- A shift of a worker of the company. -/
def ShiftOf (c : ℤ) (db : Db) (ws : WorkSchedule) : Prop :=
  ws ∈ db.rows .workSchedule ∧
    ∃ cw, WorkJournalBulkEmailService.companyOf db ws = some cw ∧ cw.companyId = c

/-- **The journal of a shift of the company**: the document of its records. -/
def JournalOf (r : Renderers) (c : ℤ) (db : Db) (scheduleId : ℤ) (fmt : JournalFormat)
    (body : Bytes) : Prop :=
  ∃ ws, ShiftOf c db ws ∧ ws.id = scheduleId ∧ ∃ (standard : String) (o : RowOrder),
    (WorkJournalRenderService.document r fmt
      ("근무일지 - schedule=" ++ toString ws.id ++ " - " ++ standard)
      ((WorkJournalRenderService.recordsOf ws.id o db).map JournalRow.ofRecord) :
      Async Unit Unit Bytes) = .ret body

/-! ## Listings -/

/-- The rows of a page are among those that match. -/
theorem holds_listPage {binds : List Bind} {matching : Db → List α}
    {order : RowOrder → List α → List α} {respond : α → Except Err β} {params : PageParams}
    (horder : ∀ o l a, a ∈ order o l → a ∈ l) :
    (server env).Ensures (Holds w d []) (listPage binds matching order respond params)
      (fun page s w' => (∀ b ∈ page.content, ∃ a ∈ matching d, respond a = .ok b) ∧
        Holds w d [] s w') (Uncommitted w) := by
  refine holds_query.bind fun total => .of_and fun _ => ?_
  refine holds_query.bind fun rows => .of_and ?_
  rintro ⟨-, o, rfl⟩
  refine holds_ofExcept.bind fun content => .of_and fun hcontent => .ret fun _ _ h => ⟨?_, h⟩
  obtain ⟨-, rfl⟩ := mapM_eq_ok_iff.mp hcontent
  intro b hb
  obtain ⟨a, ha, hab⟩ := List.mem_filterMap.mp hb
  refine ⟨a, horder o _ a (List.mem_of_mem_drop (List.mem_of_mem_take ha)), ?_⟩
  cases hrespond : respond a with
  | error e =>
      rw [hrespond] at hab
      cases hab
  | ok b' =>
      rw [hrespond] at hab
      cases hab
      rfl

/-! ## Leaves -/

section Leaves

/-- What a row of the join says about the table: the leave is stored, and the filter
accepted it. -/
theorem mem_leaveRows {ok : LeaveRow → Bool} {row : LeaveRow} (h : row ∈ leaveRows db ok) :
    row.leave ∈ db.rows .leave ∧ ok row := by
  obtain ⟨hrow, hok⟩ := List.mem_filter.mp h
  obtain ⟨leave, hleave, hjoined⟩ := List.mem_filterMap.mp hrow
  rw [leave_of_leaveRow hjoined]
  exact ⟨hleave, hok⟩

/-- With a filter that fixes the company, the join answers with leaves of that company.
-/
theorem leaveOf_of_mem {ok : LeaveRow → Bool} {row : LeaveRow} (h : row ∈ leaveRows db ok)
    (hok : ok row → row.leave.companyId = c) : LeaveOf c db row.toResponse := by
  obtain ⟨hleave, hrow⟩ := mem_leaveRows h
  exact ⟨hok hrow, row.leave, hleave, rfl, congrArg some (hok hrow)⟩

/-- `resolveCompanyFilter` refuses a request that names another company and fills in the
own one where none is named, so the filter that reaches the query always fixes the
company. -/
theorem confined_listLeaves {ilike : String → String → Bool} {filter : LeaveFilter}
    {page : PageParams} :
    Confined env c (fun page db => ∀ l ∈ page.content, LeaveOf c db l)
      (LeaveApi.listLeaves ilike filter page (some c) : Async V D _) := by
  refine confined_of_reads fun w => holds_resolveCompanyFilter.bind fun companyId => .of_and ?_
  rintro rfl
  refine (holds_listPage fun o l a h => o.mem_orderByDesc.mp h).bind fun p => .of_and fun hp =>
    .ret fun _ _ h => ⟨fun l hl => ?_, h⟩
  obtain ⟨row, hrow, hrespond⟩ := hp l hl
  cases hrespond
  refine leaveOf_of_mem hrow fun hok => ?_
  simp only [LeaveFilter.ok, Option.all_some, Bool.and_eq_true, decide_eq_true_eq] at hok
  tauto

/-- Leaves that satisfy a condition which implies the company. -/
theorem holds_listLeaves {binds : List Bind} {ok : LeaveRow → Bool}
    (hok : ∀ row, ok row → row.leave.companyId = c) :
    (server env).Ensures (Holds w w.db []) (LeaveService.listLeaves binds ok)
      (fun rows s w' => (∀ l ∈ rows, LeaveOf c w.db l) ∧ Holds w w.db [] s w')
      (Uncommitted w) := by
  refine holds_query.bind fun rows => .of_and ?_
  rintro ⟨-, o, rfl⟩
  refine .ret fun _ _ h => ⟨fun l hl => ?_, h⟩
  obtain ⟨row, hrow, rfl⟩ := List.mem_map.mp hl
  exact leaveOf_of_mem (o.mem_orderByDesc.mp hrow) (hok row)

theorem confined_listApproved {companyId : Option ℤ} {from_ to_ : Option Date} :
    Confined env c (fun rows db => ∀ l ∈ rows, LeaveOf c db l)
      (LeaveApi.listApproved companyId from_ to_ (some c) : Async V D _) := by
  refine confined_of_reads fun w => holds_resolveCompanyFilter.bind fun companyId => .of_and ?_
  rintro rfl
  refine holds_listLeaves fun row hok => ?_
  simp only [Option.all_some, Bool.and_eq_true, decide_eq_true_eq] at hok
  tauto

/-- The worker may have worked elsewhere; only the leaves for company `c` are listed. -/
theorem confined_listByWorker {workerId : ℤ} {from_ to_ : Option Date} :
    Confined env c (fun rows db => ∀ l ∈ rows, LeaveOf c db l)
      (LeaveApi.listByWorker workerId from_ to_ (some c) : Async V D _) := by
  refine confined_of_reads fun w => holds_listLeaves fun row hok => ?_
  simp only [Option.all_some, Bool.and_eq_true, decide_eq_true_eq] at hok
  tauto

/-- Only the company of the body is compared with the scope. The worker may be one of
another company: the leave that is added names `c`, and no row of the others is touched.
-/
theorem confined_createLeave {req : LeaveCreateRequest} {me : PrincipalDetails} :
    Confined env c (fun l db => LeaveOf c db l)
      (LeaveApi.createLeave req me (some c) : Async V D _) := by
  refine confined_of_settled fun w => holds_assertCompany.bind fun _ => .of_and fun hscope => ?_
  have hcompany : req.companyId = c := by simpa using hscope
  refine holds_createLeave.weaken (fun _ _ h => h) ?_ fun _ _ h => h
  rintro resp s w' ⟨d, ⟨-, new, hinsert, row, hrow, rfl⟩, h⟩
  refine ⟨d, ⟨isolated_insert hinsert (congrArg some hcompany), ?_⟩, h⟩
  refine leaveOf_of_mem hrow fun hid => ?_
  obtain ⟨hrows, -, -⟩ := Dml.insert_ok hinsert
  have hnew : req.row me.userId new ∈ d.rows .leave := by
    rw [hrows]
    exact List.mem_append_right _ List.mem_cons_self
  have hsame : row.leave = req.row me.userId new :=
    Table.eq_of_key (mem_leaveRows hrow).1 hnew (of_decide_eq_true hid)
  rw [hsame]
  exact hcompany

/-- The leave is loaded and compared with the scope before the decision; the one write
is of the row that passed. -/
theorem confined_decideLeave {leaveId : ℤ} {req : LeaveDecisionRequest} :
    Confined env c (fun l db => LeaveOf c db l)
      (LeaveApi.decideLeave leaveId req (some c) : Async V D _) := by
  refine confined_of_settled fun w => holds_decideLeave.weaken (fun _ _ h => h) ?_ fun _ _ h => h
  rintro resp s w' ⟨d, ⟨⟨leave, hfound, hreach, hchanged⟩, row, hrow, rfl⟩, h⟩
  have hcompany : leave.companyId = c := by simpa using hreach
  have howns : Owns c w.db .leave leaveId := owns_of_find? hfound (congrArg some hcompany)
  refine ⟨d, ⟨isolated_changed hchanged howns fun r hr => hr, ?_⟩, h⟩
  refine leaveOf_of_mem hrow fun hid => ?_
  obtain ⟨r, hr, ⟨hkey, hdecided⟩ | ⟨hkey, hsame⟩⟩ :=
    hchanged.of_mem (mem_leaveRows hrow).1
  · rw [hdecided]
    exact Option.some.inj (howns r hr hkey)
  · exact absurd (hsame ▸ of_decide_eq_true hid) hkey

/-- A leave of another company is refused before the DELETE, and one that does not exist
is passed over. -/
theorem confined_deleteLeave {leaveId : ℤ} :
    Confined env c (fun _ _ => True) (LeaveApi.deleteLeave leaveId (some c) : Async V D _) :=
  confined_delete (unreferenced (by decide)) (fun _ => rfl) (fun _ => trivial) rfl fun _ => rfl

end Leaves

/-! ## Kiosks -/

section Kiosks

theorem kioskOf_of_withCompany {k : CompanyKiosk} {row : CompanyKiosk × String}
    (hk : k ∈ db.rows .companyKiosk) (hrow : KioskService.withCompany db k = some row)
    (hcompany : row.1.companyId = c) :
    KioskOf c db (KioskService.toResponse row.1 (some row.2)) := by
  obtain ⟨company, -, rfl⟩ := Option.map_eq_some_iff.mp hrow
  exact ⟨hcompany, k, hk, rfl, congrArg some hcompany⟩

/-- As for the leaves, another company in the query string is refused and none stands
for the own one; keyword and status only narrow the listing. -/
theorem confined_listKiosks {ilike : String → String → Bool} {keyword : Option String}
    {companyId : Option ℤ} {status : Option String} {page : PageParams} :
    Confined env c (fun page db => ∀ k ∈ page.content, KioskOf c db k)
      (KioskApi.listKiosks ilike keyword companyId status page (some c) : Async V D _) := by
  refine confined_of_reads fun w => holds_resolveCompanyFilter.bind fun companyId => .of_and ?_
  rintro rfl
  refine (holds_listPage fun o l a h => o.mem_orderBy.mp h).bind fun p => .of_and fun hp =>
    .ret fun _ _ h => ⟨fun k hk => ?_, h⟩
  obtain ⟨row, hrow, hrespond⟩ := hp k hk
  cases hrespond
  obtain ⟨hjoined, hok⟩ := List.mem_filter.mp hrow
  obtain ⟨kiosk, hkiosk, hwith⟩ := List.mem_filterMap.mp hjoined
  refine kioskOf_of_withCompany hkiosk hwith ?_
  simp only [Option.all_some, Bool.and_eq_true, decide_eq_true_eq] at hok
  exact hok.1.1

/-- The path names a company; another one than the scope is refused, not answered with
an empty list. -/
theorem confined_kiosksByCompany {companyId : ℤ} :
    Confined env c (fun rows db => ∀ k ∈ rows, KioskOf c db k)
      (KioskApi.listByCompany companyId (some c) : Async V D _) := by
  refine confined_of_reads fun w => holds_assertCompany.bind fun _ => .of_and fun hscope => ?_
  have hcompany : companyId = c := by simpa using hscope
  refine holds_query.bind fun rows => .of_and ?_
  rintro ⟨-, o, rfl⟩
  refine .ret fun _ _ h => ⟨fun k hk => ?_, h⟩
  obtain ⟨row, hrow, rfl⟩ := List.mem_map.mp hk
  obtain ⟨kiosk, hkiosk, hwith⟩ := List.mem_filterMap.mp hrow
  obtain ⟨hmem, hof⟩ := List.mem_filter.mp (o.mem_orderBy.mp hkiosk)
  have hsame : row.1 = kiosk := by
    obtain ⟨company, -, rfl⟩ := Option.map_eq_some_iff.mp hwith
    rfl
  refine kioskOf_of_withCompany hmem hwith ?_
  rw [hsame, of_decide_eq_true hof, hcompany]

/-- The company is that of the body, checked against the scope before the INSERT. -/
theorem confined_bindKiosk {req : KioskBindRequest} :
    Confined env c (fun k db => KioskOf c db k)
      (KioskApi.bind req (some c) : Async V D _) := by
  refine confined_of_settled fun w => holds_assertCompany.bind fun _ => .of_and fun hscope => ?_
  have hcompany : req.companyId = c := by simpa using hscope
  refine holds_dbGet.bind fun found => .of_and fun _ => ?_
  refine holds_orRaise.bind fun company => .of_and fun _ => ?_
  refine holds_query.bind fun dup => .of_and fun _ => holds_raiseIf.bind fun _ => .of_and fun _ => ?_
  refine holds_insert fun new d hinsert => .ret fun _ _ h => ⟨d, ⟨?_, ?_⟩, h⟩
  · exact isolated_insert hinsert (congrArg some hcompany)
  · refine ⟨hcompany, KioskService.newKiosk req new, ?_, rfl, congrArg some hcompany⟩
    rw [(Dml.insert_ok hinsert).1]
    exact List.mem_append_right _ List.mem_cons_self

/-- The kiosk is compared with the scope; the assignee is a text and is not looked up.
-/
theorem confined_setAssignee {kioskId : ℤ} {req : KioskAssigneeRequest} :
    Confined env c (fun k db => KioskOf c db k)
      (KioskApi.setAssignee kioskId req (some c) : Async V D _) := by
  refine confined_of_settled fun w => holds_dbGet.bind fun found => .of_and ?_
  rintro rfl
  refine holds_orRaise.bind fun kiosk => .of_and fun hfound => ?_
  refine holds_assertCompany.bind fun _ => .of_and fun hscope => ?_
  have hcompany : kiosk.companyId = c := by simpa using hscope
  refine holds_modify.bind fun _ => .of_exists fun now => ?_
  refine holds_select.bind fun company => .of_exists fun d => .of_and ?_
  rintro ⟨hd, -⟩
  rw [List.nil_append] at hd
  have hkiosk := Table.find?_mem hfound
  have hchanged := changed_of_applyAll (t := .companyKiosk) hkiosk (fun _ => rfl) hd
  refine .ret fun _ _ h => ⟨d, ⟨?_, ?_⟩, h⟩
  · exact isolated_changed hchanged (owns_of_mem hkiosk (congrArg some hcompany)) fun r hr => hr
  · exact ⟨hcompany, _, hchanged.mem_of_eq hkiosk rfl, rfl, congrArg some hcompany⟩

theorem confined_unbind {kioskId : ℤ} :
    Confined env c (fun _ _ => True) (KioskApi.unbind kioskId (some c) : Async V D _) :=
  confined_delete (unreferenced (by decide)) (fun _ => rfl) (fun _ => trivial) rfl fun _ => rfl

end Kiosks

/-! ## E-mail schedules -/

section EmailSchedules

/-- The listing is filtered by the company that `resolveCompanyFilter` answers, which is
`c`. -/
theorem confined_listEmailSchedules {companyId : Option ℤ} :
    Confined env c (fun rows db => ∀ s ∈ rows, EmailScheduleOf c db s)
      (WorkJournalApi.listEmailSchedules companyId (some c) : Async V D _) := by
  refine confined_of_reads fun w => holds_resolveCompanyFilter.bind fun companyId => .of_and ?_
  rintro rfl
  refine holds_query.bind fun rows => .of_and ?_
  rintro ⟨-, o, rfl⟩
  refine .ret fun _ _ h => ⟨fun s hs => ?_, h⟩
  obtain ⟨row, hrow, rfl⟩ := List.mem_map.mp hs
  obtain ⟨schedule, hschedule, rfl⟩ := List.mem_map.mp hrow
  obtain ⟨hmem, hof⟩ := List.mem_filter.mp (o.mem_orderByDesc.mp hschedule)
  have hcompany : schedule.companyId = c := by simpa using hof
  exact ⟨hcompany, schedule, hmem, rfl, congrArg some hcompany⟩

/-- The company of the body is compared with the scope, so the schedule that is added is
one of the company. -/
theorem confined_createEmailSchedule {req : JournalScheduleCreateRequest} :
    Confined env c (fun s db => EmailScheduleOf c db s)
      (WorkJournalApi.createEmailSchedule env req (some c) : Async V D _) := by
  refine confined_of_settled fun w => holds_assertCompany.bind fun _ => .of_and fun hscope => ?_
  have hcompany : req.companyId = c := by simpa using hscope
  refine holds_dbGet.bind fun found => .of_and fun _ => ?_
  refine holds_orRaise.bind fun company => .of_and fun _ => ?_
  refine JournalScheduleService.holds_computeNextRun.bind fun nextRunAt => ?_
  refine holds_insert fun new d hinsert => .ret fun _ _ h => ⟨d, ⟨?_, ?_⟩, h⟩
  · exact isolated_insert hinsert (congrArg some hcompany)
  · refine ⟨hcompany, req.row nextRunAt new, ?_, rfl, congrArg some hcompany⟩
    rw [(Dml.insert_ok hinsert).1]
    exact List.mem_append_right _ List.mem_cons_self

/-- A schedule of the company is not moved to another one. -/
theorem confined_updateEmailSchedule {scheduleId : ℤ} {req : JournalScheduleUpdateRequest} :
    Confined env c (fun s db => EmailScheduleOf c db s)
      (WorkJournalApi.updateEmailSchedule env scheduleId req (some c) : Async V D _) := by
  refine confined_of_settled fun w =>
    JournalScheduleService.holds_update.weaken (fun _ _ h => h) ?_ fun _ _ h => h
  rintro resp s' w' ⟨d, ⟨s, nextRunAt, hfound, -, hchanged, hreach, htarget, name, rfl⟩, h⟩
  have hcompany : s.companyId = c := by simpa using hreach
  -- the company asked for is the one of the schedule: any other is out of scope
  have hstays : ∀ r : JournalEmailSchedule, r.companyId = c →
      (req.apply nextRunAt r).companyId = c := by
    intro r hr
    rw [(JournalScheduleUpdateRequest.apply_fields req r nextRunAt).2.1]
    cases hasked : req.companyId with
    | none => exact hr
    | some target =>
        by_cases hsame : target = s.companyId
        · exact hsame.trans hcompany
        · simpa using htarget target hasked hsame
  have howns : Owns c w.db .journalEmailSchedule scheduleId :=
    owns_of_find? hfound (congrArg some hcompany)
  have hkey : (req.apply nextRunAt s).id = s.id :=
    (JournalScheduleUpdateRequest.apply_fields req s nextRunAt).2.2.2.2.2.2.1
  refine ⟨d, ⟨isolated_changed hchanged howns fun r hr => ?_, hstays s hcompany, ?_⟩, h⟩
  · exact congrArg some (hstays r (Option.some.inj hr))
  · exact ⟨_, hchanged.mem_of_eq (Table.find?_mem hfound) (Table.find?_key hfound), rfl,
      congrArg some (hstays s hcompany)⟩

theorem confined_deleteEmailSchedule {scheduleId : ℤ} :
    Confined env c (fun _ _ => True)
      (WorkJournalApi.deleteEmailSchedule scheduleId (some c) : Async V D _) :=
  confined_delete (unreferenced (by decide)) (fun _ => rfl) (fun _ => trivial) rfl fun _ => rfl

end EmailSchedules

/-! ## Journals and bulk mails -/

section Journals

open WorkJournalBulkEmailService WorkJournalRenderService

variable {r : Renderers}

/-- A document does not depend on what the database and the storage are. -/
theorem holds_document {fmt : JournalFormat} {title : String} {rows : List JournalRow} :
    (server env).Ensures (Holds w d []) (document r fmt title rows)
      (fun body s w' => (document r fmt title rows : Async Unit Unit Bytes) = .ret body ∧
        Holds w d [] s w') (Uncommitted w) := by
  cases fmt with
  | pdf =>
      refine holds_ofExcept.weaken (fun _ _ h => h) (fun body _ _ h => ⟨?_, h.2⟩) fun _ _ h => h
      rw [document, renderPdf, h.1]
      rfl
  | xlsx =>
      refine holds_ofExcept.weaken (fun _ _ h => h) (fun body _ _ h => ⟨?_, h.2⟩) fun _ _ h => h
      rw [document, renderJournalXlsx, h.1]
      rfl
  | hwp => exact .ret fun _ _ h => ⟨rfl, h⟩

/-- The owner of a shift is the company of its worker. -/
theorem companyOf_of_ownerCompanies {ws : WorkSchedule} {o : RowOrder}
    (h : ownerCompanies ws o db = [c]) : ∃ cw, companyOf db ws = some cw ∧ cw.companyId = c := by
  have hmem : c ∈ ownerCompanies ws o db := by
    rw [h]
    exact List.mem_cons_self
  obtain ⟨jw, hjw, howner⟩ := List.mem_filterMap.mp hmem
  obtain ⟨hrow, hid⟩ := List.mem_filter.mp (o.mem_scan.mp hjw)
  obtain ⟨cw, hcw, hcompany⟩ := Option.map_eq_some_iff.mp howner
  have hfound : db.find? .jobWorker ws.jobWorkerId = some jw :=
    Table.find?_eq_some.mpr ⟨hrow, of_decide_eq_true hid⟩
  refine ⟨cw, ?_, hcompany⟩
  rw [companyOf, hfound]
  exact hcw

/-- A journal is rendered only after `assertOwner` has found the company of the shift
through its job worker; the shift itself names none. -/
theorem confined_downloadFile (scheduleId : ℤ) (format : JournalFormat) :
    Confined env c (fun body db => JournalOf r c db scheduleId format body)
      (WorkJournalApi.downloadFile r scheduleId format (some c) : Async V D _) := by
  refine confined_of_reads fun w => holds_dbGet.bind fun found => .of_and ?_
  rintro rfl
  refine holds_orRaise.bind fun ws => .of_and fun hfound => ?_
  have howner : (server env).Ensures (Holds w w.db []) (assertOwner (some c) ws)
      (fun _ s w' => ShiftOf c w.db ws ∧ Holds w w.db [] s w') (Uncommitted w) := by
    refine holds_query.bind fun rows => .of_and ?_
    rintro ⟨-, o, rfl⟩
    refine holds_scalarOneOrNone.bind fun owner => .of_and fun hrows => ?_
    refine holds_raiseIf.weaken (fun _ _ h => h) (fun _ _ _ h => ⟨?_, h.2⟩) fun _ _ h => h
    have hscope : owner = some c := by simpa using h.1
    rw [hscope] at hrows
    exact ⟨Table.find?_mem hfound, companyOf_of_ownerCompanies hrows⟩
  refine howner.bind fun _ => .of_and fun hshift => ?_
  refine holds_dbGet.bind fun standard => .of_and fun _ => ?_
  refine holds_query.bind fun records => .of_and ?_
  rintro ⟨-, o, rfl⟩
  have hid : ws.id = scheduleId := Table.find?_key hfound
  refine holds_document.weaken (fun _ _ h => h) (fun body _ _ h => ⟨?_, h.2⟩) fun _ _ h => h
  refine ⟨ws, hshift, hid, standard.elim "" fun s => s.name, o, ?_⟩
  rw [hid]
  exact h.1

/-- The join adds the names of the company and of who asked for the job; the company is
the one of the job's row. -/
theorem jobOf_of_jobRow {job : BulkEmailJob} {row : BulkEmailJob × String × Option String}
    (hjob : job ∈ db.rows .bulkEmailJob) (hrow : jobRow db job = some row)
    (hcompany : row.1.companyId = c) :
    JobOf c db (toJobResponse row.1 (some row.2.1) row.2.2) := by
  obtain ⟨company, -, rfl⟩ := Option.map_eq_some_iff.mp hrow
  exact ⟨hcompany, job, hjob, rfl, congrArg some hcompany⟩

theorem confined_listBulkEmailJobs {companyId : Option ℤ} {limit : WorkJournalApi.JobLimit} :
    Confined env c (fun rows db => ∀ job ∈ rows, JobOf c db job)
      (WorkJournalApi.listBulkEmailJobs companyId limit (some c) : Async V D _) := by
  refine confined_of_reads fun w => holds_resolveCompanyFilter.bind fun companyId => .of_and ?_
  rintro rfl
  refine holds_query.bind fun rows => .of_and ?_
  rintro ⟨-, o, rfl⟩
  refine .ret fun _ _ h => ⟨fun resp hresp => ?_, h⟩
  obtain ⟨row, hrow, rfl⟩ := List.mem_map.mp hresp
  obtain ⟨job, hjob, hjoined⟩ := List.mem_filterMap.mp (List.mem_of_mem_take hrow)
  obtain ⟨hmem, hof⟩ := List.mem_filter.mp (o.mem_orderByDesc.mp hjob)
  have hsame : row.1 = job := by
    obtain ⟨company, -, rfl⟩ := Option.map_eq_some_iff.mp hjoined
    rfl
  refine jobOf_of_jobRow hmem hjoined ?_
  rw [hsame]
  simpa using (of_decide_eq_true (p := c = job.companyId) (by simpa using hof)).symm

/-- The job is read before its company is compared, so one of another company is refused
and one that does not exist is not found. -/
theorem confined_getBulkEmailJob {jobId : ℤ} :
    Confined env c (fun job db => JobOf c db job)
      (WorkJournalApi.getBulkEmailJob jobId (some c) : Async V D _) := by
  refine confined_of_reads fun w => holds_query.bind fun rows => .of_and ?_
  rintro ⟨-, o, rfl⟩
  refine holds_orRaise.bind fun row => .of_and fun hrow => ?_
  refine holds_assertCompany.bind fun _ => .of_and fun hscope => .ret fun _ _ h => ⟨?_, h⟩
  obtain ⟨job, hjob, hjoined⟩ := List.mem_filterMap.mp (List.mem_of_head? hrow)
  have hmem := (List.mem_filter.mp (o.mem_scan.mp hjob)).1
  exact jobOf_of_jobRow hmem hjoined (by simpa using hscope)

/-- The shifts of a preview are those of workers of the company. -/
theorem confined_bulkPreview {companyId : ℤ} {day : Date} :
    Confined env c (fun preview db => preview.companyId = c ∧
        ∀ item ∈ preview.items, ∃ ws, ShiftOf c db ws ∧ ws.id = item.scheduleId)
      (WorkJournalApi.bulkPreview companyId day (some c) : Async V D _) := by
  refine confined_of_reads fun w => holds_assertCompany.bind fun _ => .of_and fun hscope => ?_
  have hcompany : companyId = c := by simpa using hscope
  refine holds_dbGet.bind fun company => .of_and fun _ => ?_
  refine holds_query.bind fun items => .of_and ?_
  rintro ⟨-, o, rfl⟩
  refine .ret fun _ _ h => ⟨⟨hcompany, fun item hitem => ?_⟩, h⟩
  obtain ⟨ws, hws, hrow⟩ := List.mem_filterMap.mp (o.mem_scan.mp (List.mem_mergeSort.mp hitem))
  obtain ⟨hmem, hbulk⟩ := List.mem_filter.mp hws
  simp only [inBulk, Bool.and_eq_true] at hbulk
  obtain ⟨cw, hcw, hof⟩ := (Option.any_eq_true _ _).mp hbulk.1
  refine ⟨ws, ⟨hmem, cw, hcw, (of_decide_eq_true hof).trans hcompany⟩, ?_⟩
  simp only [previewRow, Option.bind_eq_bind, Option.bind_eq_some_iff, Option.pure_def,
    Option.some.injEq] at hrow
  obtain ⟨cw', hcw', worker, hworker, user, huser, standard, hstandard, rfl⟩ := hrow
  rfl

end Journals

end Rooti
