import Mathlib.Data.List.DropRight
import Rooti.Core.Holding
import Rooti.Lib.Runs
import Rooti.Listings.Pages

/-!
# Retirements

A worker retires, perhaps again and again, and may be hired back in between.  The row keeps the
time of the first retirement that still counts.  A search for the workers who are active or who
are retired asks for that column, and the responses derive their status from it.

## Main definitions

* `RetirementRequest`, `Retirement` — the requests, and what becomes of them
* `firstRetirement` — the first retirement since a worker was last hired back
* `Recorded` — the rows agree with the history, and every request keeps it so
* `FiltersAgree` — the two filters of the search share out the workers
* `retirement_recorded` — what the rows and the searches say after any requests

## What carries the proof

The history is kept by the requests that were answered, beside the database, and nothing
of it is in the code; `firstRetirement` says what it means. `Recorded` compares the two,
and a request keeps it because an event at the end of a history changes what the history
says about its own worker only (`firstRetirement_append_retired`,
`firstRetirement_append_rehired`).

That retiring twice keeps the first time comes out as an identity between
`Option.orElse` in the service and in the history, where the earlier event is found
first.

The searches are a matter of their own and hold in every database: the two filters are
the two values of one test, so the pages of the one and of the other add up to those of
the search without a filter.
-/

namespace Rooti

open Relational Program WorkerService

variable {V D : Type}

/-- The requests on the employment of workers. -/
inductive RetirementRequest
  | create (req : WorkerCreateRequest)
  | retire (workerId : ℤ)
  | rehire (workerId : ℤ)

/-- What has happened to a worker. -/
inductive Retirement
  | retired (workerId : ℤ) (time : DateTime)
  | rehired (workerId : ℤ)
  deriving DecidableEq

namespace Retirement

/-- The worker it happened to. -/
def workerId : Retirement → ℤ
  | retired id _ => id
  | rehired id => id

/-- The time of a retirement of the worker. -/
def timeOf (id : ℤ) : Retirement → Option DateTime
  | retired id' time => if id' = id then some time else none
  | rehired _ => none

end Retirement

/-- **The first retirement of a worker since the last time the worker was hired back**, or ever. -/
def firstRetirement (history : List Retirement) (id : ℤ) : Option DateTime :=
  (history.rtakeWhile fun event => event ≠ .rehired id).findSome? (Retirement.timeOf id)

/-- The time of a request to retire: the service reads the clock once it has loaded the worker
and the account. -/
def retirementTime (env : Env) (w : World V D) : DateTime := ⟨env.clock (w.ticks + 2), none⟩

namespace RetirementRequest

/-- What has happened, if the request is answered. -/
def events (env : Env) : RetirementRequest → World V D → List Retirement
  | .create _, _ => []
  | .retire id, w =>
      if (serve env (WorkerService.retire id) w).1.isOk then [.retired id (retirementTime env w)]
      else []
  | .rehire id, w =>
      if (serve env (WorkerService.rehire id) w).1.isOk then [.rehired id] else []

/-- The state after a request. -/
def step (env : Env) (bcrypt : Bcrypt) : RetirementRequest → World V D → World V D
  | .create req, w => (serve env (WorkerService.create bcrypt req) w).2
  | .retire id, w => (serve env (WorkerService.retire id) w).2
  | .rehire id, w => (serve env (WorkerService.rehire id) w).2

/-- A request, with the history of those before it. -/
def record (env : Env) (bcrypt : Bcrypt) (request : RetirementRequest)
    (state : List Retirement × World V D) : List Retirement × World V D :=
  (state.1 ++ request.events env state.2, request.step env bcrypt state.2)

end RetirementRequest

/-! ## The history -/

section History

variable {history : List Retirement} {id id' : ℤ} {time : DateTime}

/-- A retirement counts if there is none before it. -/
theorem firstRetirement_append_retired :
    firstRetirement (history ++ [.retired id' time]) id =
      (firstRetirement history id).orElse fun _ => if id' = id then some time else none := by
  rw [firstRetirement, List.rtakeWhile_concat_pos _ _ _ (by simp), List.findSome?_append,
    firstRetirement]
  cases (history.rtakeWhile fun event => event ≠ .rehired id).findSome? (Retirement.timeOf id) with
  | some t => rfl
  | none => simp [Retirement.timeOf]

/-- A worker who is hired back has not retired. -/
theorem firstRetirement_append_rehired :
    firstRetirement (history ++ [.rehired id']) id =
      if id' = id then none else firstRetirement history id := by
  by_cases hid : id' = id
  · subst hid
    rw [firstRetirement, List.rtakeWhile_concat_neg _ _ _ (by simp), if_pos rfl]
    rfl
  · have hkeep : Retirement.rehired id' ≠ .rehired id := fun h => hid (Retirement.rehired.inj h)
    rw [firstRetirement, List.rtakeWhile_concat_pos _ _ _ (by simpa using hkeep),
      List.findSome?_append, if_neg hid, firstRetirement]
    simp [Retirement.timeOf]

/-- Nothing has happened to a worker the history does not know. -/
theorem firstRetirement_of_unknown (h : ∀ event ∈ history, event.workerId ≠ id) :
    firstRetirement history id = none := by
  rw [firstRetirement, List.findSome?_eq_none_iff]
  intro event hevent
  have hmem : event ∈ history := (List.rtakeWhile_suffix _ _).subset hevent
  cases event with
  | retired id' time => exact if_neg (h _ hmem)
  | rehired id' => rfl

end History

/-! ## The requests -/

/-- The assignment of a time of retirement. -/
def assignRetiredAt (t : Option DateTime) (worker : ChallengedWorker) : ChallengedWorker :=
  { worker with retiredAt := t }

/-- **The time of retirement of a worker has been assigned**, and nothing else. -/
def RetirementAssigned (id : ℤ) (t : ChallengedWorker → Option DateTime) (db db' : Db) : Prop :=
  ∃ worker, db.find? .challengedWorker id = some worker ∧
    Changed .challengedWorker id (assignRetiredAt (t worker)) db db'

section Requests

variable (env : Env) (bcrypt : Bcrypt) (w : World V D)

/-- What a flush makes of the assignment. -/
theorem assigned_of_flush {id : ℤ} {worker : ChallengedWorker} {now : DateTime} {db db' : Db}
    (t : ChallengedWorker → Option DateTime)
    (hworker : db.find? .challengedWorker id = some worker)
    (h : Dml.applyAll (Session.flushOrder
      (changes .challengedWorker worker (assignRetiredAt (t worker)) now)) db = .ok db') :
    RetirementAssigned id t db db' := by
  have hkey : keyOf .challengedWorker worker = id := Table.find?_key hworker
  refine ⟨worker, hworker, ?_⟩
  rw [← hkey]
  exact changed_of_applyAll (Table.find?_mem hworker) (fun _ => rfl) h

/-- The worker retires at the time of the clock, unless retired already. -/
theorem holdsAfter_markRetired {n : ℕ} {d : Db} {worker : ChallengedWorker} :
    (server env).Ensures (HoldsAfter n w d []) (markRetired worker : Async V D _)
      (fun t s w' => t = (worker.retiredAt.orElse fun _ => some ⟨env.clock (w.ticks + n), none⟩) ∧
        ∃ now, Holds w d (changes .challengedWorker worker (assignRetiredAt t) now) s w')
      (Uncommitted w) := by
  unfold markRetired
  cases hretired : worker.retiredAt with
  | some t =>
      have hsame : assignRetiredAt (some t) worker = worker := by
        rw [assignRetiredAt, ← hretired]
      refine .ret fun s w' h => ⟨rfl, ⟨0, none⟩, ?_⟩
      rw [changes, if_pos hsame]
      exact h.2
  | none =>
      refine holdsAfter_utcNow.bind fun t => .of_and ?_
      rintro rfl
      refine (holds_modify.weaken (fun _ _ h => h.2) (fun _ _ _ h => h) fun _ _ h => h).bind
        fun _ => .ret fun _ _ h => ⟨rfl, h⟩

/-- **A retirement** keeps the time of an earlier one. -/
theorem serve_retire (id : ℤ) :
    ((∃ e, (serve env (retire id) w).1 = .error e) ∧ (serve env (retire id) w).2.db = w.db) ∨
      ∃ resp, (serve env (retire id) w).1 = .ok resp ∧
        RetirementAssigned id
          (fun worker => worker.retiredAt.orElse fun _ => some (retirementTime env w))
          w.db (serve env (retire id) w).2.db := by
  refine serve_sentFrom holdsAfter_start ?_
  refine holdsAfter_getOrRaise.bind fun worker => .of_and fun hworker => ?_
  refine holdsAfter_dbGet.bind fun account => .of_and fun _ => ?_
  refine holdsAfter_orRaise.bind fun user => .of_and fun _ => ?_
  refine (holdsAfter_markRetired env w).bind fun t => .of_and ?_
  rintro rfl
  refine .of_exists fun now => holds_flush.bind fun _ => .of_exists fun d => .of_and fun hd => ?_
  exact .ret fun _ _ h => ⟨d, assigned_of_flush _ hworker hd, h⟩

/-- **A worker who is hired back** has not retired. -/
theorem serve_rehire (id : ℤ) :
    ((∃ e, (serve env (rehire id) w).1 = .error e) ∧ (serve env (rehire id) w).2.db = w.db) ∨
      ∃ resp, (serve env (rehire id) w).1 = .ok resp ∧
        RetirementAssigned id (fun _ => none) w.db (serve env (rehire id) w).2.db := by
  refine serve_sent ?_
  refine holds_getOrRaise.bind fun worker => .of_and fun hworker => ?_
  refine holds_dbGet.bind fun account => .of_and fun _ => ?_
  refine holds_orRaise.bind fun user => .of_and fun _ => ?_
  refine holds_modify.bind fun _ => .of_exists fun now => ?_
  refine holds_flush.bind fun _ => .of_exists fun d => .of_and fun hd => ?_
  exact .ret fun _ _ h => ⟨d, assigned_of_flush (fun _ => none) hworker hd, h⟩

/-- **A new worker** has not retired, and was not known before. -/
theorem serve_newWorker (req : WorkerCreateRequest) :
    (serve env (create bcrypt req) w).2.db = w.db ∨
      ∃ worker : ChallengedWorker, worker.retiredAt = none ∧
        (∀ other ∈ w.db.rows .challengedWorker, other.id ≠ worker.id) ∧
        (serve env (create bcrypt req) w).2.db.rows .challengedWorker =
          w.db.rows .challengedWorker ++ [worker] := by
  refine (serve_sent (φ := fun _ d => ∃ worker : ChallengedWorker, worker.retiredAt = none ∧
    (∀ other ∈ w.db.rows .challengedWorker, other.id ≠ worker.id) ∧
    d.rows .challengedWorker = w.db.rows .challengedWorker ++ [worker]) ?_).imp And.right
      fun ⟨_, _, h⟩ => h
  refine holds_query.bind fun dup => .of_and fun _ => holds_raiseIf.bind fun _ => .of_and ?_
  rintro -
  refine holds_hashPassword.bind fun passwordHash => ?_
  refine holds_insert fun newUser d₁ huser => holds_insert fun new d hd => .ret fun _ _ h => ?_
  have hrows : d.rows .challengedWorker =
      w.db.rows .challengedWorker ++ [newWorker newUser.id new] := by
    rw [(Dml.insert_ok hd).1]
    exact congrArg (· ++ _) (congrArg Table.rows ((Dml.insert_ok huser).2.2 _ (by decide)))
  have hkeys : ((d.rows .challengedWorker).map (keyOf .challengedWorker)).Nodup :=
    (d.table .challengedWorker).nodup_key
  rw [hrows, List.map_append, List.nodup_append] at hkeys
  refine ⟨d, ⟨_, rfl, fun other hother hid => ?_, hrows⟩, h⟩
  exact hkeys.2.2 _ (List.mem_map_of_mem hother) _ List.mem_cons_self hid

end Requests

/-! ## Runs -/

/-- **The rows agree with the history**: it knows the workers only, and the time kept for a
worker is that of the first retirement that counts. -/
structure Recorded (history : List Retirement) (db : Db) : Prop where
  known : ∀ event ∈ history, ∃ worker ∈ db.rows .challengedWorker, worker.id = event.workerId
  since : ∀ worker ∈ db.rows .challengedWorker,
    worker.retiredAt = firstRetirement history worker.id

namespace Recorded

variable {history : List Retirement} {db db' : Db}

/-- A worker who is created has no history. -/
theorem create {worker : ChallengedWorker} (h : Recorded history db)
    (hretired : worker.retiredAt = none)
    (hnew : ∀ other ∈ db.rows .challengedWorker, other.id ≠ worker.id)
    (hrows : db'.rows .challengedWorker = db.rows .challengedWorker ++ [worker]) :
    Recorded history db' where
  known event hevent := by
    obtain ⟨known, hknown, hid⟩ := h.known event hevent
    rw [hrows]
    exact ⟨known, List.mem_append_left _ hknown, hid⟩
  since other hother := by
    rw [hrows, List.mem_append, List.mem_singleton] at hother
    obtain hother | rfl := hother
    · exact h.since other hother
    · rw [hretired, firstRetirement_of_unknown]
      intro event hevent hid
      obtain ⟨known, hknown, hid'⟩ := h.known event hevent
      exact hnew known hknown (hid'.trans hid)

/-- **An event** is recorded when what it assigns is what the history says after it. -/
theorem assign {event : Retirement} {t : ChallengedWorker → Option DateTime}
    (h : Recorded history db) (hassigned : RetirementAssigned event.workerId t db db')
    (ht : ∀ worker ∈ db.rows .challengedWorker, worker.id = event.workerId →
      t worker = firstRetirement (history ++ [event]) event.workerId)
    (hothers : ∀ id, id ≠ event.workerId →
      firstRetirement (history ++ [event]) id = firstRetirement history id) :
    Recorded (history ++ [event]) db' := by
  obtain ⟨worker, hworker, hchanged⟩ := hassigned
  have hmem : worker ∈ db.rows .challengedWorker := Table.find?_mem hworker
  have hkey : worker.id = event.workerId := Table.find?_key hworker
  have hstays : ∀ other ∈ db.rows .challengedWorker, ∃ other' ∈ db'.rows .challengedWorker,
      other'.id = other.id := by
    intro other hother
    by_cases hid : other.id = event.workerId
    · exact ⟨_, hchanged.mem_of_eq hother hid, rfl⟩
    · exact ⟨_, hchanged.mem_of_ne hother hid, rfl⟩
  refine ⟨fun event' hevent' => ?_, fun other hother => ?_⟩
  · have hknown : ∃ known ∈ db.rows .challengedWorker, known.id = event'.workerId := by
      rw [List.mem_append, List.mem_singleton] at hevent'
      obtain hevent' | rfl := hevent'
      · exact h.known event' hevent'
      · exact ⟨worker, hmem, hkey⟩
    obtain ⟨known, hknown, hid⟩ := hknown
    obtain ⟨known', hknown', hid'⟩ := hstays known hknown
    exact ⟨known', hknown', hid'.trans hid⟩
  · obtain ⟨other, hother, ⟨hid, rfl⟩ | ⟨hid, rfl⟩⟩ := hchanged.of_mem hother
    · show t worker = firstRetirement (history ++ [event]) other.id
      rw [ht worker hmem hkey, show other.id = event.workerId from hid]
    · rw [h.since other hother, hothers other.id hid]

end Recorded

/-- **A request keeps the record.** -/
theorem recorded_record (env : Env) (bcrypt : Bcrypt) (request : RetirementRequest)
    {state : List Retirement × World V D} (h : Recorded state.1 state.2.db) :
    Recorded (request.record env bcrypt state).1 (request.record env bcrypt state).2.db := by
  obtain ⟨history, w⟩ := state
  cases request with
  | create req =>
      show Recorded (history ++ []) (serve env (WorkerService.create bcrypt req) w).2.db
      rw [List.append_nil]
      obtain hsame | ⟨worker, hretired, hnew, hrows⟩ := serve_newWorker env bcrypt w req
      · rw [hsame]
        exact h
      · exact h.create hretired hnew hrows
  | retire id =>
      show Recorded (history ++ RetirementRequest.events env (.retire id) w)
        (serve env (WorkerService.retire id) w).2.db
      rw [RetirementRequest.events]
      obtain ⟨⟨e, herror⟩, hsame⟩ | ⟨resp, hok, hassigned⟩ := serve_retire env w id
      · rw [herror, hsame, if_neg nofun, List.append_nil]
        exact h
      · rw [hok]
        change Recorded (history ++ [.retired id (retirementTime env w)]) _
        refine h.assign hassigned (fun worker hworker (hid : worker.id = id) => ?_)
          fun id' (hid : id' ≠ id) => ?_
        · show _ = firstRetirement (history ++ [.retired id (retirementTime env w)]) id
          rw [firstRetirement_append_retired, if_pos rfl, h.since worker hworker, hid]
        · rw [firstRetirement_append_retired, if_neg (Ne.symm hid)]
          cases firstRetirement history id' <;> rfl
  | rehire id =>
      show Recorded (history ++ RetirementRequest.events env (.rehire id) w)
        (serve env (WorkerService.rehire id) w).2.db
      rw [RetirementRequest.events]
      obtain ⟨⟨e, herror⟩, hsame⟩ | ⟨resp, hok, hassigned⟩ := serve_rehire env w id
      · rw [herror, hsame, if_neg nofun, List.append_nil]
        exact h
      · rw [hok]
        change Recorded (history ++ [.rehired id]) _
        refine h.assign hassigned (fun worker hworker (hid : worker.id = id) => ?_)
          fun id' (hid : id' ≠ id) => ?_
        · rw [firstRetirement_append_rehired]
          exact (if_pos rfl).symm
        · rw [firstRetirement_append_rehired]
          exact if_neg (Ne.symm hid)

/-! ## Searches -/

section Search

variable (ilike : String → String → Bool) (keyword : Option String) (params : PageParams)

/-- What a client collects of a search, page by page. -/
def collectSearch (employmentStatus : Option String) (env : ℕ → Env) (w : ℕ → World V D) :
    Except Err (List WorkerResponse) :=
  collect fun i =>
    (serve (env i) (search ilike keyword (params.onPage i) employmentStatus) (w i)).1

/-- The responses that a search is meant to show. -/
def searchResponses (employmentStatus : Option String) (db : Db) : List WorkerResponse :=
  (searchRows ilike keyword employmentStatus db).map fun row => toWorkerResponse row.1 row.2

variable (V D) in
/-- **The two filters share out the workers**: clients that collect the active, the retired and
all workers have each of the last in one of the first two, with the status that was asked for;
and the first two are answered when the last is. -/
structure FiltersAgree (db : Db) : Prop where
  partition : ∀ (env env' env'' : ℕ → Env) (w w' w'' : ℕ → World V D),
    (∀ i, (w i).db = db) → (∀ i, (w' i).db = db) → (∀ i, (w'' i).db = db) →
    ∀ active retired all,
      collectSearch ilike keyword params (some "ACTIVE") env w = .ok active →
      collectSearch ilike keyword params (some "RETIRED") env' w' = .ok retired →
      collectSearch ilike keyword params none env'' w'' = .ok all →
      (active ++ retired).Perm all ∧ (active.map WorkerResponse.id).Disjoint
        (retired.map WorkerResponse.id) ∧
      (∀ resp ∈ active, resp.employmentStatus = "ACTIVE") ∧
      (∀ resp ∈ retired, resp.employmentStatus = "RETIRED")
  answered : ∀ (env env' : ℕ → Env) (w w' : ℕ → World V D),
    (∀ i, (w i).db = db) → (∀ i, (w' i).db = db) →
    ∀ all, collectSearch ilike keyword params none env w = .ok all →
      (∃ active, collectSearch ilike keyword params (some "ACTIVE") env' w' = .ok active) ∧
      ∃ retired, collectSearch ilike keyword params (some "RETIRED") env' w' = .ok retired

variable {ilike keyword params} {employmentStatus : Option String} {db : Db}
  {env : ℕ → Env} {w : ℕ → World V D}

/-- **A search that is answered** was served. -/
theorem served_of_collectSearch {collected : List WorkerResponse} (hdb : ∀ i, (w i).db = db)
    (h : collectSearch ilike keyword params employmentStatus env w = .ok collected) :
    ((Listing.workers keyword employmentStatus).query ilike).Served params.size db :=
  Query.served_of_collect (q := (Listing.workers keyword employmentStatus).query ilike)
    (e := assertionError) hdb (mapM_eq_ok_iff.mpr ⟨fun _ _ => ⟨_, rfl⟩, rfl⟩) h

/-- **What it shows** are the responses of the matching workers. -/
theorem collectSearch_of_served (hdb : ∀ i, (w i).db = db)
    (h : ((Listing.workers keyword employmentStatus).query ilike).Served params.size db) :
    ∃ collected, collectSearch ilike keyword params employmentStatus env w = .ok collected ∧
      collected.Perm (searchResponses ilike keyword employmentStatus db) := by
  have hall := (listings_complete_iff ilike (.workers keyword employmentStatus) params (w 0)).mpr
  rw [hdb 0] at hall
  obtain ⟨answers, hanswers, hcollects⟩ := hall ⟨h, trivial⟩
  obtain ⟨-, rfl⟩ := mapM_eq_ok_iff.mp hanswers
  obtain ⟨collected, hcollect, hperm⟩ := hcollects env w hdb
  refine ⟨collected, hcollect, hperm.trans (.of_eq ?_)⟩
  exact congrFun List.filterMap_eq_map' _

/-- The clients of one search collect the responses of the matching workers. -/
theorem perm_of_collectSearch {collected : List WorkerResponse} (hdb : ∀ i, (w i).db = db)
    (h : collectSearch ilike keyword params employmentStatus env w = .ok collected) :
    collected.Perm (searchResponses ilike keyword employmentStatus db) := by
  obtain ⟨collected', hcollect, hperm⟩ :=
    collectSearch_of_served hdb (served_of_collectSearch hdb h)
  obtain rfl := Except.ok.inj (h.symm.trans hcollect)
  exact hperm

/-- A filter restricts the matching workers. -/
theorem searchRows_filter (employmentStatus : Option String) (db : Db) :
    searchRows ilike keyword employmentStatus db = (searchRows ilike keyword none db).filter
      fun row => employmentMatches employmentStatus row.1 := by
  unfold searchRows
  rw [List.filter_filter]
  refine List.filter_congr fun row _ => ?_
  show _ = (_ && (_ && true))
  rw [Bool.and_true, Bool.and_comm]

/-- The active workers and the retired ones are all of them. -/
theorem perm_searchResponses (db : Db) :
    (searchResponses ilike keyword (some "ACTIVE") db ++
      searchResponses ilike keyword (some "RETIRED") db).Perm
        (searchResponses ilike keyword none db) := by
  unfold searchResponses
  rw [← List.map_append, searchRows_filter (some "ACTIVE"), searchRows_filter (some "RETIRED")]
  refine List.Perm.map _ ?_
  have hretired : (fun row : ChallengedWorker × User =>
      employmentMatches (some "RETIRED") row.1) =
        fun row => !employmentMatches (some "ACTIVE") row.1 := by
    funext row
    show row.1.retiredAt.isSome = !row.1.retiredAt.isNone
    rw [Option.not_isNone]
  rw [hretired]
  exact List.filter_append_perm _ _

/-- A response that a filter lets through has the status that was asked for. -/
theorem employmentStatus_of_mem {resp : WorkerResponse} (db : Db) :
    (resp ∈ searchResponses ilike keyword (some "ACTIVE") db → resp.employmentStatus = "ACTIVE") ∧
      (resp ∈ searchResponses ilike keyword (some "RETIRED") db →
        resp.employmentStatus = "RETIRED") := by
  have hrow : ∀ status, resp ∈ searchResponses ilike keyword status db →
      ∃ row : ChallengedWorker × User, employmentMatches status row.1 ∧
        toWorkerResponse row.1 row.2 = resp := by
    intro status h
    unfold searchResponses at h
    rw [searchRows_filter, List.mem_map] at h
    obtain ⟨row, hrow, hresp⟩ := h
    exact ⟨row, (List.mem_filter.mp hrow).2, hresp⟩
  constructor
  · intro h
    obtain ⟨row, hactive, rfl⟩ := hrow _ h
    have hactive : row.1.retiredAt = none := Option.isNone_iff_eq_none.mp hactive
    show (if row.1.retiredAt.isSome then "RETIRED" else "ACTIVE") = "ACTIVE"
    rw [hactive]
    rfl
  · intro h
    obtain ⟨row, hretired, rfl⟩ := hrow _ h
    exact if_pos hretired

/-- No worker is shown twice. -/
theorem nodup_searchResponses (db : Db) :
    ((searchResponses ilike keyword none db).map WorkerResponse.id).Nodup := by
  have hnodup := ((Listing.workers keyword none).identified ilike db).nodup
  unfold searchResponses
  rw [List.map_map]
  exact hnodup

/-- **The two filters share out the workers** in every database. -/
theorem filtersAgree (db : Db) : FiltersAgree V D ilike keyword params db where
  partition := by
    intro env env' env'' w w' w'' hw hw' hw'' active retired all hactive hretired hall
    have hpactive := perm_of_collectSearch hw hactive
    have hpretired := perm_of_collectSearch hw' hretired
    have hpall := perm_of_collectSearch hw'' hall
    have hperm : (active ++ retired).Perm all :=
      ((hpactive.append hpretired).trans (perm_searchResponses db)).trans hpall.symm
    refine ⟨hperm, ?_, fun resp hresp => ?_, fun resp hresp => ?_⟩
    · have hnodup := (hperm.map WorkerResponse.id).nodup_iff.mpr
        ((hpall.map WorkerResponse.id).nodup_iff.mpr (nodup_searchResponses db))
      rw [List.map_append] at hnodup
      exact List.disjoint_of_nodup_append hnodup
    · exact (employmentStatus_of_mem db).1 (hpactive.mem_iff.mp hresp)
    · exact (employmentStatus_of_mem db).2 (hpretired.mem_iff.mp hresp)
  answered := by
    intro env env' w w' hw hw' all hall
    have hserved := served_of_collectSearch hw hall
    have hfiltered : ∀ status, ((Listing.workers keyword status).query ilike).Served
        params.size db := by
      intro status
      refine ⟨rfl, hserved.binds, fun page hpage => hserved.offsets page ?_, fun _ _ => ⟨_, rfl⟩⟩
      -- a filter leaves no more pages
      refine Nat.lt_of_lt_of_le hpage (pageCount_mono ?_ _)
      show (searchRows ilike keyword status db).length ≤
        (searchRows ilike keyword none db).length
      rw [searchRows_filter status]
      exact List.length_filter_le _ _
    have hanswered : ∀ status,
        ∃ collected, collectSearch ilike keyword params status env' w' = .ok collected := by
      intro status
      obtain ⟨collected, hcollect, -⟩ := collectSearch_of_served hw' (hfiltered status)
      exact ⟨collected, hcollect⟩
    exact ⟨hanswered (some "ACTIVE"), hanswered (some "RETIRED")⟩

end Search

/-- **Retirements are recorded, and the searches agree with them**: from a state in which no
worker has retired, whatever the requests, every worker's time of retirement is that of the
first retirement that counts, and the two filters share out the workers. -/
theorem retirement_recorded (env : Env) (bcrypt : Bcrypt) (ilike : String → String → Bool)
    (requests : List RetirementRequest) (w : World V D)
    (hw : ∀ worker ∈ w.db.rows .challengedWorker, worker.retiredAt = none) :
    (∀ worker ∈ (Runs.run (RetirementRequest.record env bcrypt) requests ([], w)).2.db.rows
        .challengedWorker, worker.retiredAt =
          firstRetirement (Runs.run (RetirementRequest.record env bcrypt) requests ([], w)).1
            worker.id) ∧
      ∀ keyword params, FiltersAgree V D ilike keyword params
        (Runs.run (RetirementRequest.record env bcrypt) requests ([], w)).2.db := by
  have hstart : Recorded [] w.db := ⟨fun _ h => absurd h List.not_mem_nil, hw⟩
  let Inv : List Retirement × World V D → Prop := fun state => Recorded state.1 state.2.db
  have hstep : ∀ request state, Inv state →
      Inv (RetirementRequest.record env bcrypt request state) :=
    fun request _ h => recorded_record env bcrypt request h
  have hrun : Inv (Runs.run (RetirementRequest.record env bcrypt) requests ([], w)) :=
    Runs.run_invariant hstep hstart requests
  exact ⟨hrun.since, fun keyword params => filtersAgree _⟩

/-- The worker retires, again in vain, is hired back, and retires again, which counts. -/
theorem retirement_recorded_sample :
    let state := Runs.run (RetirementRequest.record (Env.ofClock {} fun n => n) Crypto.plain.bcrypt)
      [.retire 1, .retire 1, .rehire 1, .retire 1, .retire 1]
      ([], (World.fresh Db.sample () : World Unit Unit))
    (∀ worker ∈ Db.sample.rows .challengedWorker, worker.retiredAt = none) ∧
      (∀ worker ∈ state.2.db.rows .challengedWorker,
        worker.retiredAt = firstRetirement state.1 worker.id) ∧
      FiltersAgree Unit Unit (fun _ _ => true) (some "worker") {} state.2.db ∧
      firstRetirement state.1 1 = some ⟨17, none⟩ := by
  have hsample : ∀ worker ∈ Db.sample.rows .challengedWorker, worker.retiredAt = none := by decide
  obtain ⟨hsince, hagree⟩ := retirement_recorded (Env.ofClock {} fun n => n) Crypto.plain.bcrypt
    (fun _ _ => true) [.retire 1, .retire 1, .rehire 1, .retire 1, .retire 1]
    (World.fresh Db.sample () : World Unit Unit) hsample
  exact ⟨hsample, hsince, hagree (some "worker") {}, by decide +kernel⟩

end Rooti
