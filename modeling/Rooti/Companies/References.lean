import Rooti.Caching.Standards
import Rooti.Employment.Assignments
import Rooti.Employment.Hiring
import Rooti.Leaves.LifeCycle
import Rooti.WorkRecords.Shifts

/-!
# Companies across references

An assignment joins a worker of a company with a standard of a company, a shift may name
a charger of a company, and a leave names a worker and a company.  Foreign keys say that
the rows exist; that the companies are the same nobody says, and no request asks.  Where
every request keeps to one company, so does the run.

## Main definitions

* `CompaniesAgree` — the companies of all references are the same
* `ReferenceRequest.Agrees` — a request keeps to one company
* `companies_agree` — every run of such requests
* `companies_disagree` — an assignment, a shift and a leave across companies

## What carries the proof

`CompaniesAgree` speaks of the rows that are found under a reference and is silent where
none is; `Linked` says in addition that one is there. The foreign keys turn the first
into the second (`linked_of_foreignKeys`), and requests keep `Linked`.

A request of these six takes no row away and changes no company of a row that is named
(`StillThere`), so references that agreed go on doing so, and only the rows that it adds
have to be looked at (`Linked.later`). The premise of a request speaks of these alone.
-/

namespace Rooti

open Relational Program

variable {V D : Type} {env : Env}

/-- The requests that write the references. -/
inductive ReferenceRequest
  | hire (companyId workerId : ℤ)
  | createStandard (req : JobStandardCreateRequest)
  | assign (companyWorkerId jobStandardId : ℤ)
  | createSchedule (req : CreateScheduleRequest)
  | batchMake (req : BatchMakeRequest)
  | createLeave (req : LeaveCreateRequest) (actorUserId : ℤ)

/-- The state after a request. -/
def ReferenceRequest.step (env : Env) (request : ReferenceRequest) (w : World V D) : World V D :=
  match request with
  | .hire companyId workerId => (serve env (WorkerService.hire companyId workerId) w).2
  | .createStandard req => (serve env (JobStandardService.create req) w).2
  | .assign companyWorkerId jobStandardId =>
      (serve env (JobWorkerService.assign companyWorkerId jobStandardId) w).2
  | .createSchedule req => (serve env (WorkScheduleService.create req) w).2
  | .batchMake req => (serve env (WorkScheduleService.batchMake req) w).2
  | .createLeave req actorUserId => (serve env (LeaveService.create req actorUserId) w).2

/-- The charger is of the company the assignment's worker works for. -/
def ChargerFits (db : Db) (jobWorkerId chargerId : ℤ) : Prop :=
  ∀ charger jw cw, db.find? .companyCharger chargerId = some charger →
    db.find? .jobWorker jobWorkerId = some jw →
    db.find? .companyWorker jw.companyWorkerId = some cw → charger.companyId = cw.companyId

/-- The worker has a row of the company. -/
def WorksFor (db : Db) (workerId companyId : ℤ) : Prop :=
  ∃ cw ∈ db.rows .companyWorker, cw.companyId = companyId ∧ cw.challengedWorkerId = workerId

/-- **The companies of all references are the same.** -/
structure CompaniesAgree (db : Db) : Prop where
  assignments : ∀ jw ∈ db.rows .jobWorker, ∀ cw standard,
    db.find? .companyWorker jw.companyWorkerId = some cw →
      db.find? .jobStandard jw.jobStandardId = some standard → cw.companyId = standard.companyId
  schedules : ∀ s ∈ db.rows .workSchedule, ∀ chargerId, s.companyChargerId = some chargerId →
    ChargerFits db s.jobWorkerId chargerId
  leaves : ∀ l ∈ db.rows .leave, WorksFor db l.workerId l.companyId

/-- **The request keeps to one company.** -/
def ReferenceRequest.Agrees (request : ReferenceRequest) (w : World V D) : Prop :=
  match request with
  | .hire .. => True
  | .createStandard _ => True
  | .assign companyWorkerId jobStandardId => ∀ cw standard,
      w.db.find? .companyWorker companyWorkerId = some cw →
        w.db.find? .jobStandard jobStandardId = some standard → cw.companyId = standard.companyId
  | .createSchedule req => ∀ chargerId, req.companyChargerId = some chargerId →
      ChargerFits w.db req.jobWorkerId chargerId
  | .batchMake req => ∀ chargerId, req.companyChargerId = some chargerId →
      ∀ jobWorkerId ∈ req.jobWorkerIds,
        (∃ jw, w.db.find? .jobWorker jobWorkerId = some jw ∧
          jw.jobStandardId = req.jobStandardId) → ChargerFits w.db jobWorkerId chargerId
  | .createLeave req _ => req.startDate.days ≤ req.endDate.days →
      w.db.find? .challengedWorker req.workerId ≠ none →
        w.db.find? .company req.companyId ≠ none → WorksFor w.db req.workerId req.companyId

/-! ## References that exist and agree -/

section References

variable {db db' : Db}

/-- The rows an assignment joins, of one company. -/
def AssignmentAgrees (db : Db) (jw : JobWorker) : Prop :=
  ∃ cw standard, db.find? .companyWorker jw.companyWorkerId = some cw ∧
    db.find? .jobStandard jw.jobStandardId = some standard ∧ cw.companyId = standard.companyId

/-- The rows a shift names, of one company. -/
def ScheduleAgrees (db : Db) (s : WorkSchedule) : Prop :=
  ∃ jw cw, db.find? .jobWorker s.jobWorkerId = some jw ∧
    db.find? .companyWorker jw.companyWorkerId = some cw ∧
    ∀ chargerId, s.companyChargerId = some chargerId → ∀ charger,
      db.find? .companyCharger chargerId = some charger → charger.companyId = cw.companyId

/-- What requests rely on: every reference exists, and the companies are the same. -/
structure Linked (db : Db) : Prop where
  assignments : ∀ jw ∈ db.rows .jobWorker, AssignmentAgrees db jw
  schedules : ∀ s ∈ db.rows .workSchedule, ScheduleAgrees db s
  leaves : ∀ l ∈ db.rows .leave, WorksFor db l.workerId l.companyId

/-- References that exist and agree, agree. -/
theorem Linked.companiesAgree (h : Linked db) : CompaniesAgree db := by
  refine ⟨fun jw hjw cw standard hcw hstandard => ?_, fun s hs chargerId hcharger => ?_, h.leaves⟩
  · obtain ⟨cw', standard', hcw', hstandard', hsame⟩ := h.assignments jw hjw
    cases hcw.symm.trans hcw'
    cases hstandard.symm.trans hstandard'
    exact hsame
  · intro charger jw cw hfound hjw hcw
    obtain ⟨jw', cw', hjw', hcw', hchargers⟩ := h.schedules s hs
    cases hjw.symm.trans hjw'
    cases hcw.symm.trans hcw'
    exact hchargers chargerId hcharger charger hfound

/-- The foreign keys provide the rows, the premise their companies. -/
theorem linked_of_foreignKeys (hkeys : db.ForeignKeys) (h : CompaniesAgree db) : Linked db := by
  have hassigned : ∀ jw ∈ db.rows .jobWorker,
      (∃ cw, db.find? .companyWorker jw.companyWorkerId = some cw) ∧
        ∃ standard, db.find? .jobStandard jw.jobStandardId = some standard := fun jw hjw =>
    ⟨Option.isSome_iff_exists.mp (hkeys .jobWorker jw hjw
        ⟨.companyWorker, jw.companyWorkerId, .cascade⟩ List.mem_cons_self),
      Option.isSome_iff_exists.mp (hkeys .jobWorker jw hjw
        ⟨.jobStandard, jw.jobStandardId, .cascade⟩ (List.mem_cons_of_mem _ List.mem_cons_self))⟩
  refine ⟨fun jw hjw => ?_, fun s hs => ?_, h.leaves⟩
  · obtain ⟨⟨cw, hcw⟩, standard, hstandard⟩ := hassigned jw hjw
    exact ⟨cw, standard, hcw, hstandard, h.assignments jw hjw cw standard hcw hstandard⟩
  · obtain ⟨jw, hjw⟩ := Option.isSome_iff_exists.mp (hkeys .workSchedule s hs
      ⟨.jobWorker, s.jobWorkerId, .cascade⟩ List.mem_cons_self)
    obtain ⟨⟨cw, hcw⟩, -⟩ := hassigned jw (Table.find?_mem hjw)
    exact ⟨jw, cw, hjw, hcw, fun chargerId hcharger charger hfound =>
      h.schedules s hs chargerId hcharger charger jw cw hfound hjw hcw⟩

/-- The rows references name are still there, and of the same company. -/
structure StillThere (db db' : Db) : Prop where
  workers : ∀ id cw, db.find? .companyWorker id = some cw → db'.find? .companyWorker id = some cw
  standards : ∀ id standard, db.find? .jobStandard id = some standard →
    db'.find? .jobStandard id = some standard
  chargers : ∀ id, db'.find? .companyCharger id = db.find? .companyCharger id
  assignments : ∀ id jw, db.find? .jobWorker id = some jw → ∃ jw',
    db'.find? .jobWorker id = some jw' ∧ jw'.companyWorkerId = jw.companyWorkerId

/-- Nothing has happened. -/
theorem StillThere.refl : StillThere db db :=
  ⟨fun _ _ h => h, fun _ _ h => h, fun _ => rfl, fun _ jw h => ⟨jw, h, rfl⟩⟩

/-- New rows take none away; new chargers would have to be looked at. -/
theorem StillThere.of_added {t : Entity} {P : Row t → Prop} (h : Added t P db db')
    (ht : t ≠ .companyCharger) : StillThere db db' :=
  ⟨fun _ _ => h.find?, fun _ _ => h.find?, h.find?_of_ne ht.symm,
    fun _ jw hjw => ⟨jw, h.find? hjw, rfl⟩⟩

/-- An assignment that begins again joins the rows it joined. -/
theorem StillThere.of_reactivated {id : ℤ}
    (h : Changed .jobWorker id (fun jw => { jw with useFlag := true }) db db') :
    StillThere db db' := by
  refine ⟨fun k _ hk => ?_, fun k _ hk => ?_, h.find?_of_ne (by decide), fun k jw hjw => ?_⟩
  · exact (h.find?_of_ne (by decide) k).trans hk
  · exact (h.find?_of_ne (by decide) k).trans hk
  · have hafter := h.find? (fun _ => rfl) k
    rw [hjw, Option.map_some] at hafter
    refine ⟨_, hafter, ?_⟩
    split <;> rfl

/-- An assignment goes on joining rows of one company. -/
theorem AssignmentAgrees.mono {jw : JobWorker} (h : AssignmentAgrees db jw)
    (hstill : StillThere db db') : AssignmentAgrees db' jw := by
  obtain ⟨cw, standard, hcw, hstandard, hsame⟩ := h
  exact ⟨cw, standard, hstill.workers _ _ hcw, hstill.standards _ _ hstandard, hsame⟩

/-- A shift goes on naming a charger of its company. -/
theorem ScheduleAgrees.mono {s : WorkSchedule} (h : ScheduleAgrees db s)
    (hstill : StillThere db db') : ScheduleAgrees db' s := by
  obtain ⟨jw, cw, hjw, hcw, hchargers⟩ := h
  obtain ⟨jw', hjw', hsame⟩ := hstill.assignments _ _ hjw
  refine ⟨jw', cw, hjw', ?_, fun chargerId hcharger => ?_⟩
  · rw [hsame]
    exact hstill.workers _ _ hcw
  · rw [hstill.chargers]
    exact hchargers chargerId hcharger

/-- A worker goes on working for a company. -/
theorem WorksFor.mono {workerId companyId : ℤ} (h : WorksFor db workerId companyId)
    (hstill : StillThere db db') : WorksFor db' workerId companyId := by
  obtain ⟨cw, hcw, hpair⟩ := h
  have hfound : db.find? .companyWorker cw.id = some cw := Table.find?_eq_some.mpr ⟨hcw, rfl⟩
  exact ⟨cw, Table.find?_mem (hstill.workers _ _ hfound), hpair⟩

/-- References that were there agree as before; new ones have to. -/
theorem Linked.later (h : Linked db) (hstill : StillThere db db')
    (hassignments : ∀ jw ∈ db'.rows .jobWorker, jw ∈ db.rows .jobWorker ∨ AssignmentAgrees db' jw)
    (hschedules : ∀ s ∈ db'.rows .workSchedule, s ∈ db.rows .workSchedule ∨ ScheduleAgrees db' s)
    (hleaves : ∀ l ∈ db'.rows .leave, l ∈ db.rows .leave ∨ WorksFor db' l.workerId l.companyId) :
    Linked db' :=
  ⟨fun jw hjw => (hassignments jw hjw).elim (fun hold => (h.assignments jw hold).mono hstill) id,
    fun s hs => (hschedules s hs).elim (fun hold => (h.schedules s hold).mono hstill) id,
    fun l hl => (hleaves l hl).elim (fun hold => (h.leaves l hold).mono hstill) id⟩

/-- Rows of another table change nothing. -/
theorem Linked.add {t : Entity} {P : Row t → Prop} (h : Linked db) (hadded : Added t P db db')
    (ht : t ∉ [Entity.companyCharger, .jobWorker, .workSchedule, .leave]) : Linked db' := by
  simp only [List.mem_cons, List.not_mem_nil, or_false, not_or] at ht
  obtain ⟨hcharger, hassignment, hschedule, hleave⟩ := ht
  refine h.later (.of_added hadded hcharger) ?_ ?_ ?_
  · exact hadded.rows_of_ne (Ne.symm hassignment) ▸ fun _ => .inl
  · exact hadded.rows_of_ne (Ne.symm hschedule) ▸ fun _ => .inl
  · exact hadded.rows_of_ne (Ne.symm hleave) ▸ fun _ => .inl

end References

/-! ## Requests -/

section Requests

variable {w : World V D}

/-- The rows of a new standard change no reference. -/
theorem linked_creates {k : ℤ} {ds : List Statement} (hds : ∀ d ∈ ds, CreatesOnly k d)
    {db db' : Db} (happly : Dml.applyAll ds db = .ok db') (h : Linked db) : Linked db' := by
  induction ds generalizing db with
  | nil =>
      cases happly
      exact h
  | cons d ds ih =>
      rw [List.forall_mem_cons] at hds
      obtain ⟨db₁, hd, hrest⟩ := Dml.applyAll_cons_eq_ok.mp happly
      refine ih hds.2 hrest ?_
      obtain ⟨row, rfl, -⟩ | ⟨row, rfl, -⟩ := hds.1
      · exact h.add (.of_insert (P := fun _ => True) hd trivial) (by decide)
      · exact h.add (.of_insert (P := fun _ => True) hd trivial) (by decide)

/-- A new standard and its processes. -/
theorem linked_createStandard (req : JobStandardCreateRequest) (h : Linked w.db) :
    Linked (ReferenceRequest.step env (.createStandard req) w).db := by
  obtain hsame | ⟨a, s, w', hrun, -, ds, hperm, happly⟩ :=
    serve_drops_cases env (create_drops req)
  · rw [ReferenceRequest.step, hsame]
    exact h
  · exact linked_creates (fun d hd => (run_create_eq_ok req hrun).1 d (hperm.subset hd)) happly h

/-- An assignment within a company. -/
theorem linked_assign (companyWorkerId jobStandardId : ℤ) (h : Linked w.db)
    (hagrees : ReferenceRequest.Agrees (.assign companyWorkerId jobStandardId) w) :
    Linked (ReferenceRequest.step env (.assign companyWorkerId jobStandardId) w).db := by
  by_cases hro : env.settings.appReadOnly = true
  · rw [ReferenceRequest.step, db_of_readOnly hro]
    exact h
  obtain ⟨-, hsame⟩ | hresult :=
    serve_assign env companyWorkerId jobStandardId w (Bool.eq_false_of_not_eq_true hro)
  · rw [ReferenceRequest.step, hsame]
    exact h
  cases hresult with
  | added new hnone hinsert =>
      have hadded := Added.of_insert
        (P := fun jw => jw = JobWorkerService.newAssignment companyWorkerId jobStandardId new)
        hinsert rfl
      have hstill := StillThere.of_added hadded (by decide)
      obtain ⟨cw, hcw⟩ := Database.refsMet_iff.mp (Dml.insert_ok hinsert).2.1
        ⟨.companyWorker, companyWorkerId, .cascade⟩ List.mem_cons_self
      obtain ⟨standard, hstandard⟩ := Database.refsMet_iff.mp (Dml.insert_ok hinsert).2.1
        ⟨.jobStandard, jobStandardId, .cascade⟩ (List.mem_cons_of_mem _ List.mem_cons_self)
      refine h.later hstill (fun jw hjw => (hadded.of_mem hjw).imp_right ?_) ?_ ?_
      · rintro rfl
        exact ⟨cw, standard, hstill.workers _ _ hcw, hstill.standards _ _ hstandard,
          hagrees cw standard hcw hstandard⟩
      · exact hadded.rows_of_ne (j := .workSchedule) (by decide) ▸ fun _ => .inl
      · exact hadded.rows_of_ne (j := .leave) (by decide) ▸ fun _ => .inl
  | reactivated jw hone hinactive hchanged =>
      have hstill := StillThere.of_reactivated hchanged
      refine h.later hstill (fun x hx => ?_) ?_ ?_
      · obtain ⟨old, hold, ⟨-, rfl⟩ | ⟨-, rfl⟩⟩ := hchanged.of_mem hx
        · exact .inr ((h.assignments old hold).mono hstill)
        · exact .inl hold
      · exact hchanged.rows_of_ne (j := .workSchedule) (by decide) ▸ fun _ => .inl
      · exact hchanged.rows_of_ne (j := .leave) (by decide) ▸ fun _ => .inl

/-- Shifts whose charger is of the company. -/
theorem Linked.add_schedules {db db' : Db} {P : WorkSchedule → Prop} (h : Linked db)
    (hadded : Added .workSchedule P db db') (hP : ∀ s, P s →
      (∃ jw, db.find? .jobWorker s.jobWorkerId = some jw) ∧
        ∀ chargerId, s.companyChargerId = some chargerId →
          ChargerFits db s.jobWorkerId chargerId) : Linked db' := by
  have hstill := StillThere.of_added hadded (by decide)
  refine h.later hstill ?_ (fun s hs => (hadded.of_mem hs).imp_right fun hnew => ?_) ?_
  · exact hadded.rows_of_ne (j := .jobWorker) (by decide) ▸ fun _ => .inl
  · obtain ⟨⟨jw, hjw⟩, hfits⟩ := hP s hnew
    obtain ⟨cw, -, hcw, -, -⟩ := h.assignments jw (Table.find?_mem hjw)
    refine ScheduleAgrees.mono ⟨jw, cw, hjw, hcw, fun chargerId hcharger charger hfound => ?_⟩ hstill
    exact hfits chargerId hcharger charger jw cw hfound hjw hcw
  · exact hadded.rows_of_ne (j := .leave) (by decide) ▸ fun _ => .inl

/-- **A request that keeps to one company keeps the references so.** -/
theorem linked_step (request : ReferenceRequest) (w : World V D) (hagrees : request.Agrees w)
    (h : Linked w.db) : Linked (request.step env w).db := by
  cases request with
  | hire companyId workerId =>
      obtain ⟨-, hsame⟩ | ⟨-, new, hinsert⟩ := serve_hire env companyId workerId w
      · rw [ReferenceRequest.step, hsame]
        exact h
      · exact h.add (.of_insert (P := fun _ => True) hinsert trivial) (by decide)
  | createStandard req => exact linked_createStandard req h
  | assign companyWorkerId jobStandardId =>
      exact linked_assign companyWorkerId jobStandardId h hagrees
  | createSchedule req =>
      obtain hsame | ⟨jw, new, hjw, hinsert⟩ := serve_createSchedule env w req
      · rw [ReferenceRequest.step, hsame]
        exact h
      · refine h.add_schedules (.of_insert (P := fun s => s = req.row jw new) hinsert rfl) ?_
        rintro s rfl
        exact ⟨⟨jw, hjw⟩, hagrees⟩
  | batchMake req =>
      refine h.add_schedules (serve_batchMake env w req) ?_
      rintro s ⟨jobWorkerId, hid, jw, new, hjw, hstandard, rfl⟩
      exact ⟨⟨jw, hjw⟩, fun chargerId hcharger =>
        hagrees chargerId hcharger jobWorkerId hid ⟨jw, hjw, hstandard⟩⟩
  | createLeave req actorUserId =>
      obtain hsame | ⟨hdates, hworker, hcompany, new, hinsert⟩ :=
        serve_createLeave env w req actorUserId
      · rw [ReferenceRequest.step, hsame]
        exact h
      · have hadded := Added.of_insert (P := fun l => l = req.row actorUserId new) hinsert rfl
        have hstill := StillThere.of_added hadded (by decide)
        refine h.later hstill ?_ ?_ fun l hl => (hadded.of_mem hl).imp_right ?_
        · exact hadded.rows_of_ne (j := .jobWorker) (by decide) ▸ fun _ => .inl
        · exact hadded.rows_of_ne (j := .workSchedule) (by decide) ▸ fun _ => .inl
        · rintro rfl
          exact (hagrees hdates hworker hcompany).mono hstill

end Requests

/-- **Companies of references**: in every run whose requests keep to one company each,
the companies of all references are the same in every state.

The foreign keys are needed at the start only, and only for what a lookup under a
reference would not see: a row whose counterpart is missing could get one of another
company. -/
theorem companies_agree {w₀ w : World V D} (hkeys : w₀.db.ForeignKeys)
    (hstart : CompaniesAgree w₀.db) {requests before after : List ReferenceRequest}
    (hagrees : Runs.Guarded (ReferenceRequest.step env) ReferenceRequest.Agrees requests w₀)
    (hsplit : requests = before ++ after)
    (hw : w = Runs.run (ReferenceRequest.step env) before w₀) : CompaniesAgree w.db := by
  rw [hsplit] at hagrees
  rw [hw]
  exact (Runs.Guarded.invariant (I := fun w : World V D => Linked w.db) linked_step
    (linked_of_foreignKeys hkeys hstart) hagrees.of_append.1).companiesAgree

/-- The worker's leave, recorded by the administrator. -/
def sampleLeave (companyId : ℤ) : ReferenceRequest :=
  .createLeave { workerId := 1, companyId, type := .annual, startDate := ⟨0⟩, endDate := ⟨1⟩ } 2

/-- A shift of the assignment with a charger. -/
def sampleSchedule (chargerId : ℤ) : ReferenceRequest :=
  .createSchedule { jobWorkerId := 1, companyChargerId := some chargerId, startAt := ⟨0, none⟩ }

/-- The sample installation and a second company, with a charger and a standard. -/
def Db.neighbours : Db := Db.ofStatements
  [.insert .company ⟨1, "Workshop", none, true, none, none, none, none, none⟩,
    .insert .company ⟨2, "Neighbour", none, true, none, none, none, none, none⟩,
    .insert .user ⟨1, "worker", none, "", "Worker", none, .worker, true, none⟩,
    .insert .user ⟨2, "charger", none, "", "Charger", none, .charger, true, none⟩,
    .insert .user ⟨3, "neighbour", none, "", "Neighbour", none, .charger, true, none⟩,
    .insert .challengedWorker ⟨1, 1, none, none⟩,
    .insert .companyWorker ⟨1, 1, 1, true⟩,
    .insert .companyCharger ⟨1, 2, 1, true⟩,
    .insert .companyCharger ⟨2, 3, 2, true⟩,
    .insert .jobStandard ⟨1, 1, "Packing", true, none, 8, 1, none, none, none, true⟩,
    .insert .jobStandard ⟨2, 2, "Sewing", true, none, 8, 1, none, none, none, true⟩,
    .insert .jobWorker ⟨1, 1, 1, true⟩]

/-- Two companies that keep to themselves. -/
theorem companiesAgree_neighbours : CompaniesAgree Db.neighbours := by
  have hassignments : Db.neighbours.rows .jobWorker = [⟨1, 1, 1, true⟩] := by decide +kernel
  have hschedules : Db.neighbours.rows .workSchedule = [] := by decide +kernel
  have hleaves : Db.neighbours.rows .leave = [] := by decide +kernel
  refine ⟨fun jw hjw cw standard hcw hstandard => ?_, fun s hs => ?_, fun l hl => ?_⟩
  · rw [hassignments, List.mem_singleton] at hjw
    subst hjw
    have hcw' : Db.neighbours.find? .companyWorker 1 = some ⟨1, 1, 1, true⟩ := by decide +kernel
    have hstandard' : Db.neighbours.find? .jobStandard 1 =
        some ⟨1, 1, "Packing", true, none, 8, 1, none, none, none, true⟩ := by decide +kernel
    cases hcw.symm.trans hcw'
    cases hstandard.symm.trans hstandard'
    rfl
  · rw [hschedules] at hs
    cases hs
  · rw [hleaves] at hl
    cases hl

/-- A shift with the worker's charger and a leave from the worker's company. -/
theorem companies_agree_sample :
    CompaniesAgree (Runs.run (ReferenceRequest.step still) [sampleSchedule 1, sampleLeave 1]
      (World.fresh Db.neighbours () : World Unit Unit)).db := by
  have hkeys : Db.neighbours.ForeignKeys := by
    intro t
    cases t <;> decide +kernel
  have hagrees : Runs.Guarded (ReferenceRequest.step still) ReferenceRequest.Agrees
      [sampleSchedule 1, sampleLeave 1] (World.fresh Db.neighbours () : World Unit Unit) := by
    refine ⟨fun chargerId hcharger charger jw cw hfound hjw hcw => ?_, fun _ _ _ => ?_, trivial⟩
    · cases hcharger
      have hfound' : Db.neighbours.find? .companyCharger 1 = some ⟨1, 2, 1, true⟩ := by
        decide +kernel
      have hjw' : Db.neighbours.find? .jobWorker 1 = some ⟨1, 1, 1, true⟩ := by decide +kernel
      have hcw' : Db.neighbours.find? .companyWorker 1 = some ⟨1, 1, 1, true⟩ := by decide +kernel
      cases hfound.symm.trans hfound'
      cases hjw.symm.trans hjw'
      cases hcw.symm.trans hcw'
      rfl
    · exact ⟨⟨1, 1, 1, true⟩, by decide +kernel, rfl, rfl⟩
  exact companies_agree hkeys companiesAgree_neighbours hagrees (List.append_nil _).symm rfl

/-- **References across companies**: a worker of one company is assigned to a standard of
the other, a shift is given the other's charger, and a leave is recorded for a company
the worker has never worked for. -/
theorem companies_disagree :
    ¬CompaniesAgree (Runs.run (ReferenceRequest.step still) [.assign 1 2]
        (World.fresh Db.neighbours () : World Unit Unit)).db ∧
      ¬CompaniesAgree (Runs.run (ReferenceRequest.step still) [sampleSchedule 2]
        (World.fresh Db.neighbours () : World Unit Unit)).db ∧
      ¬CompaniesAgree (Runs.run (ReferenceRequest.step still) [sampleLeave 2]
        (World.fresh Db.neighbours () : World Unit Unit)).db := by
  refine ⟨fun h => ?_, fun h => ?_, fun h => ?_⟩
  · have hsame := h.assignments ⟨2, 1, 2, true⟩ (by decide +kernel) ⟨1, 1, 1, true⟩
      ⟨2, 2, "Sewing", true, none, 8, 1, none, none, none, true⟩ (by decide +kernel)
      (by decide +kernel)
    revert hsame
    decide
  · have hsame := h.schedules ⟨1, 1, some 2, 1, ⟨0, none⟩, none, none, false⟩ (by decide +kernel) 2
      rfl ⟨2, 3, 2, true⟩ ⟨1, 1, 1, true⟩ ⟨1, 1, 1, true⟩ (by decide +kernel) (by decide +kernel)
      (by decide +kernel)
    revert hsame
    decide
  · obtain ⟨cw, hcw, hcompany, -⟩ := h.leaves
      ⟨1, 1, 2, .annual, ⟨0⟩, ⟨1⟩, 2, .pending, none, some 2, ⟨0, none⟩⟩ (by decide +kernel)
    have hrows : (Runs.run (ReferenceRequest.step still) [sampleLeave 2]
        (World.fresh Db.neighbours () : World Unit Unit)).db.rows .companyWorker =
          [⟨1, 1, 1, true⟩] := by decide +kernel
    rw [hrows, List.mem_singleton] at hcw
    subst hcw
    revert hcompany
    decide

end Rooti
