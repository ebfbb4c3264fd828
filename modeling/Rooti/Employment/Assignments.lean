import Rooti.Core.Holding
import Rooti.Core.Numbering
import Rooti.Lib.Runs
import Rooti.Services.Job

/-!
# The life of an assignment

A worker of a company is assigned to a standard, taken off it, and assigned again.
Work schedules name the row of an assignment, so a pair keeps its row: the first
`assign` adds it, `unassign` makes it inactive, and a later `assign` makes it active
again under the same id.

## Main definitions

* `AssignmentRequest` — the requests
* `assignments`, `Assigned` — the rows of a pair
* `AssignmentLife` — what a state allows a pair
* `assignment_life` — every state that requests lead to allows it

## What carries the proof

`AssignmentLife` speaks of one state and the next `assign` in it. That a pair has at
most one row the UNIQUE columns give for free; whether the `assign` is answered, and
which row it leaves, is read off the run of the script, with a row of the pair or
without one. An `assign` that adds a row needs a fresh id, and this is what the
invariant of the run is for (`FollowsAssignments`): ids are those that were drawn, and
workers and standards are those of the start.

Listings show active rows only, joined with their standards. A standard is never
deleted, so the join loses none (`HasStandards`).
-/

namespace Rooti

open Relational Program JobWorkerService

variable {V D : Type}

/-- The requests on assignments. -/
inductive AssignmentRequest
  | assign (companyWorkerId jobStandardId : ℤ)
  | unassign (jobWorkerId : ℤ)

/-- The state after a request. -/
def AssignmentRequest.step (env : Env) : AssignmentRequest → World V D → World V D
  | .assign companyWorkerId jobStandardId, w =>
      (serve env (JobWorkerService.assign companyWorkerId jobStandardId) w).2
  | .unassign jobWorkerId, w => (serve env (JobWorkerService.unassign jobWorkerId) w).2

/-- The rows of a worker of a company and a standard. -/
def assignments (db : Db) (companyWorkerId jobStandardId : ℤ) : List JobWorker :=
  (db.rows .jobWorker).filter fun jw =>
    jw.companyWorkerId = companyWorkerId ∧ jw.jobStandardId = jobStandardId

/-- The pair has an active row. -/
def Assigned (db : Db) (companyWorkerId jobStandardId : ℤ) : Prop :=
  ∃ jw ∈ assignments db companyWorkerId jobStandardId, jw.useFlag = true

/-- **What a state allows a pair.** -/
structure AssignmentLife (env : Env) (w : World V D) (companyWorkerId jobStandardId : ℤ) :
    Prop where
  /-- at most one row -/
  unique : (assignments w.db companyWorkerId jobStandardId).length ≤ 1
  answered : (∃ a, (serve env (assign companyWorkerId jobStandardId) w).1 = .ok a) ↔
    ¬Assigned w.db companyWorkerId jobStandardId
  /-- one active row, of the same id as before -/
  kept : (∃ a, (serve env (assign companyWorkerId jobStandardId) w).1 = .ok a) →
    ∃ jw, assignments (serve env (assign companyWorkerId jobStandardId) w).2.db companyWorkerId
        jobStandardId = [jw] ∧ jw.useFlag = true ∧
      ∀ old ∈ assignments w.db companyWorkerId jobStandardId, old.id = jw.id

section Pair

variable (companyWorkerId jobStandardId : ℤ) {db db' : Db} {jw jw' : JobWorker}

/-- The rows of a pair, as a condition on one row. -/
theorem mem_assignments : jw ∈ assignments db companyWorkerId jobStandardId ↔
    jw ∈ db.rows .jobWorker ∧ jw.companyWorkerId = companyWorkerId ∧
      jw.jobStandardId = jobStandardId := by
  rw [assignments, List.mem_filter, decide_eq_true_eq]

/-- A pair has one row, if any. -/
theorem assignments_eq (db : Db) :
    ∃ found : Option JobWorker, assignments db companyWorkerId jobStandardId = found.toList := by
  refine (db.table .jobWorker).exists_filter_eq fun jw hjw jw' hjw' hpair hpair' => ?_
  obtain ⟨hc, hs⟩ := of_decide_eq_true hpair
  obtain ⟨hc', hs'⟩ := of_decide_eq_true hpair'
  exact Table.eq_of_clash hjw hjw' (decide_eq_true ⟨hc.trans hc'.symm, hs.trans hs'.symm⟩)

/-- The pair's one row becomes active again. -/
theorem assignments_changed {f : JobWorker → JobWorker}
    (hf : ∀ jw, (f jw).companyWorkerId = jw.companyWorkerId ∧
      (f jw).jobStandardId = jw.jobStandardId)
    (hone : assignments db companyWorkerId jobStandardId = [jw])
    (hchanged : Changed .jobWorker jw.id f db db') :
    assignments db' companyWorkerId jobStandardId = [f jw] := by
  have hpair : (fun x : JobWorker => decide (x.companyWorkerId = companyWorkerId ∧
      x.jobStandardId = jobStandardId)) ∘ (fun r => if keyOf .jobWorker r = jw.id then f r else r) =
      fun x : JobWorker => decide (x.companyWorkerId = companyWorkerId ∧
        x.jobStandardId = jobStandardId) := by
    funext x
    simp only [Function.comp_apply]
    by_cases hid : keyOf .jobWorker x = jw.id
    · rw [if_pos hid, (hf x).1, (hf x).2]
    · rw [if_neg hid]
  rw [assignments, hchanged.rows, List.filter_map, hpair]
  rw [assignments] at hone
  rw [hone, List.map_singleton]
  exact congrArg (fun x => [x]) (if_pos rfl)

end Pair

section Requests

variable (env : Env) (companyWorkerId jobStandardId : ℤ) (w : World V D)

/-- What an `assign` leaves: the pair's new row, or its old one, active again. -/
inductive AssignResult (db db' : Db) : Prop
  | added (new : NewRow) (hnone : assignments db companyWorkerId jobStandardId = [])
      (happly : (Dml.insert .jobWorker (newAssignment companyWorkerId jobStandardId new) :
        Statement).apply db = .ok db')
  | reactivated (jw : JobWorker) (hone : assignments db companyWorkerId jobStandardId = [jw])
      (hinactive : jw.useFlag = false)
      (hchanged : Changed .jobWorker jw.id (fun jw => { jw with useFlag := true }) db db')

/-- **What an `assign` does.** -/
theorem serve_assign (hro : env.settings.appReadOnly = false) :
    ((∃ e, (serve env (assign companyWorkerId jobStandardId) w).1 = .error e) ∧
        (serve env (assign companyWorkerId jobStandardId) w).2.db = w.db) ∨
      AssignResult companyWorkerId jobStandardId w.db
        (serve env (assign companyWorkerId jobStandardId) w).2.db := by
  have hscript : (server env).Ensures (Holds w w.db []) (assign companyWorkerId jobStandardId)
      (fun _ s w' => ∃ d ps, (∀ db', Dml.applyAll (Session.flushOrder ps) d = .ok db' →
        AssignResult companyWorkerId jobStandardId w.db db') ∧ Holds w d ps s w')
      (Uncommitted w) := by
    refine holds_dbGet.bind fun _ => .of_and fun _ => holds_orRaise.bind fun worker => .of_and ?_
    rintro -
    refine holds_dbGet.bind fun found => .of_and ?_
    rintro rfl
    refine holds_orRaise.bind fun standard => .of_and fun hstandard => ?_
    have hid : standard.id = jobStandardId := Table.find?_key hstandard
    refine holds_query.bind fun rows => .of_and ?_
    rintro ⟨-, o, rfl⟩
    refine holds_scalarOneOrNone.bind fun existing => .of_and fun hrows => ?_
    have hperm := o.perm (assignments w.db companyWorkerId jobStandardId)
    change o.scan (assignments w.db companyWorkerId jobStandardId) = existing.toList at hrows
    rw [hrows] at hperm
    cases existing with
    | none =>
        have hnone := List.nil_perm.mp hperm
        refine holds_insert fun new d hd => .ret fun _ _ h => ⟨d, [], ?_, h⟩
        intro db' hdb'
        cases hdb'
        rw [hid] at hd
        exact .added new hnone hd
    | some jw =>
        have hone := List.singleton_perm.mp hperm
        refine holds_raiseIf.bind fun _ => .of_and fun hinactive => ?_
        refine holds_modify.bind fun _ => .of_exists fun now => .ret fun _ _ h => ?_
        refine ⟨w.db, _, fun db' hdb' => .reactivated jw hone.symm hinactive ?_, h⟩
        have hmem : jw ∈ assignments w.db companyWorkerId jobStandardId :=
          hone ▸ List.mem_singleton_self jw
        exact changed_of_applyAll ((mem_assignments _ _).mp hmem).1 (fun _ => rfl) hdb'
  obtain hrefused | ⟨a, d, ps, -, hresult, ⟨hro', -⟩ | ⟨-, happly⟩⟩ := serve_holds hscript
  · exact .inl hrefused
  · cases hro.symm.trans hro'
  · exact .inr (hresult _ happly)

/-- **What an `unassign` does**: it is refused, or the row is inactive. -/
theorem serve_unassign (jobWorkerId : ℤ) :
    (serve env (unassign jobWorkerId) w).2.db = w.db ∨
      Changed .jobWorker jobWorkerId (fun jw => { jw with useFlag := false }) w.db
        (serve env (unassign jobWorkerId) w).2.db := by
  have hscript : (server env).Ensures (Holds w w.db []) (unassign jobWorkerId)
      (fun _ s w' => ∃ jw now, w.db.find? .jobWorker jobWorkerId = some jw ∧
        Holds w w.db (changes .jobWorker jw (fun jw => { jw with useFlag := false }) now) s w')
      (Uncommitted w) := by
    refine holds_dbGet.bind fun found => .of_and ?_
    rintro rfl
    refine holds_orRaise.bind fun jw => .of_and fun hfound => ?_
    exact holds_modify.weaken (fun _ _ h => h) (fun _ _ _ ⟨now, h⟩ => ⟨jw, now, hfound, h⟩)
      fun _ _ h => h
  obtain ⟨-, hsame⟩ | ⟨-, -, ⟨-, hsame⟩ | hchanged⟩ := serve_changes (fun _ _ => rfl) hscript
  · exact .inl hsame
  · exact .inl hsame
  · exact .inr hchanged

variable {env companyWorkerId jobStandardId w}

/-- An `assign` that changes the pair was not refused, and the pair had no active row. -/
theorem AssignResult.not_assigned {db db' : Db}
    (h : AssignResult companyWorkerId jobStandardId db db') :
    ¬Assigned db companyWorkerId jobStandardId := by
  rintro ⟨jw, hjw, hactive⟩
  cases h with
  | added new hnone happly =>
      rw [hnone] at hjw
      cases hjw
  | reactivated jw' hone hinactive hchanged =>
      rw [hone, List.mem_singleton] at hjw
      subst hjw
      exact Bool.false_ne_true (hinactive.symm.trans hactive)

/-- The pair's one active row afterwards. -/
theorem AssignResult.row {db db' : Db} (h : AssignResult companyWorkerId jobStandardId db db') :
    ∃ jw, assignments db' companyWorkerId jobStandardId = [jw] ∧ jw.useFlag = true ∧
      ∀ old ∈ assignments db companyWorkerId jobStandardId, old.id = jw.id := by
  cases h with
  | added new hnone happly =>
      refine ⟨newAssignment companyWorkerId jobStandardId new, ?_, rfl, fun old hold => ?_⟩
      · rw [assignments] at hnone ⊢
        rw [(Dml.insert_ok happly).1, List.filter_append, hnone]
        simp [newAssignment]
      · rw [hnone] at hold
        cases hold
  | reactivated jw hone hinactive hchanged =>
      refine ⟨{ jw with useFlag := true }, ?_, rfl, fun old hold => ?_⟩
      · exact assignments_changed (f := fun jw => { jw with useFlag := true }) _ _
          (fun _ => ⟨rfl, rfl⟩) hone hchanged
      · rw [hone, List.mem_singleton] at hold
        rw [hold]

variable (env) in
/-- **An `assign` up to its change**: the three queries before it find the pair's row. -/
theorem run_assign {worker : CompanyWorker} {standard : JobStandard} {existing : Option JobWorker}
    (hworker : w.db.find? .companyWorker companyWorkerId = some worker)
    (hstandard : w.db.find? .jobStandard jobStandardId = some standard)
    (hrows : assignments w.db companyWorkerId jobStandardId = existing.toList) :
    (server env).run (assign companyWorkerId jobStandardId) {} w =
      (server env).run (match existing with
        | some existing => reassign standard existing
        | none => assignNew companyWorkerId standard) {} w.tick.tick.tick := by
  have hc := bigint_of_find? hworker
  have hs := bigint_of_find? hstandard
  have hscan : (env.rowOrder (w.ticks + 2)).scan
      ((w.db.rows .jobWorker).filter fun jw =>
        jw.companyWorkerId = companyWorkerId ∧ jw.jobStandardId = jobStandardId) =
      existing.toList := by
    change (env.rowOrder (w.ticks + 2)).scan (assignments w.db companyWorkerId jobStandardId) = _
    rw [hrows]
    exact RowOrder.scan_toList _ existing
  rw [assign, Prog.bind_eq, run_dbGet_found env w hworker, Prog.orRaise_some, Prog.bind_eq,
    Prog.ret_bind, Prog.bind_eq, run_dbGet_found env w.tick hstandard, Prog.orRaise_some,
    Prog.bind_eq, Prog.ret_bind, Prog.bind_eq, run_select_bind_clean]
  simp only [List.all_cons, List.all_nil, Bind.fits, hc, hs, Bool.and_self, if_true,
    World.tick_db, World.tick_ticks]
  rw [show w.ticks + 1 + 1 = w.ticks + 2 from rfl, hscan]
  cases existing <;> rfl

/-- **A pair without an active row is assigned.** -/
theorem assign_answered (hro : env.settings.appReadOnly = false) (hnumbered : Numbered w)
    (hseq : bigint (w.seq .jobWorker + 1)) {worker : CompanyWorker} {standard : JobStandard}
    (hworker : w.db.find? .companyWorker companyWorkerId = some worker)
    (hstandard : w.db.find? .jobStandard jobStandardId = some standard)
    (hnot : ¬Assigned w.db companyWorkerId jobStandardId) :
    ∃ a, (serve env (assign companyWorkerId jobStandardId) w).1 = .ok a := by
  have hc := bigint_of_find? hworker
  have hs := bigint_of_find? hstandard
  have hid : standard.id = jobStandardId := Table.find?_key hstandard
  obtain ⟨existing, hrows⟩ := assignments_eq companyWorkerId jobStandardId w.db
  let w' : World V D := w.tick.tick.tick
  have hrun := run_assign env hworker hstandard hrows
  cases existing with
  | none =>
      have hnone : assignments w.db companyWorkerId jobStandardId = [] := hrows
      have hinsert : ∃ db', (Dml.insert .jobWorker
          (newAssignment companyWorkerId standard.id (env.newRow .jobWorker w')) :
            Statement).apply w.db = .ok db' := by
        rw [hid]
        refine Dml.insert_of_apart w.db (fun x hx => ⟨hnumbered.fresh hx, ?_, ?_⟩) ?_ ?_
        · exact decide_eq_false (List.filter_eq_nil_iff.mp hnone x hx <| decide_eq_true ·)
        · refine decide_eq_false fun h => ?_
          exact List.filter_eq_nil_iff.mp hnone x hx (decide_eq_true ⟨h.1.symm, h.2.symm⟩)
        · show (bigint (w.seq .jobWorker + 1) && bigint companyWorkerId &&
            bigint jobStandardId) = true
          rw [hseq, hc, hs]
          rfl
        · refine Database.refsMet_iff.mpr fun ref href => ?_
          simp only [schema, refs, List.mem_cons, List.not_mem_nil, or_false] at href
          obtain rfl | rfl := href
          · exact ⟨worker, hworker⟩
          · exact ⟨standard, hstandard⟩
      obtain ⟨db', hdb'⟩ := hinsert
      exact ⟨_, (serve_of_insert hro hrun hdb').1⟩
  | some jw =>
      have hone : assignments w.db companyWorkerId jobStandardId = [jw] := hrows
      have hmem : jw ∈ assignments w.db companyWorkerId jobStandardId :=
        hone ▸ List.mem_singleton_self jw
      have hjw := ((mem_assignments _ _).mp hmem).1
      -- the row of the pair was taken back, and is given again under its id
      have hinactive : jw.useFlag = false := by
        by_contra hactive
        exact hnot ⟨jw, hmem, Bool.eq_true_of_not_eq_false hactive⟩
      have hne : ({ jw with useFlag := true } : JobWorker) ≠ jw := by
        intro heq
        have hflag : true = jw.useFlag := congrArg JobWorker.useFlag heq
        exact Bool.false_ne_true (hinactive.symm.trans hflag.symm)
      have hupdate : ∃ db', (Dml.update .jobWorker (keyOf .jobWorker jw)
          (setUpdatedAt ⟨env.dbClock w'.ticks, none⟩ .jobWorker ∘ fun jw =>
            { jw with useFlag := true }) : Statement).apply w.db = .ok db' := by
        have hcheck := Table.check_of_mem hjw
        exact Dml.update_of_find? (Table.find?_eq_some.mpr ⟨hjw, rfl⟩) (fun _ => rfl)
          (fun _ _ => ⟨rfl, rfl⟩) hcheck rfl
      obtain ⟨db', hdb'⟩ := hupdate
      have hreassign : (server env).run (assign companyWorkerId jobStandardId) {} w =
          (server env).run (reassign standard jw) {} w' := hrun
      rw [reassign, hinactive] at hreassign
      exact ⟨_, (serve_of_modify hro hreassign hne hdb').1⟩

/-- **Every numbered state allows what it shall.** -/
theorem assignmentLife_of_numbered (hro : env.settings.appReadOnly = false)
    (hnumbered : Numbered w) (hseq : bigint (w.seq .jobWorker + 1)) {worker : CompanyWorker}
    {standard : JobStandard} (hworker : w.db.find? .companyWorker companyWorkerId = some worker)
    (hstandard : w.db.find? .jobStandard jobStandardId = some standard) :
    AssignmentLife env w companyWorkerId jobStandardId := by
  have hresult : (∃ a, (serve env (assign companyWorkerId jobStandardId) w).1 = .ok a) →
      AssignResult companyWorkerId jobStandardId w.db
        (serve env (assign companyWorkerId jobStandardId) w).2.db := by
    rintro ⟨a, ha⟩
    obtain ⟨⟨e, he⟩, -⟩ | hresult := serve_assign env companyWorkerId jobStandardId w hro
    · cases ha.symm.trans he
    · exact hresult
  refine ⟨?_, ⟨fun h => (hresult h).not_assigned,
    assign_answered hro hnumbered hseq hworker hstandard⟩, fun h => (hresult h).row⟩
  obtain ⟨found, hfound⟩ := assignments_eq companyWorkerId jobStandardId w.db
  rw [hfound]
  cases found with
  | none => exact Nat.zero_le 1
  | some jw => exact Nat.le_refl 1

end Requests

/-! ## Listings -/

section Listings

variable (env : Env) (w : World V D)

/-- The standards of all assignments exist. -/
def HasStandards (db : Db) : Prop :=
  ∀ jw ∈ db.rows .jobWorker, ∃ standard, db.find? .jobStandard jw.jobStandardId = some standard

/-- The responses of the active rows that are `ok`. -/
def activeResponses (db : Db) (ok : JobWorker → Bool) : List JobWorkerResponse :=
  ((db.rows .jobWorker).filter fun jw => ok jw && jw.useFlag).map fun jw =>
    { id := jw.id
      jobStandardId := jw.jobStandardId
      jobStandardName := (db.find? .jobStandard jw.jobStandardId).map JobStandard.name
      companyWorkerId := jw.companyWorkerId
      useFlag := jw.useFlag }

/-- The join with the standards loses no assignment. -/
theorem withStandard_filter {db : Db} (h : HasStandards db) (ok : JobWorker → Bool) :
    ((withStandard db (db.rows .jobWorker)).filter fun row => ok row.1 && row.1.useFlag).map
        (fun row => toJwResponse row.1 row.2) = activeResponses db ok := by
  unfold activeResponses withStandard
  unfold HasStandards at h
  generalize db.rows .jobWorker = rows at h ⊢
  induction rows with
  | nil => rfl
  | cons jw rest ih =>
      rw [List.forall_mem_cons] at h
      obtain ⟨⟨standard, hstandard⟩, hrest⟩ := h
      have hid : standard.id = jw.jobStandardId := Table.find?_key hstandard
      simp only [List.filterMap_cons, hstandard, Option.map_some, List.filter_cons]
      by_cases hok : (ok jw && jw.useFlag) = true
      · rw [if_pos hok, if_pos hok, List.map_cons, List.map_cons, ih hrest]
        simp only [toJwResponse, hstandard, hid, Option.map_some]
      · rw [if_neg hok, if_neg hok, ih hrest]

/-- **A listing** shows the active rows of its key, each once. -/
theorem serve_listing {key : ℤ} {column : JobWorker → ℤ} (hkey : bigint key)
    (hstandards : HasStandards w.db) :
    ∃ l, (serve env (Prog.bind (select [.int key] fun o db =>
        o.scan ((withStandard db (db.rows .jobWorker)).filter fun row =>
          column row.1 = key ∧ row.1.useFlag)) fun rows =>
            .ret (rows.map fun row => toJwResponse row.1 row.2)) w).1 = .ok l ∧
      l.Perm (activeResponses w.db fun jw => column jw = key) := by
  have hrun := run_select_bind_clean env w [.int key] (fun o db =>
    o.scan ((withStandard db (db.rows .jobWorker)).filter fun row =>
      column row.1 = key ∧ row.1.useFlag)) (fun rows =>
        (.ret (rows.map fun row => toJwResponse row.1 row.2) : Async V D (List JobWorkerResponse)))
  rw [if_pos (by simpa [Bind.fits] using hkey), Machine.run_ret] at hrun
  refine ⟨_, congrArg Prod.fst (serve_of_clean hrun), ?_⟩
  have hperm := ((env.rowOrder w.ticks).perm ((withStandard w.db (w.db.rows .jobWorker)).filter
    fun row => column row.1 = key ∧ row.1.useFlag)).map fun row => toJwResponse row.1 row.2
  refine hperm.trans (List.Perm.of_eq ?_)
  rw [← withStandard_filter hstandards]
  simp only [Bool.decide_and, Bool.decide_eq_true]

end Listings

/-! ## Runs -/

section Runs

variable {env : Env} {w₀ w : World V D}

/-- What requests on assignments leave as it was, the numbering of rows, and that every
assignment has its standard. -/
structure FollowsAssignments (w₀ w : World V D) : Prop where
  numbered : Numbered w
  others : ∀ t, t ≠ .jobWorker → w.db.table t = w₀.db.table t
  standards : HasStandards w.db

/-- `assign` changes rows by their key and deletes none. -/
theorem keyed_assign (companyWorkerId jobStandardId : ℤ) :
    Keyed (assign companyWorkerId jobStandardId : Async V D JobWorkerResponse) := by
  refine .bind .dbGet fun _ => .bind .orRaise fun _ => .bind .dbGet fun _ => .bind .orRaise
    fun _ => .bind .select fun _ => .bind .scalarOneOrNone fun existing => ?_
  cases existing with
  | none => exact .bind (.add fun _ => rfl) fun _ => .bind .flush fun _ => .ret
  | some existing => exact .bind .raiseIf fun _ => .bind (.modify fun _ => rfl) fun _ => .ret

/-- Nor does `unassign`. -/
theorem keyed_unassign (jobWorkerId : ℤ) : Keyed (unassign jobWorkerId : Async V D Unit) :=
  .bind .dbGet fun _ => .bind .orRaise fun _ => .modify fun _ => rfl

/-- Assignments that keep their standard have one. -/
theorem HasStandards.change {db db' : Db} {id : ℤ} {f : JobWorker → JobWorker}
    (h : HasStandards db) (hchanged : Changed .jobWorker id f db db')
    (hf : ∀ jw, (f jw).jobStandardId = jw.jobStandardId) : HasStandards db' := by
  intro x hx
  have hsame : db'.find? .jobStandard = db.find? .jobStandard := by
    unfold Database.find?
    rw [hchanged.others .jobStandard (by decide)]
  rw [hsame]
  obtain ⟨jw, hjw, ⟨-, rfl⟩ | ⟨-, rfl⟩⟩ := hchanged.of_mem hx
  · rw [hf]
    exact h jw hjw
  · exact h x hjw

/-- A new assignment has its standard: the foreign key has asked for it. -/
theorem HasStandards.insert {db db' : Db} {row : JobWorker} (h : HasStandards db)
    (happly : (Dml.insert .jobWorker row : Statement).apply db = .ok db') : HasStandards db' := by
  obtain ⟨hrows, hmet, hothers⟩ := Dml.insert_ok happly
  intro x hx
  have hsame : db'.find? .jobStandard = db.find? .jobStandard := by
    unfold Database.find?
    rw [hothers .jobStandard (by decide)]
  rw [hsame]
  rw [hrows, List.mem_append, List.mem_singleton] at hx
  obtain hx | rfl := hx
  · exact h x hx
  · exact Database.refsMet_iff.mp hmet ⟨.jobStandard, x.jobStandardId, .cascade⟩
      (List.mem_cons_of_mem _ List.mem_cons_self)

/-- **One request** leaves the other tables alone, numbers its row, and has found its
standard. -/
theorem followsAssignments_step (hro : env.settings.appReadOnly = false)
    (request : AssignmentRequest) (w : World V D) (h : FollowsAssignments w₀ w) :
    FollowsAssignments w₀ (request.step env w) := by
  cases request with
  | assign companyWorkerId jobStandardId =>
      have hnumbered := (keyed_assign companyWorkerId jobStandardId).serve env h.numbered
      obtain ⟨-, hsame⟩ | hresult := serve_assign env companyWorkerId jobStandardId w hro
      · exact ⟨hnumbered, fun t ht => (congrArg (fun db : Db => db.table t) hsame).trans
          (h.others t ht), hsame ▸ h.standards⟩
      · cases hresult with
        | added new hnone happly =>
            exact ⟨hnumbered, fun t ht => ((Dml.insert_ok happly).2.2 t ht).trans (h.others t ht),
              h.standards.insert happly⟩
        | reactivated jw hone hinactive hchanged =>
            exact ⟨hnumbered, fun t ht => (hchanged.others t ht).trans (h.others t ht),
              h.standards.change hchanged fun _ => rfl⟩
  | unassign jobWorkerId =>
      have hnumbered := (keyed_unassign jobWorkerId).serve env h.numbered
      obtain hsame | hchanged := serve_unassign env w jobWorkerId
      · exact ⟨hnumbered, fun t ht => (congrArg (fun db : Db => db.table t) hsame).trans
          (h.others t ht), hsame ▸ h.standards⟩
      · exact ⟨hnumbered, fun t ht => (hchanged.others t ht).trans (h.others t ht),
          h.standards.change hchanged fun _ => rfl⟩

/-- An assignment ends and begins again. -/
def reassignment : List AssignmentRequest := [.unassign 1, .assign 1 1]

/-- **The life of an assignment**: in every state that requests lead to, an existing pair
has at most one row, is assigned exactly if it has no active one, and keeps its row; and
the listings show exactly the active rows of their key. -/
theorem assignment_life (hro : env.settings.appReadOnly = false)
    {requests : List AssignmentRequest} (hnumbered : Numbered w₀) (hkeys : w₀.db.ForeignKeys)
    (hw : w = Runs.run (AssignmentRequest.step env) requests w₀) :
    (∀ companyWorkerId jobStandardId, w.db.find? .companyWorker companyWorkerId ≠ none →
      w.db.find? .jobStandard jobStandardId ≠ none → bigint (w.seq .jobWorker + 1) →
        AssignmentLife env w companyWorkerId jobStandardId) ∧
    (∀ jobStandardId, bigint jobStandardId →
      ∃ l, (serve env (listByJobStandard jobStandardId) w).1 = .ok l ∧
        l.Perm (activeResponses w.db fun jw => jw.jobStandardId = jobStandardId)) ∧
    ∀ companyWorkerId, bigint companyWorkerId →
      ∃ l, (serve env (listActiveByCompanyWorker companyWorkerId) w).1 = .ok l ∧
        l.Perm (activeResponses w.db fun jw => jw.companyWorkerId = companyWorkerId) := by
  have hstandards : HasStandards w₀.db := fun jw hjw =>
    Option.isSome_iff_exists.mp (hkeys .jobWorker jw hjw
      ⟨.jobStandard, jw.jobStandardId, .cascade⟩ (List.mem_cons_of_mem _ List.mem_cons_self))
  have hfollows : FollowsAssignments w₀ w := by
    rw [hw]
    exact Runs.run_invariant (followsAssignments_step hro)
      ⟨hnumbered, fun _ _ => rfl, hstandards⟩ requests
  refine ⟨fun companyWorkerId jobStandardId hworker hstandard hseq => ?_,
    fun jobStandardId hkey => serve_listing env w hkey hfollows.standards,
    fun companyWorkerId hkey => serve_listing env w hkey hfollows.standards⟩
  obtain ⟨worker, hworker⟩ := Option.ne_none_iff_exists'.mp hworker
  obtain ⟨standard, hstandard⟩ := Option.ne_none_iff_exists'.mp hstandard
  exact assignmentLife_of_numbered hro hfollows.numbered hseq hworker hstandard

/-- The worker of the sample installation is taken off the job and assigned again. -/
theorem assignment_life_sample :
    AssignmentLife still (Runs.run (AssignmentRequest.step still) reassignment
        (World.fresh Db.sample () : World Unit Unit)) 1 1 ∧
      ∃ l, (serve still (listByJobStandard 1) (Runs.run (AssignmentRequest.step still)
          reassignment (World.fresh Db.sample () : World Unit Unit))).1 = .ok l ∧
        l.Perm (activeResponses (Runs.run (AssignmentRequest.step still) reassignment
          (World.fresh Db.sample () : World Unit Unit)).db fun jw => jw.jobStandardId = 1) := by
  have hnumbered : Numbered (World.fresh Db.sample () : World Unit Unit) := by
    intro t
    cases t <;> decide +kernel
  have hkeys : Db.sample.ForeignKeys := by
    intro t
    cases t <;> decide +kernel
  obtain ⟨hlife, hlisted, -⟩ : _ ∧ _ ∧ _ :=
    assignment_life (rfl : still.settings.appReadOnly = false) hnumbered hkeys
      (rfl : _ = Runs.run (AssignmentRequest.step still) reassignment _)
  exact ⟨hlife 1 1 (by decide +kernel) (by decide +kernel) (by decide +kernel),
    hlisted 1 (by decide)⟩

end Runs

end Rooti
