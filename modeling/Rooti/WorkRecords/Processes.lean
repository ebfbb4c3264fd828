import Rooti.Core.Transactions
import Rooti.Lib.Runs
import Rooti.Services.WorkRecord

/-!
# Closing process records

`end_process` looks for the one open record of a shift and a process.
`begin_process` opens one without looking, so a repeated `begin_process` leaves
two, and from then on no `end_process` for the pair succeeds
(`process_record_stuck`).

While no `begin_process` arrives for a pair that has an open record, every pair
has at most one, and an `end_process` whose values fit their columns closes it,
or reports that there is none (`process_record_closable`).

## Main definitions

* `openProcessCount` — the open records of a shift and process
* `ProcessOp` — the requests
* `Closable` — what `end_process` does in a state
* `Fresh` — no `begin_process` for a pair with an open record

## What carries the proof

With at most one open record of a pair, the query of `end_process` is answered with none
or one, and `scalar_one_or_none` does not raise; the record it finds is closed, as the
statement sets its end (`apply_closed`). So all that runs have to keep is the number of
open records (`openProcessCount_step`): a `begin_process` adds one where there was none,
and an `end_process` sends nothing but updates that close. That an `end_process` is
answered at all needs more than this, namely that its values fit their columns, and that
the database may be written.
-/

namespace Rooti

open Relational Program

variable {V D : Type}

/-! ## Counting open process records -/

/-- A shift and a process. -/
abbrev ProcessKey := ℤ × ℤ

/-- The open process records of a shift and process. -/
def openProcessCount (db : Db) (k : ProcessKey) : ℕ :=
  (db.rows .workProcessRecord).countP (WorkProcessRecord.opens k.1 k.2)

/-- The requests on process records. -/
inductive ProcessOp
  | begin (req : ProcessStartRequest)
  | «end» (req : ProcessEndRequest)

variable (env : Env)

/-- The script of a request. -/
def ProcessOp.script : ProcessOp → Async V D ProcessRecordResponse
  | .begin req => WorkRecordService.beginProcess env req
  | .end req => WorkRecordService.endProcess env req

/-- The state after a request. -/
def ProcessOp.step (op : ProcessOp) (w : World V D) : World V D :=
  (serve env (op.script env) w).2

/-- The values of a request fit their columns. -/
def ProcessEndRequest.fits (req : ProcessEndRequest) : Bool :=
  bigint req.workScheduleId && bigint req.jobProcessId && req.at'.all timestamp &&
    req.condition.all smallint && req.answer.all text && req.voicePath.all (varchar 500) &&
    req.process.all jsonb

/-- No `begin_process` for an existing shift and process arrives while the pair
has an open record. -/
def Fresh (op : ProcessOp) (w : World V D) : Prop :=
  ∀ req, op = .begin req → w.db.find? .workSchedule req.workScheduleId ≠ none →
    w.db.find? .jobProcess req.jobProcessId ≠ none →
    openProcessCount w.db (req.workScheduleId, req.jobProcessId) = 0

/-- **The process records of a state can be closed**: no pair has two open ones,
and an `end_process` closes the open record of its pair, or reports that there
is none. -/
def Closable (w : World V D) : Prop :=
  (∀ k, openProcessCount w.db k ≤ 1) ∧
    ∀ req : ProcessEndRequest, req.fits →
      (openProcessCount w.db (req.workScheduleId, req.jobProcessId) = 1 →
        (∃ a, (serve env (WorkRecordService.endProcess env req) w).1 = .ok a) ∧
          openProcessCount (serve env (WorkRecordService.endProcess env req) w).2.db
            (req.workScheduleId, req.jobProcessId) = 0) ∧
        (openProcessCount w.db (req.workScheduleId, req.jobProcessId) = 0 →
          (serve env (WorkRecordService.endProcess env req) w).1 =
            .error (businessException .workRecordNotFound))

/-! ## Opening -/

section Open

variable {env}

variable (env) in
/-- The given time, or that of the clock. -/
theorem run_atOrNow (t : Option DateTime) (s : Session) (w : World V D) :
    ∃ a w', (server env).run (atOrNow env t) s w = (.ok a, s, w') ∧ Unchanged w w' ∧
      (t.all timestamp → timestamp a) := by
  cases t with
  | some t => exact ⟨t, w, rfl, .refl w, fun h => h⟩
  | none => exact ⟨_, w.tick, rfl, .tick (.refl w), fun _ => rfl⟩

/-- **What a successful `begin_process` records**: an open record of an existing
shift and process. -/
theorem run_beginProcess {req : ProcessStartRequest} {w w' : World V D} {s : Session}
    {a : ProcessRecordResponse}
    (h : (server env).run (WorkRecordService.beginProcess env req) {} w = (.ok a, s, w')) :
    w.db.find? .workSchedule req.workScheduleId ≠ none ∧
      w.db.find? .jobProcess req.jobProcessId ≠ none ∧
      ∃ startAt new, s.statements.Perm [.insert .workProcessRecord (req.row startAt new)] := by
  obtain ⟨_, s₁, w₁, hschedule, h⟩ := Machine.run_bind_eq_ok h
  obtain ⟨_, s₂, w₂, hget, horRaise⟩ := Machine.run_bind_eq_ok hschedule
  obtain ⟨-, rfl, rfl, rfl⟩ := run_select_clean_eq_ok hget
  obtain ⟨hfound, rfl, rfl⟩ := Machine.run_orRaise_eq_ok horRaise
  obtain ⟨_, s₃, w₃, hget, h⟩ := Machine.run_bind_eq_ok h
  obtain ⟨-, rfl, rfl, rfl⟩ := run_select_clean_eq_ok hget
  obtain ⟨jobProcess, s₄, w₄, horRaise, h⟩ := Machine.run_bind_eq_ok h
  obtain ⟨hfound', rfl, rfl⟩ := Machine.run_orRaise_eq_ok horRaise
  obtain ⟨startAt, s₅, w₅, hclock, h⟩ := Machine.run_bind_eq_ok h
  obtain ⟨startAt', w₅', hclock', -, -⟩ := run_atOrNow env req.at' {} w.tick.tick
  obtain ⟨-, rfl, -⟩ : startAt' = startAt ∧ {} = s₅ ∧ w₅' = w₅ := by
    simpa using hclock'.symm.trans hclock
  simp only [Prog.bind_eq, run_add_bind] at h
  obtain ⟨_, s₆, w₆, hflush, h⟩ := Machine.run_bind_eq_ok h
  obtain ⟨hperm, -, -⟩ := run_flush_eq_ok hflush
  obtain ⟨-, rfl, -⟩ := h
  exact ⟨by simp [hfound], by simpa using fun e => by simp [e] at hfound', startAt, _, hperm⟩

end Open

/-! ## Closing -/

section Close

variable {env}

/-- The open records of a pair are in the rows `end_process` reads. -/
theorem length_scan (o : RowOrder) (db : Db) (k : ProcessKey) :
    (o.scan ((db.rows .workProcessRecord).filter (WorkProcessRecord.opens k.1 k.2))).length =
      openProcessCount db k := by
  rw [openProcessCount, List.countP_eq_length_filter, (o.perm _).length_eq]

/-- Without an open record there is nothing to close. -/
theorem serve_endProcess_none {req : ProcessEndRequest} {w : World V D} (hfits : req.fits)
    (h : openProcessCount w.db (req.workScheduleId, req.jobProcessId) = 0) :
    (serve env (WorkRecordService.endProcess env req) w).1 =
      .error (businessException .workRecordNotFound) := by
  simp only [ProcessEndRequest.fits, Bool.and_eq_true] at hfits
  obtain ⟨⟨⟨⟨⟨⟨hschedule, hprocess⟩, -⟩, -⟩, -⟩, -⟩, -⟩ := hfits
  have hrows := (length_scan (env.rowOrder w.ticks) w.db
    (req.workScheduleId, req.jobProcessId)).trans h
  rw [serve_eq, WorkRecordService.endProcess, Prog.bind_eq, run_select_bind_clean]
  simp only [List.all_cons, List.all_nil, Bind.fits, hschedule, hprocess, Bool.and_self, if_true,
    List.length_eq_zero_iff.mp hrows]
  rfl

/-- Where a row is closed, nothing else is opened. -/
theorem openProcessCount_update {db db' : Db} {id : ℤ}
    {f : WorkProcessRecord → WorkProcessRecord}
    (hf : ∀ r (k : ProcessKey), (f r).opens k.1 k.2 = false)
    (h : (Dml.update .workProcessRecord id f).apply db = .ok db') (k : ProcessKey) :
    openProcessCount db' k ≤ openProcessCount db k := by
  rw [openProcessCount, openProcessCount, (Dml.update_ok h).2.1, List.countP_map]
  refine List.countP_mono_left fun r _ hr => ?_
  simp only [Function.comp_apply] at hr
  split at hr
  · simp [hf r k] at hr
  · exact hr

/-- What an `end_process` makes of a record is closed. -/
theorem apply_closed (req : ProcessEndRequest) (endAt now : DateTime) (r : WorkProcessRecord)
    (k : ProcessKey) :
    WorkProcessRecord.opens k.1 k.2
      ((setUpdatedAt now .workProcessRecord ∘ req.apply endAt) r) = false := by
  simp [WorkProcessRecord.opens, ProcessEndRequest.apply, setUpdatedAt]

/-- The statement an `end_process` sends succeeds. -/
theorem update_endProcess (now : DateTime) {req : ProcessEndRequest} (hfits : req.fits)
    {endAt : DateTime}
    (hend : timestamp endAt) {db : Db} {r : WorkProcessRecord}
    (hr : r ∈ db.rows .workProcessRecord) :
    ∃ db', (Dml.update .workProcessRecord (keyOf .workProcessRecord r)
      (setUpdatedAt now .workProcessRecord ∘ req.apply endAt) : Statement).apply db =
        .ok db' := by
  have hcheck := Table.check_of_mem hr
  simp only [ProcessEndRequest.fits, Bool.and_eq_true] at hfits
  obtain ⟨⟨⟨⟨⟨⟨-, -⟩, -⟩, hcondition⟩, hanswer⟩, hvoice⟩, hprocess⟩ := hfits
  refine Dml.update_of_find? (Table.find?_eq_some.mpr ⟨hr, rfl⟩) (fun _ => rfl)
    (fun _ _ => ⟨rfl, rfl⟩) ?_ rfl
  simp only [schema, shape, Bool.and_eq_true] at hcheck ⊢
  obtain ⟨⟨⟨⟨⟨⟨⟨⟨⟨⟨⟨⟨hid, hs⟩, hp⟩, htype⟩, hstart⟩, -⟩, hsc⟩, -⟩, hsa⟩, -⟩, hsv⟩, -⟩, hj⟩ := hcheck
  have hjson : (req.process.orElse fun _ => r.process).all jsonb = true := by
    cases hreq : req.process with
    | none => exact hj
    | some j => simpa [hreq] using hprocess
  exact ⟨⟨⟨⟨⟨⟨⟨⟨⟨⟨⟨⟨hid, hs⟩, hp⟩, htype⟩, hstart⟩, hend⟩, hsc⟩, hcondition⟩, hsa⟩, hanswer⟩, hsv⟩,
    hvoice⟩, hjson⟩

/-- **An open record is closed.** -/
theorem serve_endProcess_one {req : ProcessEndRequest} {w : World V D} (hfits : req.fits)
    (hro : env.settings.appReadOnly = false)
    (h : openProcessCount w.db (req.workScheduleId, req.jobProcessId) = 1) :
    (∃ a, (serve env (WorkRecordService.endProcess env req) w).1 = .ok a) ∧
      openProcessCount (serve env (WorkRecordService.endProcess env req) w).2.db
        (req.workScheduleId, req.jobProcessId) = 0 := by
  have hfits' := hfits
  simp only [ProcessEndRequest.fits, Bool.and_eq_true] at hfits'
  obtain ⟨⟨⟨⟨⟨⟨hschedule, hprocess⟩, hat⟩, -⟩, -⟩, -⟩, -⟩ := hfits'
  -- the one open record of the pair
  obtain ⟨r, hrows⟩ := List.length_eq_one_iff.mp ((length_scan (env.rowOrder w.ticks) w.db
    (req.workScheduleId, req.jobProcessId)).trans h)
  have hfilter : ∀ x, x ∈ (w.db.rows .workProcessRecord).filter
      (WorkProcessRecord.opens req.workScheduleId req.jobProcessId) ↔ x = r := fun x => by
    rw [← RowOrder.mem_scan (env.rowOrder w.ticks), hrows, List.mem_singleton]
  obtain ⟨hr, hopen⟩ := List.mem_filter.mp ((hfilter r).mpr rfl)
  obtain ⟨endAt, w₁, hclock, hw₁, hnaive⟩ := run_atOrNow env req.at' {} w.tick
  obtain ⟨db', hdb'⟩ := update_endProcess ⟨env.dbClock w₁.ticks, none⟩ hfits
    (hnaive hat) hr
  have hnone : r.endAt = none := (of_decide_eq_true hopen).2.2
  have hne : req.apply endAt r ≠ r := fun e => by
    have hend : some endAt = r.endAt := congrArg WorkProcessRecord.endAt e
    simp [hnone] at hend
  have hid : bigint r.jobProcessId := bigint_of_ref hr (.tail _ (.head _))
  have hdb₁ : w₁.db = w.db := hw₁.db
  have hserve : ∃ a w', serve env (WorkRecordService.endProcess env req) w = (.ok a, w') ∧
      w'.db = db' := by
    rw [serve_eq, WorkRecordService.endProcess, Prog.bind_eq, run_select_bind_clean]
    simp only [List.all_cons, List.all_nil, Bind.fits, hschedule, hprocess, Bool.and_self, if_true,
      hrows, scalarOneOrNone, Prog.bind_eq, Prog.ret_bind, Prog.orRaise_some, Machine.run_bind,
      hclock]
    rw [← hdb₁] at hdb'
    have hflush := flush_single hdb'
    simp only [run_modify, hne, if_false, dbGet, select, Machine.run_lift, server_exec, exec,
      execSelect, List.nil_append, World.tick_db, hro]
    rw [hflush]
    simp only [List.all_cons, List.all_nil, Bind.fits, hid, Bool.and_self, if_true, Prog.pure_eq,
      Machine.run_ret, Bool.false_eq_true, if_false]
    rw [execCommit_single env (w := w₁.tick.tick) hdb']
    exact ⟨_, _, rfl, rfl⟩
  obtain ⟨a, w', hserve, hw'⟩ := hserve
  rw [hserve, hw']
  refine ⟨⟨a, rfl⟩, ?_⟩
  rw [openProcessCount, (Dml.update_ok hdb').2.1, List.countP_map, List.countP_eq_zero]
  intro x hx hxopen
  simp only [Function.comp_apply] at hxopen
  split at hxopen
  · have hclosed := apply_closed req endAt ⟨env.dbClock w₁.ticks, none⟩ x
      (req.workScheduleId, req.jobProcessId)
    exact Bool.false_ne_true (hclosed.symm.trans hxopen)
  · next hid' =>
      obtain rfl := (hfilter x).mp (List.mem_filter.mpr ⟨hx, hxopen⟩)
      exact hid' rfl

/-- What a successful `end_process` records: its record, closed. -/
theorem run_endProcess {req : ProcessEndRequest} {w w' : World V D} {s : Session}
    {a : ProcessRecordResponse}
    (h : (server env).run (WorkRecordService.endProcess env req) {} w = (.ok a, s, w')) :
    ∃ id endAt now, ∀ d ∈ s.statements, d = .update .workProcessRecord id
      (setUpdatedAt now .workProcessRecord ∘ req.apply endAt) := by
  obtain ⟨_, s₁, w₁, hget, h⟩ := Machine.run_bind_eq_ok h
  obtain ⟨-, rfl, rfl, rfl⟩ := run_select_clean_eq_ok hget
  obtain ⟨_, s₂, w₂, hone, h⟩ := Machine.run_bind_eq_ok h
  obtain ⟨-, rfl, rfl⟩ := run_scalarOneOrNone_eq_ok hone
  obtain ⟨r, s₃, w₃, horRaise, h⟩ := Machine.run_bind_eq_ok h
  obtain ⟨-, rfl, rfl⟩ := Machine.run_orRaise_eq_ok horRaise
  obtain ⟨endAt, s₄, w₄, hclock, h⟩ := Machine.run_bind_eq_ok h
  obtain ⟨endAt', w₄', hclock', -, -⟩ := run_atOrNow env req.at' {} w.tick
  obtain ⟨-, rfl, -⟩ : endAt' = endAt ∧ {} = s₄ ∧ w₄' = w₄ := by
    simpa using hclock'.symm.trans hclock
  obtain ⟨_, s₅, w₅, hmodify, h⟩ := Machine.run_bind_eq_ok h
  obtain ⟨_, s₆, w₆, hselect, h⟩ := Machine.run_bind_eq_ok h
  cases h
  refine ⟨keyOf .workProcessRecord r, endAt, ⟨env.dbClock w₄.ticks, none⟩, fun d hd => ?_⟩
  have hmodified := exec_statements env (.modify .workProcessRecord r (req.apply endAt)) {} w₄
  have hselected := exec_statements env (.select [.int r.jobProcessId] fun _ db =>
    db.find? .jobProcess r.jobProcessId) s₅ w₅
  rw [modify, Machine.run_lift, server_exec] at hmodify
  rw [dbGet, select, Machine.run_lift, server_exec] at hselect
  rw [hmodify] at hmodified
  rw [hselect] at hselected
  simp only [Cmd.recorded, List.append_nil] at hselected
  have hrecorded := hmodified.subset (hselected.subset hd)
  simp only [Session.statements_empty, List.nil_append, Cmd.recorded] at hrecorded
  split at hrecorded
  · simp at hrecorded
  · simpa using hrecorded

end Close

/-! ## Runs -/

section Runs

variable {env}

variable (env) in
/-- No request on process records commits by itself. -/
theorem ProcessOp.script_only (op : ProcessOp) :
    (op.script env : Async V D ProcessRecordResponse).Only fun c => !c.isCommit := by
  have hclock : ∀ t, (atOrNow env t : Async V D DateTime).Only fun c => !c.isCommit := by
    rintro (_ | t)
    · exact .bind (.lift rfl) fun _ => .ret
    · exact .ret
  cases op with
  | begin req =>
      exact .bind (.bind (.lift rfl) fun _ => .orRaise) fun _ => .bind (.lift rfl) fun _ =>
        .bind .orRaise fun _ => .bind (hclock _) fun _ => .bind (.lift rfl) fun _ =>
        .bind (.lift rfl) fun _ => .ret
  | «end» req =>
      refine .bind (.lift rfl) fun rows => .bind ?_ fun _ => .bind .orRaise fun _ =>
        .bind (hclock _) fun _ => .bind (.lift rfl) fun _ => .bind (.lift rfl) fun _ => .ret
      rcases rows with _ | ⟨a, _ | ⟨b, rows⟩⟩ <;> trivial

/-- Statements that close records open none. -/
theorem openProcessCount_applyAll {id : ℤ} {f : WorkProcessRecord → WorkProcessRecord}
    (hf : ∀ r (k : ProcessKey), (f r).opens k.1 k.2 = false) {ds : List Statement}
    (hds : ∀ d ∈ ds, d = .update .workProcessRecord id f) {db db' : Db}
    (h : Dml.applyAll ds db = .ok db') (k : ProcessKey) :
    openProcessCount db' k ≤ openProcessCount db k := by
  induction ds generalizing db with
  | nil =>
      cases h
      exact Nat.le_refl _
  | cons d ds ih =>
      rw [Dml.applyAll_cons] at h
      cases hd : d.apply db with
      | error v =>
          rw [hd] at h
          cases h
      | ok db₁ =>
          rw [hd] at h
          rw [hds d (List.mem_cons_self ..)] at hd
          exact Nat.le_trans (ih (fun d hd => hds d (List.mem_cons_of_mem _ hd)) h)
            (openProcessCount_update hf hd k)

/-- **One request keeps the records closable**, if it opens no second record. -/
theorem openProcessCount_step (op : ProcessOp) (w : World V D) (hfresh : Fresh op w)
    (h : ∀ k, openProcessCount w.db k ≤ 1) (k : ProcessKey) :
    openProcessCount (op.step env w).db k ≤ 1 := by
  obtain hdb | ⟨a, s, w', hrun, -, ds, hperm, happly⟩ := serve_db (op.script_only env) w
  · rw [ProcessOp.step, hdb]
    exact h k
  · rw [ProcessOp.step]
    cases op with
    | begin req =>
        obtain ⟨hschedule, hprocess, startAt, new, hinsert⟩ := run_beginProcess hrun
        obtain rfl := List.perm_singleton.mp (hperm.trans hinsert)
        rw [Dml.applyAll_singleton] at happly
        have hnone := hfresh req rfl hschedule hprocess
        rw [openProcessCount, (Dml.insert_ok happly).1, List.countP_append]
        by_cases hk : k = (req.workScheduleId, req.jobProcessId)
        · subst hk
          rw [openProcessCount] at hnone
          rw [hnone, Nat.zero_add]
          exact List.countP_le_length
        · have hother : List.countP (WorkProcessRecord.opens k.1 k.2) [req.row startAt new] = 0 := by
            rw [List.countP_eq_zero]
            rintro r hr hopens
            obtain rfl := List.mem_singleton.mp hr
            have := of_decide_eq_true hopens
            exact hk (Prod.ext this.1.symm this.2.1.symm)
          rw [hother]
          exact h k
    | «end» req =>
        obtain ⟨id, endAt, now, hupdate⟩ := run_endProcess hrun
        exact Nat.le_trans (openProcessCount_applyAll
          (fun r k => apply_closed req endAt now r k)
          (fun d hd => hupdate d (hperm.mem_iff.mp hd)) happly k) (h k)

end Runs

/-- **Process records stay closable** as long as no `begin_process` arrives for a
pair that has an open record. -/
theorem process_record_closable (hro : env.settings.appReadOnly = false) (w₀ : World V D)
    (h₀ : ∀ k, openProcessCount w₀.db k ≤ 1) (ops : List ProcessOp)
    (hfresh : Runs.Guarded (ProcessOp.step env) Fresh ops w₀) :
    Closable env (Runs.run (ProcessOp.step env) ops w₀) := by
  have h := Runs.Guarded.invariant (I := fun w : World V D => ∀ k, openProcessCount w.db k ≤ 1)
    (fun op w hok hw => openProcessCount_step op w hok hw) h₀ hfresh
  exact ⟨h, fun req hfits => ⟨serve_endProcess_one hfits hro, serve_endProcess_none hfits⟩⟩

/-- A `begin_process` of the shift of the sample installation. -/
def sampleProcessBegin : ProcessOp :=
  .begin { workScheduleId := 1, jobProcessId := 1, at' := some ⟨0, none⟩ }

/-- The `end_process` after it. -/
def sampleProcessEnd : ProcessEndRequest :=
  { workScheduleId := 1, jobProcessId := 1, at' := some ⟨1, none⟩ }

/-- A process begun, ended and begun again. -/
theorem process_record_closable_sample :
    Closable still (Runs.run (ProcessOp.step still)
      [sampleProcessBegin, .end sampleProcessEnd, sampleProcessBegin]
      (World.fresh Db.sample () : World Unit Unit)) := by
  have hnone : ∀ k, openProcessCount Db.sample k = 0 := by
    intro k
    have hrows : Db.sample.rows .workProcessRecord = [] := by decide +kernel
    rw [openProcessCount, hrows]
    rfl
  have hone : ∀ k, openProcessCount Db.sample k ≤ 1 := fun k => by
    rw [hnone k]
    exact Nat.zero_le 1
  refine process_record_closable still rfl _ hone _ ⟨?_, ?_, ?_, trivial⟩
  · rintro req h - -
    cases h
    exact hnone _
  · rintro req h
    cases h
  · rintro req h - -
    cases h
    decide +kernel

/-- **A repeated `begin_process`** leaves two open records, and no `end_process`
closes either. -/
theorem process_record_stuck :
    ¬Closable still (Runs.run (ProcessOp.step still) [sampleProcessBegin, sampleProcessBegin]
        (World.fresh Db.sample () : World Unit Unit)) ∧
      (serve still (WorkRecordService.endProcess still sampleProcessEnd)
        (Runs.run (ProcessOp.step still) [sampleProcessBegin, sampleProcessBegin]
          (World.fresh Db.sample () : World Unit Unit))).1 = .error multipleResultsFound := by
  refine ⟨fun h => ?_, by decide +kernel⟩
  have hcount := h.1 (1, 1)
  revert hcount
  decide +kernel

end Rooti
