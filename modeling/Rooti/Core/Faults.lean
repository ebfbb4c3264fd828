import Rooti.Core.Transactions

/-!
# Requests whose database fails

A request may meet a database that fails it: one of its queries, its flush or its
commit is not executed, and the transaction is lost.  One such failure ends a
request, so a request meets at most one (`Fault`).

The beginning of a request reads; `AfterReads` counts its queries and says that
none of them was struck, which is what the requests that reach a later point
have in common.

## Main definitions

* `Fault`, `faulty`, `serveFaulty` — one failure, and requests that meet it
* `AfterReads`, `Stopped` — how far a reading request is
* `ensures_select` — one more query
-/

namespace Rooti

open Relational Program

variable {V D α : Type}

/-- **A failure of the database**: of the query at a command, of the flush, or of
the commit. -/
inductive Fault
  | query (tick : ℕ) (e : Err)
  | flush (e : Err)
  | commit (e : Err)

/-- The error a command meets. -/
def Fault.strikes : Fault → Cmd V D α → ℕ → Option Err
  | .query n e, .select .., tick => if tick = n then some e else none
  | .flush e, .flush, _ => some e
  | .commit e, .commit, _ => some e
  | _, _, _ => none

/-- One command on a database that may fail it. -/
def execFaulty (env : Env) (fault : Option Fault) (c : Cmd V D α) (s : Session)
    (w : World V D) : Except Err α × Session × World V D :=
  match fault.bind fun f => f.strikes c w.ticks with
  | some e => (.error e, { s with pending := [], failed := true }, w.tick)
  | none => exec env c s w

/-- **The server on a database that may fail.** -/
def faulty (env : Env) (fault : Option Fault) : Machine (Cmd V D) Err Session (World V D) :=
  ⟨execFaulty env fault⟩

/-- One request, served by itself on a database that may fail. -/
def serveFaulty (env : Env) (fault : Option Fault) (p : Async V D α) (w : World V D) :
    Except Err α × World V D :=
  let r := (faulty env fault).run (getDbSession env p) {} w
  (r.1, r.2.2)

section Faulty

variable {env : Env} {fault : Option Fault} {w : World V D}

/-- The commands of the server on a database that may fail. -/
theorem faulty_exec (c : Cmd V D α) (s : Session) (w : World V D) :
    (faulty env fault).exec c s w = execFaulty env fault c s w := rfl

/-- A command that is not struck is executed. -/
theorem execFaulty_of_strikes {c : Cmd V D α} {s : Session}
    (h : (fault.bind fun f => f.strikes c w.ticks) = none) :
    execFaulty env fault c s w = exec env c s w := by
  rw [execFaulty, h]

/-- Commands that are not about the database are never struck. -/
theorem execFaulty_of_quiet {c : Cmd V D α} (s : Session)
    (h : ¬(c matches .select .. | .flush | .commit)) :
    execFaulty env fault c s w = exec env c s w := by
  refine execFaulty_of_strikes ?_
  rcases fault with _ | _ | _ | _ <;> cases c <;> first | rfl | simp at h

/-- The failure, if any, is that of a query, and not of one before command `n`. -/
def StrikesFrom (fault : Option Fault) (n : ℕ) : Prop :=
  ∀ f ∈ fault, ∃ tick e, f = .query tick e ∧ n ≤ tick

/-- Commands before that are executed. -/
theorem execFaulty_of_early {c : Cmd V D α} (s : Session) {n : ℕ} (h : StrikesFrom fault n)
    (hearly : w.ticks < n) : execFaulty env fault c s w = exec env c s w := by
  refine execFaulty_of_strikes ?_
  cases fault with
  | none => rfl
  | some f =>
      obtain ⟨tick, e, rfl, hle⟩ := h f rfl
      cases c <;> first | rfl | exact if_neg (by omega)

/-- Commands other than queries are executed. -/
theorem execFaulty_of_strikesFrom {c : Cmd V D α} (s : Session) {n : ℕ}
    (h : StrikesFrom fault n) (hc : ¬(c matches .select ..)) :
    execFaulty env fault c s w = exec env c s w := by
  refine execFaulty_of_strikes ?_
  cases fault with
  | none => rfl
  | some f =>
      obtain ⟨tick, e, rfl, -⟩ := h f rfl
      cases c <;> first | rfl | simp at hc

/-- Without a failure the server is the one of `serve`. -/
theorem faulty_none : (faulty env none : Machine (Cmd V D) Err Session (World V D)) =
    server env := rfl

/-- Without a failure this is `serve`. -/
theorem serveFaulty_none (p : Async V D α) : serveFaulty env none p w = serve env p w := rfl

/-- How a request ends once its script has. -/
theorem serveFaulty_eq (p : Async V D α) :
    serveFaulty env fault p w =
      match (faulty env fault).run p {} w with
      | (.error e, _, w') => (.error e, w'.tick)
      | (.ok a, s, w') =>
          if env.settings.appReadOnly then (.ok a, w'.tick)
          else
            match execFaulty env fault .commit s w' with
            | (.ok _, _, w'') => (.ok a, w'')
            | (.error e, _, w'') => (.error e, w''.tick) := by
  have hrollback : ∀ (s : Session) (w' : World V D),
      execFaulty env fault .rollback s w' = (.ok (), {}, w'.tick) := by
    intro s w'
    rw [execFaulty_of_strikes]
    · rfl
    · rcases fault with _ | _ | _ | _ <;> rfl
  unfold serveFaulty getDbSession
  simp only [Prog.bind_eq, Prog.pure_eq, Machine.run_handle, Machine.run_bind]
  rcases (faulty env fault).run p {} w with ⟨e | a, s', w'⟩
  · simp only [rollback, Machine.run_lift, faulty_exec, hrollback, Machine.run_raise]
  · by_cases hro : env.settings.appReadOnly
    · simp only [hro, endTransaction, if_true, rollback, Machine.run_lift, faulty_exec,
        hrollback, Machine.run_ret]
    · simp only [hro, endTransaction, Bool.false_eq_true, if_false, commit, Machine.run_lift,
        faulty_exec]
      rcases execFaulty env fault .commit s' w' with ⟨e | _, s'', w''⟩
      · simp only [rollback, Machine.run_lift, faulty_exec, hrollback, Machine.run_raise]
      · rfl

/-- The id sequences only move forward. -/
theorem serveFaulty_seq_le (p : Async V D α) (t : Entity) :
    w.seq t ≤ (serveFaulty env fault p w).2.seq t := by
  have hkeeps : (faulty env fault).Keeps (fun _ w' => w.seq t ≤ w'.seq t)
      (getDbSession env p) := by
    refine .of_exec (fun c s w' h => ?_) _
    rw [faulty_exec, execFaulty]
    split
    · exact h
    · exact Int.le_trans h (exec_seq_le env c s w' t)
  exact hkeeps.run (l := {}) (Int.le_refl _)

/-- Nor does `serve` set a sequence back. -/
theorem serve_seq_le (p : Async V D α) (t : Entity) : w.seq t ≤ (serve env p w).2.seq t := by
  rw [← serveFaulty_none]
  exact serveFaulty_seq_le p t

/-- In read-only mode a flush sends nothing. -/
theorem flush_readOnly (db : Db) {s : Session} (h : s.written = []) :
    (s.flush true db).2.written = [] ∧
      ((s.flush true db).1 = .ok () → (s.flush true db).2 = s) := by
  unfold Session.flush
  split
  · exact ⟨h, fun e => (by cases e)⟩
  · split
    · exact ⟨h, fun _ => rfl⟩
    · exact ⟨h, fun e => (by cases e)⟩

/-- **In read-only mode no script changes the database**, commits included. -/
theorem keeps_readOnly (hro : env.settings.appReadOnly = true) (p : Async V D α) :
    (faulty env fault).Keeps (fun s w' => s.written = [] ∧ w'.db = w.db) p := by
  refine .of_exec (fun c s w' h => ?_) p
  obtain ⟨hwritten, hdb⟩ := h
  have hflush := flush_readOnly w'.db hwritten
  rw [faulty_exec, execFaulty]
  split
  · exact ⟨hwritten, hdb⟩
  · cases c with
    | select binds q =>
        simp only [exec, execSelect, hro]
        split
        · next h => exact ⟨by simpa [h] using hflush.1, hdb⟩
        · next h =>
            have := hflush.1
            rw [h] at this
            split <;> exact ⟨this, hdb⟩
    | modify t row f =>
        simp only [exec]
        split <;> exact ⟨hwritten, hdb⟩
    | flush =>
        simp only [exec, hro]
        exact ⟨hflush.1, hdb⟩
    | commit =>
        simp only [exec, execCommit, hro]
        split
        · next h => exact ⟨by simpa [h] using hflush.1, hdb⟩
        · next s' h =>
            have hsame := hflush.2 (by rw [h])
            rw [h] at hsame
            dsimp only at hsame
            subst hsame
            rw [hwritten]
            exact ⟨rfl, hdb⟩
    | rollback => exact ⟨rfl, hdb⟩
    | redisSet key value ex =>
        simp only [exec]
        split <;> exact ⟨hwritten, hdb⟩
    | _ => exact ⟨hwritten, hdb⟩

/-- A request whose script raises changes no row. -/
theorem serveFaulty_of_error {p : Async V D α} {e : Err} {s : Session} {w' : World V D}
    (hrun : (faulty env fault).run p {} w = (.error e, s, w')) :
    serveFaulty env fault p w = (.error e, w'.tick) := by
  rw [serveFaulty_eq, hrun]

/-- **The end of a request whose script returns**: in read-only mode nothing is
kept; otherwise the commit fails, or its changes are in the database. -/
theorem serveFaulty_of_ok {p : Async V D α} {a : α} {s : Session} {w' : World V D} {db₁ : Db}
    (hrun : (faulty env fault).run p {} w = (.ok a, s, w')) (hfailed : s.failed = false)
    (hwritten : Dml.applyAll s.written w'.db = .ok db₁) :
    (env.settings.appReadOnly = true ∧ serveFaulty env fault p w = (.ok a, w'.tick)) ∨
      env.settings.appReadOnly = false ∧
        ((∃ e, serveFaulty env fault p w = (.error e, w'.tick.tick) ∧
            ((∃ e, fault = some (.commit e)) ∨
              ∃ v, Dml.applyAll (Session.flushOrder s.pending) db₁ = .error v)) ∨
          (∀ e, fault ≠ some (.commit e)) ∧
            ∃ db₂, Dml.applyAll (Session.flushOrder s.pending) db₁ = .ok db₂ ∧
              serveFaulty env fault p w = (.ok a, { w'.tick with db := db₂ })) := by
  cases hro : env.settings.appReadOnly with
  | true =>
      refine .inl ⟨rfl, ?_⟩
      rw [serveFaulty_eq, hrun]
      simp only [hro, if_true]
  | false =>
      refine .inr ⟨rfl, ?_⟩
      cases hs : fault.bind fun f => f.strikes (.commit : Cmd V D Unit) w'.ticks with
      | some e =>
          refine .inl ⟨e, ?_, .inl ?_⟩
          · rw [serveFaulty_eq, hrun]
            simp only [hro, Bool.false_eq_true, if_false, execFaulty, hs]
          · rcases fault with _ | _ | _ | e'
            · cases hs
            · cases hs
            · cases hs
            · exact ⟨e', rfl⟩
      | none =>
          have hserve : serveFaulty env fault p w =
              match execCommit env s w' with
              | (.ok _, _, w'') => (.ok a, w'')
              | (.error e, _, w'') => (.error e, w''.tick) := by
            rw [serveFaulty_eq, hrun]
            simp only [hro, Bool.false_eq_true, if_false, execFaulty_of_strikes hs]
            rfl
          -- the commit flushes what is pending
          cases hpending : Dml.applyAll (Session.flushOrder s.pending) db₁ with
          | error v =>
              refine .inl ⟨violationError v, ?_, .inr ⟨v, rfl⟩⟩
              rw [hserve, execCommit_refused hro hfailed hwritten hpending]
          | ok db₂ =>
              refine .inr ⟨?_, db₂, rfl, ?_⟩
              · rintro e rfl
                cases hs
              · rw [hserve, execCommit_pending hro hfailed hwritten hpending]

end Faulty

/-- `scalar_one_or_none()`: at most one row was found. -/
theorem ensures_scalarOneOrNone {m : Machine (Cmd V D) Err Session (World V D)} {l : List α}
    {P R : Session → World V D → Prop} {Q : Option α → Session → World V D → Prop}
    (h : ∀ o, l = o.toList → ∀ s w, P s w → Q o s w) (h' : ∀ s w, P s w → R s w) :
    m.Ensures P (scalarOneOrNone l) Q R := by
  rcases l with _ | ⟨a, _ | ⟨b, l⟩⟩
  · exact .ret (h none rfl)
  · exact .ret (h (some a) rfl)
  · exact .raise h'

/-! ## Reading -/

namespace World

/-- The state after some commands that change nothing. -/
def after (w : World V D) (n : ℕ) : World V D := { w with ticks := w.ticks + n }

variable (w : World V D) (n : ℕ)

@[simp] theorem after_zero : w.after 0 = w := rfl

@[simp] theorem after_tick : (w.after n).tick = w.after (n + 1) := rfl

@[simp] theorem after_after (m : ℕ) : (w.after n).after m = w.after (n + m) := by
  simp [after, Nat.add_assoc]

@[simp] theorem after_db : (w.after n).db = w.db := rfl

@[simp] theorem after_seq : (w.after n).seq = w.seq := rfl

@[simp] theorem after_disk : (w.after n).disk = w.disk := rfl

@[simp] theorem after_redis : (w.after n).redis = w.redis := rfl

@[simp] theorem after_outbox : (w.after n).outbox = w.outbox := rfl

@[simp] theorem after_ticks : (w.after n).ticks = w.ticks + n := rfl

end World

/-- The failure strikes one of the first `n` queries of a request that begins
with them at `w`. -/
def StruckReading (fault : Option Fault) (w : World V D) (n : ℕ) : Prop :=
  ∃ tick e, fault = some (.query tick e) ∧ w.ticks ≤ tick ∧ tick < w.ticks + n

/-- The request has made `n` queries and nothing else. -/
def AfterReads (fault : Option Fault) (w : World V D) (n : ℕ) (s : Session)
    (w' : World V D) : Prop :=
  s = {} ∧ w' = w.after n ∧ ¬StruckReading fault w n

/-- Only queries have been made. -/
def Stopped (w : World V D) (_ : Session) (w' : World V D) : Prop := ∃ n, w' = w.after n

section Reading

variable {env : Env} {fault : Option Fault} {w : World V D} {n : ℕ}

/-- A request that has just begun. -/
theorem afterReads_zero : AfterReads fault w 0 {} w := by
  refine ⟨rfl, rfl, ?_⟩
  rintro ⟨tick, e, -, hle, hlt⟩
  omega

/-- A request that has only read may stop. -/
theorem AfterReads.stopped {s : Session} {w' : World V D} (h : AfterReads fault w n s w') :
    Stopped w s w' := ⟨n, h.2.1⟩

/-- **One more query**: it is answered from the database, or the request stops. -/
theorem ensures_select {binds : List Bind} {q : RowOrder → Db → α} :
    (faulty env fault).Ensures (AfterReads fault w n) (select binds q)
      (fun a s w' => (∃ o, a = q o w.db) ∧ AfterReads fault w (n + 1) s w') (Stopped w) := by
  refine Machine.Ensures.lift ?_
  rintro s w' ⟨rfl, rfl, hstruck⟩
  rw [faulty_exec]
  cases hs : fault.bind fun f => f.strikes (.select binds q : Cmd V D α) (w.after n).ticks with
  | some e =>
      simp only [execFaulty, hs]
      exact ⟨n + 1, rfl⟩
  | none =>
      rw [execFaulty_of_strikes hs]
      simp only [exec, execSelect, flush_empty, view_empty]
      by_cases hbinds : binds.all Bind.fits
      · rw [if_pos hbinds]
        refine ⟨⟨_, rfl⟩, rfl, rfl, ?_⟩
        rintro ⟨tick, e, rfl, hle, hlt⟩
        by_cases htick : tick = w.ticks + n
        · simp [Fault.strikes, htick] at hs
        · exact hstruck ⟨tick, e, rfl, hle, by omega⟩
      · rw [if_neg hbinds]
        exact ⟨n + 1, rfl⟩

/-- Loading an object is one query. -/
theorem ensures_dbGet {t : Entity} {id : ℤ} :
    (faulty env fault).Ensures (AfterReads fault w n) (dbGet t id)
      (fun a s w' => a = w.db.find? t id ∧ AfterReads fault w (n + 1) s w') (Stopped w) :=
  ensures_select.weaken (fun _ _ h => h) (fun _ _ _ h => ⟨h.1.choose_spec, h.2⟩)
    fun _ _ h => h

/-- An object that has to exist. -/
theorem ensures_getOrRaise {t : Entity} {id : ℤ} {e : Err} :
    (faulty env fault).Ensures (AfterReads fault w n) ((dbGet t id).bind (Prog.orRaise e))
      (fun row s w' => w.db.find? t id = some row ∧ AfterReads fault w (n + 1) s w')
      (Stopped w) := by
  refine ensures_dbGet.bind fun found => .of_and ?_
  rintro rfl
  exact .orRaise (fun row hrow _ _ h => ⟨hrow, h⟩) fun _ _ _ h => h.stopped

end Reading

end Rooti
