import Rooti.Core.Transactions
import Rooti.Lib.Hoare

/-!
# The ids of rows

Every new row is given the next number of its table's sequence, and no request
changes the id of a row, so the ids of a table never run ahead of its sequence.

## Main definitions

* `Numbered` — no id runs ahead of its sequence
* `Keyed` — scripts that leave the numbering of rows to the sequences
* `Keyed.serve` — requests keep a state numbered

## What it is good for

A row that is added gets an id that no row has, whatever rows have been deleted: the
sequence moves on when an id is drawn and is never set back, not even by a rollback.
Here this is an invariant between requests one after another. `Access.Identities` has it
for requests among each other, where an id may be drawn long before its row is
committed.
-/

namespace Rooti

open Relational Program

variable {V D α β : Type}

/-- **No id runs ahead of its sequence.** -/
def Numbered (w : World V D) : Prop := ∀ t, ∀ r ∈ w.db.rows t, keyOf t r ≤ w.seq t

/-- The next number of a sequence is free. -/
theorem Numbered.fresh {w : World V D} (h : Numbered w) {t : Entity} {r : Row t}
    (hr : r ∈ w.db.rows t) : keyOf t r ≠ w.seq t + 1 := by
  have hle := h t r hr
  omega

/-- New rows have the number they are given, and assignments leave ids alone. -/
def Cmd.keyed : Cmd V D α → Prop
  | .add t mk => ∀ new, keyOf t (mk new) = new.id
  | .modify t _ f => ∀ r, keyOf t (f r) = keyOf t r
  | _ => True

/-- A script that leaves the numbering of rows to the sequences. -/
def Keyed (p : Async V D α) : Prop := p.Only fun c => c.keyed

/-- A statement that keeps ids within the sequences `seq`. -/
def StaysWithin (seq : Entity → ℤ) : Statement → Prop
  | .insert t r => keyOf t r ≤ seq t
  | .update t _ f => ∀ r, keyOf t (f r) = keyOf t r
  | .delete .. => True

section Statements

variable {seq seq' : Entity → ℤ} {d : Statement} {ds : List Statement} {db db' : Db}

/-- Sequences move on. -/
theorem StaysWithin.mono (h : StaysWithin seq d) (hle : ∀ t, seq t ≤ seq' t) :
    StaysWithin seq' d := by
  cases d with
  | insert t r => exact Int.le_trans h (hle t)
  | update t k f => exact h
  | delete t k => trivial

/-- The time of a change is no id. -/
theorem keyOf_setUpdatedAt (now : DateTime) (t : Entity) (r : Row t) :
    keyOf t (setUpdatedAt now t r) = keyOf t r := by
  cases t <;> rfl

/-- The rows a `DELETE` leaves were there before. -/
theorem mem_of_delete {t j : Entity} {k : ℤ} {r : Row j}
    (h : (Dml.delete t k : Statement).apply db = .ok db') (hr : r ∈ db'.rows j) :
    r ∈ db.rows j := by
  simp only [Dml.apply] at h
  split at h
  · cases h
  · split at h
    · cases h
    · cases h
      exact (List.mem_filter.mp hr).1

/-- A statement keeps ids within the sequences. -/
theorem within_apply (hd : StaysWithin seq d) (h : d.apply db = .ok db')
    (hdb : ∀ t, ∀ r ∈ db.rows t, keyOf t r ≤ seq t) :
    ∀ t, ∀ r ∈ db'.rows t, keyOf t r ≤ seq t := by
  intro j r hr
  cases d with
  | insert t row =>
      obtain ⟨hrows, -, hothers⟩ := Dml.insert_ok h
      by_cases hj : j = t
      · subst hj
        rw [hrows, List.mem_append, List.mem_singleton] at hr
        obtain hr | rfl := hr
        · exact hdb j r hr
        · exact hd
      · rw [Database.rows, hothers j hj] at hr
        exact hdb j r hr
  | update t k f =>
      obtain ⟨-, hrows, hothers⟩ := Dml.update_ok h
      by_cases hj : j = t
      · subst hj
        rw [hrows, List.mem_map] at hr
        obtain ⟨x, hx, rfl⟩ := hr
        split
        · rw [hd]
          exact hdb j x hx
        · exact hdb j x hx
      · rw [Database.rows, hothers j hj] at hr
        exact hdb j r hr
  | delete t k => exact hdb j r (mem_of_delete h hr)

/-- Nor do several statements leave the sequences. -/
theorem within_applyAll (hds : ∀ d ∈ ds, StaysWithin seq d) (h : Dml.applyAll ds db = .ok db')
    (hdb : ∀ t, ∀ r ∈ db.rows t, keyOf t r ≤ seq t) :
    ∀ t, ∀ r ∈ db'.rows t, keyOf t r ≤ seq t :=
  applyAll_maintains (I := fun db => ∀ t, ∀ r ∈ db.rows t, keyOf t r ≤ seq t)
    (fun d hd _ _ hdb h => within_apply (hds d hd) h hdb) h hdb

end Statements

/-- The state is numbered, and the session's changes keep it so. -/
def Numbers (s : Session) (w : World V D) : Prop :=
  (∀ d ∈ s.statements, StaysWithin w.seq d) ∧ Numbered w

/-- What a keyed command records keeps ids within the sequences. -/
theorem within_recorded (env : Env) {c : Cmd V D α} (hc : c.keyed) (s : Session) (w : World V D) :
    ∀ d ∈ c.recorded env w, StaysWithin (exec env c s w).2.2.seq d := by
  intro d hd
  cases c with
  | add t mk =>
      obtain rfl := List.mem_singleton.mp hd
      show keyOf t (mk (env.newRow t w)) ≤ Function.update w.seq t (w.seq t + 1) t
      rw [Function.update_self, hc]
      exact Int.le_refl _
  | modify t row f =>
      simp only [Cmd.recorded] at hd
      split at hd
      · cases hd
      · obtain rfl := List.mem_singleton.mp hd
        intro r
        rw [Function.comp_apply, keyOf_setUpdatedAt, hc]
  | delete t row =>
      obtain rfl := List.mem_singleton.mp hd
      trivial
  | _ => cases hd

/-- **A keyed command keeps the state numbered.** -/
theorem exec_numbers (env : Env) {c : Cmd V D α} (hc : c.keyed) {s : Session} {w : World V D}
    (h : Numbers s w) : Numbers (exec env c s w).2.1 (exec env c s w).2.2 := by
  obtain ⟨hstatements, hnumbered⟩ := h
  have hle : ∀ t, w.seq t ≤ (exec env c s w).2.2.seq t := exec_seq_le env c s w
  constructor
  · intro d hd
    have hmem := (exec_statements env c s w).subset hd
    obtain hold | hnew := List.mem_append.mp hmem
    · exact (hstatements d hold).mono hle
    · exact within_recorded env hc s w d hnew
  · intro t r hr
    obtain hdb | ⟨-, ds, hperm, happly⟩ := exec_db env c s w
    · rw [hdb] at hr
      exact Int.le_trans (hnumbered t r hr) (hle t)
    · have hsent : ∀ d ∈ ds, StaysWithin w.seq d := fun d hd =>
        hstatements d (hperm.mem_iff.mp hd)
      exact Int.le_trans (within_applyAll hsent happly hnumbered t r hr) (hle t)

namespace Keyed

variable {p : Async V D α}

/-- Returning. -/
theorem ret {a : α} : Keyed (.ret a : Async V D α) := Prog.Only.ret

/-- One script after another. -/
theorem bind {f : α → Async V D β} (hp : Keyed p) (hf : ∀ a, Keyed (f a)) :
    Keyed (Prog.bind p f) := Prog.Only.bind hp hf

/-- Either branch. -/
theorem ite {b : Prop} [Decidable b] {p' : Async V D α} (h : b → Keyed p)
    (h' : ¬b → Keyed p') : Keyed (if b then p else p') := Prog.Only.ite h h'

/-- A value that has to be there. -/
theorem orRaise {e : Err} {o : Option α} : Keyed (Prog.orRaise e o : Async V D α) :=
  Prog.Only.orRaise

/-- A check. -/
theorem raiseIf {b : Bool} {e : Err} : Keyed (Prog.raiseIf b e : Async V D Unit) :=
  Prog.Only.raiseIf

/-- A query. -/
theorem select {binds : List Bind} {q : RowOrder → Db → α} :
    Keyed (select binds q : Async V D α) := Prog.Only.lift trivial

/-- Loading an object. -/
theorem dbGet {t : Entity} {id : ℤ} : Keyed (dbGet t id : Async V D (Option (Row t))) := select

/-- A flush. -/
theorem flush : Keyed (flush : Async V D Unit) := Prog.Only.lift trivial

/-- A new row has to have the id it is given. -/
theorem add {t : Entity} {mk : NewRow → Row t} (h : ∀ new, keyOf t (mk new) = new.id) :
    Keyed (add t mk : Async V D NewRow) := Prog.Only.lift h

/-- Assignments have to leave the id alone. -/
theorem modify {t : Entity} {row : Row t} {f : Row t → Row t}
    (h : ∀ r, keyOf t (f r) = keyOf t r) : Keyed (modify t row f : Async V D Unit) :=
  Prog.Only.lift h

/-- At most one row. -/
theorem scalarOneOrNone {l : List α} : Keyed (scalarOneOrNone l : Async V D (Option α)) := by
  rcases l with _ | ⟨a, _ | ⟨b, l⟩⟩ <;> trivial

/-- **Requests keep a state numbered.** -/
theorem serve (hp : Keyed p) (env : Env) {w : World V D} (h : Numbered w) :
    Numbered (Rooti.serve env p w).2 := by
  have hend : Keyed (endTransaction env : Async V D Unit) := by
    unfold endTransaction
    exact ite (fun _ => Prog.Only.lift trivial) fun _ => Prog.Only.lift trivial
  have hscript : Keyed (getDbSession env p) :=
    Prog.Only.handle (bind hp fun _ => bind hend fun _ => Prog.Only.ret) fun _ =>
      bind (Prog.Only.lift trivial) fun _ => Prog.Only.raise
  have hkeeps : (server env).Keeps Numbers (getDbSession env p) :=
    .of_only hscript fun c hc s w hI => exec_numbers env hc hI
  exact (hkeeps.run (l := {}) (s := w) ⟨fun _ hd => (by cases hd), h⟩).2

end Keyed

end Rooti
