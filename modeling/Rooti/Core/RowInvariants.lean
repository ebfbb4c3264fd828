import Rooti.Core.Numbering

/-!
# Invariants of rows

A property of the single rows of the tables is kept by a request that adds only rows
with it and whose assignments respect it: a `DELETE`, with all it takes along, leaves
rows as they are.

## Main definitions

* `RowsSatisfy` — every row of every table has the property
* `KeepsRows` — scripts that add and assign accordingly
* `KeepsRows.serve` — their requests

## What it is good for

A property of single rows cannot be broken by deleting some of them, so nothing has to
be known about cascades, and it is not looked at by queries, so nothing has to be known
about what a script was answered. All that matters is which rows it adds and what it
assigns, which is read off the script. Properties that relate rows to each other need
more, and are proved along the script.
-/

namespace Rooti

open Relational Program

variable {V D α β : Type}

/-- Every row of every table has the property. -/
def RowsSatisfy (P : ∀ t, Row t → Prop) (db : Db) : Prop := ∀ t, ∀ r ∈ db.rows t, P t r

/-- New rows have the property, and assignments respect it. -/
def Cmd.keepsRows (P : ∀ t, Row t → Prop) : Cmd V D α → Prop
  | .add t mk => ∀ new, P t (mk new)
  | .modify t _ f => ∀ now r, P t r → P t (setUpdatedAt now t (f r))
  | _ => True

/-- A script that keeps the property of rows. -/
def KeepsRows (P : ∀ t, Row t → Prop) (p : Async V D α) : Prop := p.Only fun c => c.keepsRows P

/-- A statement that keeps the property of rows. -/
def RespectsRows (P : ∀ t, Row t → Prop) : Statement → Prop
  | .insert t r => P t r
  | .update t _ f => ∀ r, P t r → P t (f r)
  | .delete .. => True

variable {P : ∀ t, Row t → Prop}

section Statements

variable {d : Statement} {ds : List Statement} {db db' : Db}

/-- A statement that respects the property keeps it. -/
theorem rows_apply (hd : RespectsRows P d) (h : d.apply db = .ok db') (hdb : RowsSatisfy P db) :
    RowsSatisfy P db' := by
  intro j r hr
  cases d with
  | insert t row =>
      obtain ⟨hrows, -, hothers⟩ := Dml.insert_ok h
      by_cases hj : j = t
      · subst hj
        rw [hrows, List.mem_append, List.mem_singleton] at hr
        obtain hr | rfl := hr
        · exact hdb j r hr
        · exact hd
      · rw [Database.rows, hothers j hj] at hr
        exact hdb j r hr
  | update t k f =>
      obtain ⟨-, hrows, hothers⟩ := Dml.update_ok h
      by_cases hj : j = t
      · subst hj
        rw [hrows, List.mem_map] at hr
        obtain ⟨x, hx, rfl⟩ := hr
        split
        · exact hd x (hdb j x hx)
        · exact hdb j x hx
      · rw [Database.rows, hothers j hj] at hr
        exact hdb j r hr
  | delete t k => exact hdb j r (mem_of_delete h hr)

/-- In terms of statements that maintain a property of the database. -/
theorem maintains_rows (hd : RespectsRows P d) : Maintains (RowsSatisfy P) d :=
  fun _ _ hdb h => rows_apply hd h hdb

/-- One statement after another. -/
theorem rows_applyAll (hds : ∀ d ∈ ds, RespectsRows P d) (h : Dml.applyAll ds db = .ok db')
    (hdb : RowsSatisfy P db) : RowsSatisfy P db' :=
  applyAll_maintains (fun d hd => maintains_rows (hds d hd)) h hdb

end Statements

/-- What a command records keeps the property. -/
theorem respects_recorded (env : Env) {c : Cmd V D α} (hc : c.keepsRows P) (w : World V D) :
    ∀ d ∈ c.recorded env w, RespectsRows P d := by
  intro d hd
  cases c with
  | add t mk =>
      obtain rfl := List.mem_singleton.mp hd
      exact hc _
  | modify t row f =>
      simp only [Cmd.recorded] at hd
      split at hd
      · cases hd
      · obtain rfl := List.mem_singleton.mp hd
        exact hc _
  | delete t row =>
      obtain rfl := List.mem_singleton.mp hd
      trivial
  | _ => cases hd

/-- The rows have the property, and the session's changes keep it. -/
def Respects (P : ∀ t, Row t → Prop) (s : Session) (w : World V D) : Prop :=
  (∀ d ∈ s.statements, RespectsRows P d) ∧ RowsSatisfy P w.db

/-- A command that keeps the property keeps it in the session and in the database. -/
theorem exec_respects (env : Env) {c : Cmd V D α} (hc : c.keepsRows P) {s : Session}
    {w : World V D} (h : Respects P s w) :
    Respects P (exec env c s w).2.1 (exec env c s w).2.2 := by
  obtain ⟨hstatements, hrows⟩ := h
  constructor
  · intro d hd
    obtain hold | hnew := List.mem_append.mp ((exec_statements env c s w).subset hd)
    · exact hstatements d hold
    · exact respects_recorded env hc w d hnew
  · obtain hdb | ⟨-, ds, hperm, happly⟩ := exec_db env c s w
    · rw [hdb]
      exact hrows
    · exact rows_applyAll (fun d hd => hstatements d (hperm.mem_iff.mp hd)) happly hrows

namespace KeepsRows

variable {p : Async V D α}

/-- Returning. -/
theorem ret {a : α} : KeepsRows P (.ret a : Async V D α) := Prog.Only.ret

/-- Raising. -/
theorem raise {e : Err} : KeepsRows P (.raise e : Async V D α) := Prog.Only.raise

/-- One script after another. -/
theorem bind {f : α → Async V D β} (hp : KeepsRows P p) (hf : ∀ a, KeepsRows P (f a)) :
    KeepsRows P (Prog.bind p f) := Prog.Only.bind hp hf

/-- Either branch. -/
theorem ite {b : Prop} [Decidable b] {p' : Async V D α} (h : b → KeepsRows P p)
    (h' : ¬b → KeepsRows P p') : KeepsRows P (if b then p else p') := Prog.Only.ite h h'

/-- A value that has to be there. -/
theorem orRaise {e : Err} {o : Option α} : KeepsRows P (Prog.orRaise e o : Async V D α) :=
  Prog.Only.orRaise

/-- A check. -/
theorem raiseIf {b : Bool} {e : Err} : KeepsRows P (Prog.raiseIf b e : Async V D Unit) :=
  Prog.Only.raiseIf

/-- A query. -/
theorem select {binds : List Bind} {q : RowOrder → Db → α} :
    KeepsRows P (select binds q : Async V D α) := Prog.Only.lift trivial

/-- Loading an object. -/
theorem dbGet {t : Entity} {id : ℤ} : KeepsRows P (dbGet t id : Async V D (Option (Row t))) :=
  select

/-- A flush. -/
theorem flush : KeepsRows P (flush : Async V D Unit) := Prog.Only.lift trivial

/-- The clock. -/
theorem datetimeNow {env : Env} : KeepsRows P (datetimeNow env : Async V D DateTime) :=
  bind (Prog.Only.lift trivial) fun _ => ret

/-- New rows need the property. -/
theorem add {t : Entity} {mk : NewRow → Row t} (h : ∀ new, P t (mk new)) :
    KeepsRows P (add t mk : Async V D NewRow) := Prog.Only.lift h

/-- Assignments have to respect it, also with the time that a trigger sets. -/
theorem modify {t : Entity} {row : Row t} {f : Row t → Row t}
    (h : ∀ now r, P t r → P t (setUpdatedAt now t (f r))) :
    KeepsRows P (modify t row f : Async V D Unit) := Prog.Only.lift h

/-- Deleting a row. -/
theorem delete {t : Entity} {row : Row t} : KeepsRows P (delete t row : Async V D Unit) :=
  Prog.Only.lift trivial

/-- A single row. -/
theorem one {l : List α} : KeepsRows P (one l : Async V D α) := by
  rcases l with _ | ⟨a, _ | ⟨b, l⟩⟩
  · exact raise
  · exact ret
  · exact raise

/-- **Requests keep the property of rows.** -/
theorem serve (hp : KeepsRows P p) (env : Env) {w : World V D} (h : RowsSatisfy P w.db) :
    RowsSatisfy P (Rooti.serve env p w).2.db := by
  have hend : KeepsRows P (endTransaction env : Async V D Unit) := by
    unfold endTransaction
    exact ite (fun _ => Prog.Only.lift trivial) fun _ => Prog.Only.lift trivial
  have hscript : KeepsRows P (getDbSession env p) :=
    Prog.Only.handle (bind hp fun _ => bind hend fun _ => Prog.Only.ret) fun _ =>
      bind (Prog.Only.lift trivial) fun _ => Prog.Only.raise
  have hkeeps : (server env).Keeps (Respects P) (getDbSession env p) :=
    .of_only hscript fun c hc s w hI => exec_respects env hc hI
  exact (hkeeps.run (l := {}) (s := w) ⟨fun _ hd => (by cases hd), h⟩).2

end KeepsRows

end Rooti
