import Rooti.Core.Holding
import Rooti.Core.Reading

/-!
# What read-only mode refuses

In read-only mode a request is refused by the first statement that changes data, and such
a statement is sent by a query, a flush or the commit.  `get_db_session` does not commit in
this mode, so a script that records a change and neither queries nor flushes after it
returns, and so does a script that changes the document storage first.

`LetsThrough` is worked out from the end of a script: every rule below says what a command
and the rest of its script let through.

## Main definitions

* `LetsThrough` — the script returns, or the document storage is changed
* `LetsNothingThrough` — the request answers an error, database and storage are as before
* `letsNothingThrough_iff` — which requests these are

## What carries the proof

A session that has recorded a change cannot send it, so whatever sends it raises: the
script is let through from there only if the change was none (`letsThrough_assign`), or
if nothing follows it that would send it (`letsThrough_modify`). This is why the slip of
a request can be read off its last command. The rules are equivalences, so that what
they give for a whole script is exact and not a bound; `letsNothingThrough_iff` carries
it over to the request, whose transaction is rolled back in this mode whatever the
script has returned.
-/

namespace Rooti

open Relational Program

variable {V D α β γ : Type}

/-- **A script lets something through**: it returns, or the document storage is changed. -/
def LetsThrough (env : Env) (p : Async V D α) (s : Session) (w : World V D) : Prop :=
  (∃ a, ((server env).run p s w).1 = .ok a) ∨ ((server env).run p s w).2.2.disk ≠ w.disk

/-- **A request lets nothing through**: it answers an error, and the database and the document
storage are as before. -/
def LetsNothingThrough (env : Env) (p : Async V D α) (w : World V D) : Prop :=
  (∃ e, (serve env p w).1 = .error e) ∧ (serve env p w).2.db = w.db ∧
    (serve env p w).2.disk = w.disk

section Rules

variable {env : Env} {s : Session} {w : World V D} {e : Err} {t : Entity}

/-- The answer and the storage of a request in read-only mode are those of its script. -/
theorem letsNothingThrough_iff (hro : env.settings.appReadOnly = true) {p : Async V D α} :
    LetsNothingThrough env p w ↔ ¬LetsThrough env p {} w := by
  have hdb := db_of_readOnly hro p w
  unfold LetsNothingThrough LetsThrough
  rw [serve_eq] at hdb ⊢
  rcases hrun : (server env).run p {} w with ⟨e | a, s', w'⟩ <;> rw [hrun] at hdb
  · have hfails : ¬∃ a : α, (.error e : Except Err α) = .ok a := by
      rintro ⟨a, h⟩
      cases h
    rw [or_iff_right hfails, not_not]
    exact ⟨fun h => h.2.2, fun h => ⟨⟨e, rfl⟩, hdb, h⟩⟩
  · refine iff_of_false ?_ fun h => h (.inl ⟨a, rfl⟩)
    rintro ⟨⟨e, h⟩, -⟩
    simp only [hro, if_true] at h
    cases h

/-- A script that raises, and leaves the storage alone. -/
theorem not_letsThrough_of_error {p : Async V D α} {s' : Session} {w' : World V D}
    (hrun : (server env).run p s w = (.error e, s', w')) (hdisk : w'.disk = w.disk) :
    ¬LetsThrough env p s w := by
  unfold LetsThrough
  rw [hrun]
  rintro (⟨a, h⟩ | h)
  · cases h
  · exact h hdisk

/-! ## Scripts without commands -/

/-- A script that returns. -/
@[simp] theorem letsThrough_ret {a : α} : LetsThrough env (.ret a : Async V D α) s w :=
  .inl ⟨a, rfl⟩

/-- A script that raises. -/
@[simp] theorem not_letsThrough_raise : ¬LetsThrough env (.raise e : Async V D α) s w :=
  not_letsThrough_of_error rfl rfl

/-- A computation. -/
theorem letsThrough_ofExcept {r : Except Err α} :
    LetsThrough env (Prog.ofExcept r : Async V D α) s w ↔ ∃ a, r = .ok a := by
  cases r with
  | ok a => exact iff_of_true letsThrough_ret ⟨a, rfl⟩
  | error e =>
      refine iff_of_false not_letsThrough_raise ?_
      rintro ⟨a, h⟩
      cases h

/-- A value that has to be there. -/
theorem letsThrough_orRaise_bind {o : Option α} {k : α → Async V D β} :
    LetsThrough env ((Prog.orRaise e o).bind k) s w ↔
      ∃ a, o = some a ∧ LetsThrough env (k a) s w := by
  cases o with
  | none =>
      refine iff_of_false not_letsThrough_raise ?_
      rintro ⟨a, h, -⟩
      cases h
  | some a =>
      constructor
      · exact fun h => ⟨a, rfl, h⟩
      · rintro ⟨_, ⟨⟩, h⟩
        exact h

/-- A check. -/
theorem letsThrough_raiseIf_bind {b : Bool} {k : PUnit → Async V D β} :
    LetsThrough env ((Prog.raiseIf b e).bind k) s w ↔
      b = false ∧ LetsThrough env (k ⟨⟩) s w := by
  cases b with
  | true => exact iff_of_false not_letsThrough_raise fun h => absurd h.1 Bool.noConfusion
  | false => exact (and_iff_right rfl).symm

/-- The check of the company. -/
theorem letsThrough_assertCompany_bind {scope : CompanyScopeValue} {companyId : ℤ}
    {k : Unit → Async V D β} :
    LetsThrough env ((assertCompany scope (some companyId)).bind k) s w ↔
      scope.all (companyId = ·) ∧ LetsThrough env (k ()) s w := by
  unfold assertCompany
  refine letsThrough_raiseIf_bind.trans (and_congr_left fun _ => ?_)
  cases scope with
  | none => exact iff_of_true rfl rfl
  | some c => simp

/-- A script that has run, and what follows it. -/
theorem letsThrough_bind_of_run {p : Async V D α} {k : α → Async V D β} {a : α} {s' : Session}
    {w' : World V D} (hrun : (server env).run p s w = (.ok a, s', w')) (hdisk : w'.disk = w.disk) :
    LetsThrough env (p.bind k) s w ↔ LetsThrough env (k a) s' w' := by
  unfold LetsThrough
  rw [Machine.run_bind, hrun, hdisk]

/-- A script that nothing gets past but its own changes of the storage. -/
theorem letsThrough_bind_iff_disk {p : Async V D α} {k : α → Async V D β}
    (hk : ∀ a s' w', ¬LetsThrough env (k a) s' w') :
    LetsThrough env (p.bind k) s w ↔ ((server env).run p s w).2.2.disk ≠ w.disk := by
  unfold LetsThrough
  rw [Machine.run_bind]
  rcases (server env).run p s w with ⟨e | a, s', w'⟩
  · refine or_iff_right ?_
    rintro ⟨a, h⟩
    cases h
  · have hrefused := hk a s' w'
    unfold LetsThrough at hrefused
    rw [not_or, not_not] at hrefused
    dsimp only
    rw [hrefused.2]
    exact or_iff_right hrefused.1

/-- A script that raises at its end. -/
theorem not_letsThrough_bind_raise {p : Async V D α} (hp : Quiet p) :
    ¬LetsThrough env (p.bind fun _ => (.raise e : Async V D β)) s w := by
  have hdisk := (hp.run env s w).disk
  have hrun := Machine.run_bind (server env) p (fun _ => (.raise e : Async V D β)) s w
  rcases hp' : (server env).run p s w with ⟨e' | a, s', w'⟩ <;> rw [hp'] at hdisk hrun
  · exact not_letsThrough_of_error hrun hdisk
  · exact not_letsThrough_of_error hrun hdisk

/-! ## Queries of a session without changes -/

/-- A query is answered from the committed database. -/
theorem letsThrough_select_bind {binds : List Bind} {q : RowOrder → Db → α}
    {k : α → Async V D β} :
    LetsThrough env ((select binds q).bind k) {} w ↔
      binds.all Bind.fits ∧ LetsThrough env (k (q (env.rowOrder w.ticks) w.db)) {} w.tick := by
  have hrun := run_select_bind_clean env w binds q k
  by_cases hfits : binds.all Bind.fits
  · rw [if_pos hfits] at hrun
    unfold LetsThrough
    rw [hrun]
    exact (and_iff_right hfits).symm
  · rw [if_neg hfits] at hrun
    exact iff_of_false (not_letsThrough_of_error hrun rfl) fun h => hfits h.1

/-- An object is loaded if its id fits the column. -/
theorem letsThrough_dbGet_bind {id : ℤ} {k : Option (Row t) → Async V D β} :
    LetsThrough env ((dbGet t id).bind k) {} w ↔
      bigint id ∧ LetsThrough env (k (w.db.find? t id)) {} w.tick := by
  have hfits : [Bind.int id].all Bind.fits = bigint id := Bool.and_true _
  rw [← hfits]
  exact letsThrough_select_bind

/-- An object that has to exist. -/
theorem letsThrough_getOrRaise_bind {id : ℤ} {k : Row t → Async V D β} {P : Row t → Prop}
    (hk : ∀ row, w.db.find? t id = some row → (LetsThrough env (k row) {} w.tick ↔ P row)) :
    LetsThrough env ((dbGet t id).bind fun found => (Prog.orRaise e found).bind k) {} w ↔
      ∃ row, w.db.find? t id = some row ∧ P row := by
  rw [letsThrough_dbGet_bind, letsThrough_orRaise_bind]
  constructor
  · rintro ⟨-, row, hfound, h⟩
    exact ⟨row, hfound, (hk row hfound).mp h⟩
  · rintro ⟨row, hfound, h⟩
    exact ⟨bigint_of_find? hfound, row, hfound, (hk row hfound).mpr h⟩

/-- It is enough that the object exists. -/
theorem letsThrough_getOrRaise_isSome {id : ℤ} {k : Row t → Async V D β}
    (hk : ∀ row, LetsThrough env (k row) {} w.tick) :
    LetsThrough env ((dbGet t id).bind fun found => (Prog.orRaise e found).bind k) {} w ↔
      (w.db.find? t id).isSome := by
  rw [Option.isSome_iff_exists, letsThrough_getOrRaise_bind fun row _ => iff_true_intro (hk row)]
  simp only [and_true]

/-- A script that goes on reading. -/
theorem letsThrough_bind_of_reads {p : Async V D α} {k : α → Async V D β} {a : α} {P : Prop}
    (h : Reads env p w a) (hk : ∀ w', Unchanged w w' → (LetsThrough env (k a) {} w' ↔ P)) :
    LetsThrough env (p.bind k) {} w ↔ P := by
  obtain ⟨w', hsame, hrun⟩ := h.run_bind (f := k)
  rw [← hk w' hsame]
  unfold LetsThrough
  rw [hrun, hsame.disk]

/-- A script that refuses. -/
theorem not_letsThrough_of_refuses {p : Async V D α} (h : Refuses env p w) :
    ¬LetsThrough env p {} w := by
  obtain ⟨e, s', w', hrun, hsame⟩ := h
  exact not_letsThrough_of_error hrun hsame.disk

/-- Without changes a flush sends nothing. -/
theorem letsThrough_flush_bind {k : Unit → Async V D β} :
    LetsThrough env (flush.bind k) {} w ↔ LetsThrough env (k ()) {} w.tick := Iff.rfl

/-- The clock. -/
theorem letsThrough_now_bind {k : ℤ → Async V D β} :
    LetsThrough env (now.bind k) s w ↔ LetsThrough env (k (env.clock w.ticks)) s w.tick := Iff.rfl

/-! ## Changes -/

/-- A new row is held back, with the id that the sequence has given it. -/
theorem letsThrough_add_bind {mk : NewRow → Row t} {k : NewRow → Async V D β} :
    LetsThrough env ((add t mk).bind k) s w ↔
      LetsThrough env (k (env.newRow t w))
        { s with pending := s.pending ++ [.insert t (mk (env.newRow t w))] }
        { w.tick with seq := Function.update w.seq t (w.seq t + 1) } := Iff.rfl

/-- A change that nothing follows is never sent. -/
theorem letsThrough_modify {row : Row t} {f : Row t → Row t} :
    LetsThrough env (modify t row f : Async V D Unit) s w := by
  left
  rw [run_modify]
  split
  · exact ⟨(), rfl⟩
  · exact ⟨(), rfl⟩

/-- A row whose deletion nothing sends. -/
theorem letsThrough_delete {row : Row t} :
    LetsThrough env (delete t row : Async V D Unit) s w := .inl ⟨(), rfl⟩

/-- Dropping an entry of the cache, at the end. -/
theorem letsThrough_evict {ns : String} {key : ℤ} :
    LetsThrough env (evict ns key : Async V D Unit) s w := .inl ⟨(), rfl⟩

/-- The change is held back, and the script goes on. -/
theorem letsThrough_modify_bind {row : Row t} {f : Row t → Row t} {k : Unit → Async V D β} :
    LetsThrough env ((modify t row f).bind k) s w ↔
      LetsThrough env (k ())
        { s with pending := s.pending ++ changes t row f ⟨env.dbClock w.ticks, none⟩ } w.tick := by
  unfold LetsThrough changes
  rw [run_modify_bind]
  split
  · rw [List.append_nil]
    exact Iff.rfl
  · exact Iff.rfl

/-- What follows does not depend on the cache. -/
theorem letsThrough_evict_bind {ns : String} {key : ℤ} {k : Unit → Async V D β} {P : Prop}
    (hk : ∀ w', LetsThrough env (k ()) s w' ↔ P) :
    LetsThrough env ((evict ns key).bind k) s w ↔ P := by
  unfold LetsThrough
  rw [Machine.run_bind, run_evict]
  exact hk { w.tick with redis := _ }

/-- **Assignments that are sent** pass if they change nothing. -/
theorem letsThrough_assign {row : Row t} {f : Row t → Row t} {p : Async V D β}
    (hsends : ∀ s, s.pending ≠ [] → ¬LetsThrough env p s w.tick) :
    LetsThrough env ((modify t row f).bind fun _ => p) {} w ↔
      f row = row ∧ LetsThrough env p {} w.tick := by
  rw [letsThrough_modify_bind]
  by_cases hsame : f row = row
  · rw [changes_eq_nil.mpr hsame]
    exact (and_iff_right hsame).symm
  · exact iff_of_false (hsends _ fun hnil => hsame (changes_eq_nil.mp hnil)) fun h => hsame h.1

section Sent

variable (hro : env.settings.appReadOnly = true)

include hro

/-- **Changes are refused** as soon as they are sent. -/
theorem flush_of_readOnly (db : Db) (hpending : s.pending ≠ []) :
    ∃ e s', s.flush env.settings.appReadOnly db = (.error e, s') := by
  unfold Session.flush
  rw [hro, if_pos rfl]
  split
  · exact ⟨_, _, rfl⟩
  · rw [if_neg fun h => hpending (List.isEmpty_iff.mp h)]
    exact ⟨_, _, rfl⟩

/-- A flush sends them. -/
theorem not_letsThrough_flush_bind {k : Unit → Async V D β} (hpending : s.pending ≠ []) :
    ¬LetsThrough env (flush.bind k) s w := by
  obtain ⟨e, s', hflush⟩ := flush_of_readOnly hro w.db hpending
  have hrun := run_flush_bind env s w k
  rw [hflush] at hrun
  exact not_letsThrough_of_error hrun rfl

/-- So does a query. -/
theorem not_letsThrough_select_bind {binds : List Bind} {q : RowOrder → Db → α}
    {k : α → Async V D β} (hpending : s.pending ≠ []) :
    ¬LetsThrough env ((select binds q).bind k) s w := by
  obtain ⟨e, s', hflush⟩ := flush_of_readOnly hro w.db hpending
  have hrun := run_select_bind env s w binds q k
  rw [hflush] at hrun
  exact not_letsThrough_of_error hrun rfl

/-- A new row is never sent. -/
theorem not_letsThrough_add_flush {mk : NewRow → Row t} {k : NewRow → Unit → Async V D β} :
    ¬LetsThrough env ((add t mk).bind fun new => flush.bind (k new)) s w := by
  rw [letsThrough_add_bind]
  exact not_letsThrough_flush_bind hro
    (List.append_ne_nil_of_right_ne_nil _ (List.cons_ne_nil _ _))

/-- Assignments before a flush. -/
theorem letsThrough_assign_flush {row : Row t} {f : Row t → Row t} {k : Unit → Async V D β} :
    LetsThrough env ((modify t row f).bind fun _ => flush.bind k) {} w ↔
      f row = row ∧ LetsThrough env (k ()) {} w.tick.tick :=
  letsThrough_assign fun _ hpending => not_letsThrough_flush_bind hro hpending

/-- Assignments before an object is loaded. -/
theorem letsThrough_assign_dbGet {row : Row t} {f : Row t → Row t} {j : Entity} {id : ℤ}
    {k : Option (Row j) → Async V D β} :
    LetsThrough env ((modify t row f).bind fun _ => (dbGet j id).bind k) {} w ↔
      f row = row ∧ bigint id ∧ LetsThrough env (k (w.db.find? j id)) {} w.tick.tick :=
  (letsThrough_assign fun _ hpending => not_letsThrough_select_bind hro hpending).trans
    (and_congr_right fun _ => letsThrough_dbGet_bind)

end Sent

end Rules

end Rooti
