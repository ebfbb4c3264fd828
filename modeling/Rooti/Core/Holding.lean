import Rooti.Core.Cache
import Rooti.Core.Security
import Rooti.Core.Tenant
import Rooti.Core.Visible

/-!
# Sessions with changes to send

A session holds changes back until a query, a flush or the commit needs them
(`Holds`).  A request is described by what its session has sent when its script
returns and by what it still holds; `serve_holds` says what becomes of both.

## Main definitions

* `Holds` — what a session has sent and what it holds back
* `changes` — the statement of attribute assignments, if they change anything
* `holds_select`, `holds_modify`, `holds_add`, `holds_flush` — the rules
* `serve_holds` — the answer and the database of a request
* `Failing` — scripts that fail for a reason
* `serve_changes` — a request that changes one object
* `Changed`, `Added` — what becomes of a table
* `HoldsAfter` — the same with the number of commands executed

## How it is used

A script is walked through command by command with the rules `holds_*`. Each rule takes
a session that has sent what leads to `d` and holds `ps` back to one that has sent and
holds what follows, and mentions no other part of the state. What the other parts do —
the clock, Redis, the committed database, which nobody else changes meanwhile — is dealt
with in `Holds` once. At the end of the script `serve_holds` commits: what was held back
is applied to `d`, or nothing is kept.

The commonest shape is a request that loads one object, assigns to it and returns
(`serve_changes`); `Changed` and `Added` then say what the table is afterwards, so that
an invariant on rows needs no knowledge of sessions.
-/

namespace Rooti

open Relational Program

variable {V D α β : Type}

/-- **A session with changes to send**: it has not failed, what it has sent takes the
committed database of `w` to `d`, and it holds `ps` back. -/
structure Holds (w : World V D) (d : Db) (ps : List Statement) (s : Session) (w' : World V D) :
    Prop where
  failed : s.failed = false
  pending : s.pending = ps
  written : Dml.applyAll s.written w.db = .ok d
  db : w'.db = w.db
  ticks : w.ticks ≤ w'.ticks

/-- The statement of attribute assignments to `row`. -/
def changes (t : Entity) (row : Row t) (f : Row t → Row t) (now : DateTime) : List Statement :=
  if f row = row then [] else [.update t (keyOf t row) (setUpdatedAt now t ∘ f)]

/-- An object that is as it was is not written. -/
theorem changes_eq_nil {t : Entity} {row : Row t} {f : Row t → Row t} {now : DateTime} :
    changes t row f now = [] ↔ f row = row := by
  unfold changes
  split
  · next hsame => exact iff_of_true rfl hsame
  · next hchange => exact iff_of_false (List.cons_ne_nil _ _) hchange

section Rules

variable {env : Env} {w w' : World V D} {d : Db} {ps : List Statement} {s : Session}

/-- A session starts with nothing sent and nothing held back. -/
theorem holds_start : Holds w w.db [] {} w := ⟨rfl, rfl, rfl, rfl, Nat.le_refl _⟩

/-- Nothing is committed before the end. -/
theorem Holds.uncommitted (h : Holds w d ps s w') : Uncommitted w s w' := h.db

/-- The session sees what it has sent. -/
theorem Holds.view (h : Holds w d ps s w') : s.view w'.db = d := by
  rw [h.db, Session.view, h.written]

/-- Time passes. -/
theorem Holds.tick (h : Holds w d ps s w') : Holds w d ps s w'.tick :=
  ⟨h.failed, h.pending, h.written, h.db, Nat.le_succ_of_le h.ticks⟩

/-- Redis plays no role. -/
theorem Holds.with_redis (h : Holds w d ps s w') (redis : KeyValue.Store String V) :
    Holds w d ps s { w'.tick with redis := redis } :=
  ⟨h.failed, h.pending, h.written, h.db, Nat.le_succ_of_le h.ticks⟩

variable (env) in
/-- The flush of a session with changes to send. -/
theorem Holds.flush (h : Holds w d ps s w') :
    match s.flush env.settings.appReadOnly w'.db with
    | (.ok _, s') => ∃ d', Dml.applyAll (Session.flushOrder ps) d = .ok d' ∧
        Holds w d' [] s' w'.tick
    | (.error _, _) => True := by
  have hflush := exec_flush_cases env none h.failed h.written h.db
  rw [faulty_none, server_exec, exec, h.pending] at hflush
  rcases hs : s.flush env.settings.appReadOnly w'.db with ⟨e | _, s'⟩
  · trivial
  · rw [hs] at hflush
    obtain ⟨d', hd', hsees⟩ := hflush
    exact ⟨d', hd', hsees.1, hsees.2.1, hsees.2.2.1, h.db, Nat.le_succ_of_le h.ticks⟩

/-- **A flush** sends what is held back. -/
theorem holds_flush :
    (server env).Ensures (Holds w d ps) flush
      (fun _ s w' => ∃ d', Dml.applyAll (Session.flushOrder ps) d = .ok d' ∧ Holds w d' [] s w')
      (Uncommitted w) := by
  refine .lift fun s w' h => ?_
  have hflush := h.flush env
  rw [server_exec, exec]
  rcases hs : s.flush env.settings.appReadOnly w'.db with ⟨e | _, s'⟩ <;> rw [hs] at hflush
  · exact h.db
  · exact hflush

/-- **A query** is answered from the database with everything that was held back. -/
theorem holds_select {binds : List Bind} {q : RowOrder → Db → α} :
    (server env).Ensures (Holds w d ps) (select binds q)
      (fun a s w' => ∃ d', (Dml.applyAll (Session.flushOrder ps) d = .ok d' ∧
        binds.all Bind.fits ∧ ∃ o, a = q o d') ∧ Holds w d' [] s w')
      (Uncommitted w) := by
  refine .lift fun s w' h => ?_
  have hflush := h.flush env
  rw [server_exec, exec, execSelect]
  rcases hs : s.flush env.settings.appReadOnly w'.db with ⟨e | _, s'⟩ <;> rw [hs] at hflush
  · exact h.db
  · obtain ⟨d', hd', hholds⟩ := hflush
    by_cases hbinds : binds.all Bind.fits
    · simp only [hbinds, if_true]
      exact ⟨d', ⟨hd', trivial, _, congrArg _ hholds.view⟩, hholds⟩
    · simp only [hbinds]
      exact h.db

/-- A query of a session that holds nothing back. -/
theorem holds_query {binds : List Bind} {q : RowOrder → Db → α} :
    (server env).Ensures (Holds w d []) (select binds q)
      (fun a s w' => (binds.all Bind.fits ∧ ∃ o, a = q o d) ∧ Holds w d [] s w')
      (Uncommitted w) := by
  refine holds_select.weaken (fun _ _ h => h) ?_ fun _ _ h => h
  rintro a s w' ⟨d', ⟨hd', hbinds, ha⟩, h⟩
  cases hd'
  exact ⟨⟨hbinds, ha⟩, h⟩

/-- An object is loaded by a session that holds nothing back. -/
theorem holds_dbGet {t : Entity} {id : ℤ} :
    (server env).Ensures (Holds w d []) (dbGet t id)
      (fun a s w' => a = d.find? t id ∧ Holds w d [] s w') (Uncommitted w) :=
  holds_query.weaken (fun _ _ h => h) (fun _ _ _ h => ⟨h.1.2.choose_spec, h.2⟩) fun _ _ h => h

/-- An object that has to exist. -/
theorem holds_getOrRaise {t : Entity} {id : ℤ} {e : Err} :
    (server env).Ensures (Holds w d []) ((dbGet t id).bind (Prog.orRaise e))
      (fun row s w' => d.find? t id = some row ∧ Holds w d [] s w') (Uncommitted w) := by
  refine holds_dbGet.bind fun found => .of_and ?_
  rintro rfl
  exact .orRaise (fun row hrow _ _ h => ⟨hrow, h⟩) fun _ _ _ h => h.uncommitted

/-- Attribute assignments do not fail, and are stamped by the clock of the database. -/
theorem ensures_modify {t : Entity} {row : Row t} {f : Row t → Row t}
    {R : Session → World V D → Prop} :
    (server env).Ensures (Holds w d ps) (modify t row f)
      (fun _ s w' => ∃ n, Holds w d (ps ++ changes t row f ⟨env.dbClock n, none⟩) s w') R := by
  refine .lift fun s w' h => ?_
  rw [server_exec, exec]
  by_cases hf : f row = row
  · rw [if_pos hf]
    refine ⟨0, ?_⟩
    rw [changes, if_pos hf, List.append_nil]
    exact h.tick
  · rw [if_neg hf]
    refine ⟨w'.ticks, h.failed, ?_, h.written, h.db, Nat.le_succ_of_le h.ticks⟩
    rw [changes, if_neg hf, ← h.pending]

/-- **Attribute assignments** are held back. -/
theorem holds_modify {t : Entity} {row : Row t} {f : Row t → Row t} :
    (server env).Ensures (Holds w d ps) (modify t row f)
      (fun _ s w' => ∃ now, Holds w d (ps ++ changes t row f now) s w') (Uncommitted w) :=
  ensures_modify.weaken (fun _ _ h => h) (fun _ _ _ ⟨_, h⟩ => ⟨_, h⟩) fun _ _ h => h

/-- **A new object** is held back. -/
theorem holds_add {t : Entity} {mk : NewRow → Row t} :
    (server env).Ensures (Holds w d ps) (add t mk)
      (fun new s w' => Holds w d (ps ++ [.insert t (mk new)]) s w') (Uncommitted w) := by
  refine .lift fun s w' h => ?_
  rw [server_exec, exec]
  exact ⟨h.failed, by rw [← h.pending], h.written, h.db, Nat.le_succ_of_le h.ticks⟩

/-- A token or model is put into Redis. -/
theorem holds_redisSet {key : String} {v : V} {ex : ℤ} :
    (server env).Ensures (Holds w d ps) (redisSet key v ex : Async V D Unit)
      (fun _ s w' => Holds w d ps s w') (Uncommitted w) := by
  refine .lift fun s w' h => ?_
  rw [server_exec, exec]
  by_cases hex : ex ≤ 0
  · rw [if_pos hex]
    exact h.db
  · rw [if_neg hex]
    exact h.with_redis _

/-- The wall clock is read. -/
theorem holds_now :
    (server env).Ensures (Holds w d ps) (now : Async V D ℤ) (fun _ s w' => Holds w d ps s w')
      (Uncommitted w) := .lift fun _ _ h => h.tick

/-- A salt is drawn. -/
theorem holds_gensalt :
    (server env).Ensures (Holds w d ps) (gensalt : Async V D ℕ)
      (fun _ s w' => Holds w d ps s w') (Uncommitted w) := .lift fun _ _ h => h.tick

/-- A password is hashed. -/
theorem holds_hashPassword {bcrypt : Bcrypt} {plain : String} :
    (server env).Ensures (Holds w d ps) (hashPassword bcrypt plain : Async V D String)
      (fun _ s w' => Holds w d ps s w') (Uncommitted w) :=
  holds_gensalt.bind fun _ => .ret fun _ _ h => h

/-- An entry is dropped from Redis. -/
theorem holds_evict {κ : Type} [ToString κ] {ns : String} {key : κ} :
    (server env).Ensures (Holds w d ps) (evict ns key : Async V D Unit)
      (fun _ s w' => Holds w d ps s w') (Uncommitted w) := by
  refine .handle (M := fun _ _ => False) (.lift fun _ _ h => h.with_redis _) fun _ => ?_
  exact .ret fun _ _ h => h.elim

/-- A computation that may fail. -/
theorem holds_ofExcept {r : Except Err α} :
    (server env).Ensures (Holds w d ps) (Prog.ofExcept r : Async V D α)
      (fun a s w' => r = .ok a ∧ Holds w d ps s w') (Uncommitted w) := by
  cases r with
  | ok a => exact .ret fun _ _ h => ⟨rfl, h⟩
  | error e => exact .raise fun _ _ h => h.uncommitted

/-- A check. -/
theorem holds_raiseIf {b : Bool} {e : Err} :
    (server env).Ensures (Holds w d ps) (Prog.raiseIf b e : Async V D Unit)
      (fun _ s w' => b = false ∧ Holds w d ps s w') (Uncommitted w) :=
  .raiseIf (fun hb _ _ h => ⟨hb, h⟩) fun _ _ _ h => h.uncommitted

/-- A value that has to be there. -/
theorem holds_orRaise {o : Option α} {e : Err} :
    (server env).Ensures (Holds w d ps) (Prog.orRaise e o : Async V D α)
      (fun a s w' => o = some a ∧ Holds w d ps s w') (Uncommitted w) :=
  .orRaise (fun _ ha _ _ h => ⟨ha, h⟩) fun _ _ _ h => h.uncommitted

/-- The company is in scope. -/
theorem holds_assertCompany {scope : CompanyScopeValue} {companyId : ℤ} :
    (server env).Ensures (Holds w d ps) (assertCompany scope (some companyId))
      (fun _ s w' => scope.all (companyId = ·) ∧ Holds w d ps s w') (Uncommitted w) := by
  refine holds_raiseIf.weaken (fun _ _ h => h) (fun _ _ _ h => ⟨?_, h.2⟩) fun _ _ h => h
  cases scope with
  | none => rfl
  | some c => simpa using h.1

/-- At most one row. -/
theorem holds_scalarOneOrNone {l : List α} :
    (server env).Ensures (Holds w d ps) (scalarOneOrNone l : Async V D (Option α))
      (fun o s w' => l = o.toList ∧ Holds w d ps s w') (Uncommitted w) :=
  ensures_scalarOneOrNone (fun _ hl _ _ h => ⟨hl, h⟩) fun _ _ h => h.uncommitted

/-- **An object that is added and flushed.** -/
theorem holds_insert {t : Entity} {mk : NewRow → Row t} {k : NewRow → Async V D β}
    {Q : β → Session → World V D → Prop}
    (hk : ∀ new d', (Dml.insert t (mk new) : Statement).apply d = .ok d' →
      (server env).Ensures (Holds w d' []) (k new) Q (Uncommitted w)) :
    (server env).Ensures (Holds w d [])
      (Prog.bind (add t mk) fun new => Prog.bind flush fun _ => k new) Q (Uncommitted w) := by
  refine holds_add.bind fun new => holds_flush.bind fun _ => .of_exists fun d' => .of_and ?_
  intro hd'
  exact hk new d' ((Dml.applyAll_singleton _ _).symm.trans hd')

/-- The clock. -/
theorem holds_datetimeNow :
    (server env).Ensures (Holds w d ps) (datetimeNow env : Async V D DateTime)
      (fun _ s w' => Holds w d ps s w') (Uncommitted w) :=
  holds_now.bind fun _ => .ret fun _ _ h => h

/-! ## Scripts that fail for a reason -/

/-- A script that has failed, because of `ψ`. -/
def Failing (w : World V D) (ψ : Prop) (s : Session) (w' : World V D) : Prop :=
  Uncommitted w s w' ∧ ψ

/-- A flush that succeeds. -/
theorem Holds.flush_ok (h : Holds w d ps s w') {d' : Db}
    (hro : ps ≠ [] → env.settings.appReadOnly = false)
    (hd' : Dml.applyAll (Session.flushOrder ps) d = .ok d') :
    ∃ s', s.flush env.settings.appReadOnly w'.db = (.ok (), s') ∧ Holds w d' [] s' w'.tick := by
  have hflush := h.flush env
  rcases hs : s.flush env.settings.appReadOnly w'.db with ⟨e | _, s'⟩ <;> rw [hs] at hflush
  · exfalso
    by_cases hps : ps = []
    · have hnothing : s.flush env.settings.appReadOnly w'.db = (.ok (), s) := by
        simp [Session.flush, h.failed, h.pending, hps]
      cases hs.symm.trans hnothing
    · have hwritten : Dml.applyAll s.written w'.db = .ok d := by
        rw [h.db]
        exact h.written
      rw [← h.pending] at hd'
      rw [hro hps, flush_pending h.failed hwritten hd'] at hs
      cases hs
  · obtain ⟨d'', hd'', hholds⟩ := hflush
    cases hd'.symm.trans hd''
    exact ⟨s', rfl, hholds⟩

section Failing

variable {ψ : Prop}

/-- A query fails for a reason only. -/
theorem failing_select {binds : List Bind} {q : RowOrder → Db → α}
    (hok : ¬ψ → (ps ≠ [] → env.settings.appReadOnly = false) ∧ binds.all Bind.fits ∧
      ∃ d', Dml.applyAll (Session.flushOrder ps) d = .ok d') :
    (server env).Ensures (Holds w d ps) (select binds q)
      (fun a s w' => ∃ d', (Dml.applyAll (Session.flushOrder ps) d = .ok d' ∧
        binds.all Bind.fits ∧ ∃ o, a = q o d') ∧ Holds w d' [] s w')
      (Failing w ψ) := by
  refine .lift fun s w' h => ?_
  have hflush := h.flush env
  rw [server_exec, exec, execSelect]
  rcases hs : s.flush env.settings.appReadOnly w'.db with ⟨e | _, s'⟩ <;> rw [hs] at hflush
  · refine ⟨h.db, by_contra fun hψ => ?_⟩
    obtain ⟨hro, -, d', hd'⟩ := hok hψ
    obtain ⟨s'', hs', -⟩ := h.flush_ok hro hd'
    cases hs.symm.trans hs'
  · obtain ⟨d', hd', hholds⟩ := hflush
    by_cases hbinds : binds.all Bind.fits
    · simp only [hbinds, if_true]
      exact ⟨d', ⟨hd', trivial, _, congrArg _ hholds.view⟩, hholds⟩
    · simp only [hbinds]
      exact ⟨h.db, by_contra fun hψ => hbinds (hok hψ).2.1⟩

/-- An object is loaded, unless its key does not fit. -/
theorem failing_dbGet {t : Entity} {id : ℤ} (hok : ¬ψ → bigint id) :
    (server env).Ensures (Holds w d []) (dbGet t id)
      (fun a s w' => (a = d.find? t id ∧ bigint id) ∧ Holds w d [] s w') (Failing w ψ) := by
  have hfits : [Bind.int id].all Bind.fits = bigint id := Bool.and_true _
  refine (failing_select fun hψ => ⟨fun h => absurd rfl h, hfits.trans (hok hψ), d, rfl⟩).weaken
    (fun _ _ h => h) ?_ fun _ _ h => h
  rintro a s w' ⟨d', ⟨hd', hbinds, -, rfl⟩, h⟩
  cases hd'
  exact ⟨⟨rfl, hfits.symm.trans hbinds⟩, h⟩

end Failing

/-! ## What the assignments do -/

/-- A single statement has only one order. -/
theorem flushOrder_changes (t : Entity) (row : Row t) (f : Row t → Row t) (now : DateTime) :
    Session.flushOrder (changes t row f now) = changes t row f now := by
  unfold changes
  split <;> rfl

/-- **The row with the key has been changed**, and nothing else. -/
structure Changed (t : Entity) (id : ℤ) (f : Row t → Row t) (db db' : Db) : Prop where
  rows : db'.rows t = (db.rows t).map fun r => if keyOf t r = id then f r else r
  others : ∀ j, j ≠ t → db'.table j = db.table j

namespace Changed

variable {t : Entity} {id : ℤ} {f : Row t → Row t} {db db' : Db} {r x : Row t}

/-- Where a row comes from. -/
theorem of_mem (h : Changed t id f db db') (hx : x ∈ db'.rows t) :
    ∃ r ∈ db.rows t, (keyOf t r = id ∧ x = f r) ∨ (keyOf t r ≠ id ∧ x = r) := by
  rw [h.rows, List.mem_map] at hx
  obtain ⟨r, hr, rfl⟩ := hx
  by_cases hid : keyOf t r = id
  · exact ⟨r, hr, .inl ⟨hid, if_pos hid⟩⟩
  · exact ⟨r, hr, .inr ⟨hid, if_neg hid⟩⟩

/-- The row with the key, changed. -/
theorem mem_of_eq (h : Changed t id f db db') (hr : r ∈ db.rows t) (hid : keyOf t r = id) :
    f r ∈ db'.rows t := by
  rw [h.rows]
  exact List.mem_map.mpr ⟨r, hr, if_pos hid⟩

/-- The other rows. -/
theorem mem_of_ne (h : Changed t id f db db') (hr : r ∈ db.rows t) (hid : keyOf t r ≠ id) :
    r ∈ db'.rows t := by
  rw [h.rows]
  exact List.mem_map.mpr ⟨r, hr, if_neg hid⟩

/-- The rows of another table. -/
theorem rows_of_ne (h : Changed t id f db db') {j : Entity} (hj : j ≠ t) :
    db'.rows j = db.rows j := congrArg Table.rows (h.others j hj)

end Changed

/-- Attribute assignments that were sent. -/
theorem changed_of_applyAll {t : Entity} {row : Row t} {f : Row t → Row t} {now : DateTime}
    {d' : Db} (hrow : row ∈ d.rows t) (hstamp : ∀ r, setUpdatedAt now t r = r)
    (h : Dml.applyAll (Session.flushOrder (changes t row f now)) d = .ok d') :
    Changed t (keyOf t row) f d d' := by
  rw [flushOrder_changes, changes] at h
  split at h
  · next hf =>
      cases h
      refine ⟨((List.map_congr_left fun r hr => ?_).trans (List.map_id _)).symm, fun _ _ => rfl⟩
      split
      · next hkey =>
          rw [Table.eq_of_key hr hrow hkey]
          exact hf
      · rfl
  · rw [Dml.applyAll_singleton] at h
    obtain ⟨-, hrows, hothers⟩ := Dml.update_ok h
    refine ⟨hrows.trans (List.map_congr_left fun r _ => ?_), hothers⟩
    simp only [Function.comp_apply, hstamp]
    rfl

/-- One change after another of the same row. -/
theorem Changed.trans {t : Entity} {id : ℤ} {f g : Row t → Row t} {db db' db'' : Db}
    (hf : ∀ r, keyOf t (f r) = keyOf t r) (h : Changed t id f db db')
    (h' : Changed t id g db' db'') : Changed t id (g ∘ f) db db'' where
  rows := by
    rw [h'.rows, h.rows, List.map_map]
    refine List.map_congr_left fun r _ => ?_
    by_cases hid : keyOf t r = id
    · simp [hid, hf]
    · simp [hid]
  others j hj := (h'.others j hj).trans (h.others j hj)

/-- The assignments of two parts of a request, sent together. -/
theorem flushOrder_both {t : Entity} {row : Row t} {f g : Row t → Row t} {now now' : DateTime}
    (hf : keyOf t (f row) = keyOf t row) :
    Session.flushOrder (changes t row f now ++ changes t (f row) g now') =
      changes t row f now ++ changes t (f row) g now' := by
  unfold changes
  split_ifs
  · rfl
  · rfl
  · rfl
  · simp [Session.flushOrder, Session.byKey, Session.rowKey, List.insertionSort,
      List.orderedInsert, hf]

/-- **Rows that satisfy `P` have been added to a table**, and nothing else. -/
structure Added (t : Entity) (P : Row t → Prop) (db db' : Db) : Prop where
  rows : ∃ new, db'.rows t = db.rows t ++ new ∧ ∀ r ∈ new, P r
  others : ∀ j, j ≠ t → db'.table j = db.table j

namespace Added

variable {t : Entity} {P Q : Row t → Prop} {db db' db'' : Db} {r x : Row t}

/-- No rows have been added. -/
theorem refl : Added t P db db :=
  ⟨⟨[], (List.append_nil _).symm, fun r hr => by cases hr⟩, fun _ _ => rfl⟩

/-- Rows have been added twice. -/
theorem trans (h : Added t P db db') (h' : Added t P db' db'') : Added t P db db'' := by
  obtain ⟨⟨new, hnew, hP⟩, hothers⟩ := h
  obtain ⟨⟨new', hnew', hP'⟩, hothers'⟩ := h'
  refine ⟨⟨new ++ new', ?_, fun r hr => ?_⟩, fun j hj => (hothers' j hj).trans (hothers j hj)⟩
  · rw [hnew', hnew, List.append_assoc]
  · exact (List.mem_append.mp hr).elim (hP r) (hP' r)

/-- The rows that were added satisfy what follows from `P`. -/
theorem mono (h : Added t P db db') (hPQ : ∀ r, P r → Q r) : Added t Q db db' := by
  obtain ⟨⟨new, hnew, hP⟩, hothers⟩ := h
  exact ⟨⟨new, hnew, fun r hr => hPQ r (hP r hr)⟩, hothers⟩

/-- One row has been sent. -/
theorem of_insert (h : (Dml.insert t r : Statement).apply db = .ok db') (hr : P r) :
    Added t P db db' := by
  obtain ⟨hrows, -, hothers⟩ := Dml.insert_ok h
  exact ⟨⟨[r], hrows, fun x hx => List.mem_singleton.mp hx ▸ hr⟩, hothers⟩

/-- Rows sent one after the other. -/
theorem of_inserts {ds : List Statement} (hds : ∀ d ∈ ds, ∃ r, P r ∧ d = .insert t r)
    (h : Dml.applyAll ds db = .ok db') : Added t P db db' := by
  induction ds generalizing db with
  | nil =>
      cases h
      exact refl
  | cons d ds ih =>
      obtain ⟨db₁, hd, hrest⟩ := Dml.applyAll_cons_eq_ok.mp h
      rw [List.forall_mem_cons] at hds
      obtain ⟨⟨r, hr, rfl⟩, hds⟩ := hds
      exact (of_insert hd hr).trans (ih hds hrest)

/-- Rows sent by a flush. -/
theorem of_flush {ps : List Statement} (hps : ∀ d ∈ ps, ∃ r, P r ∧ d = .insert t r)
    (h : Dml.applyAll (Session.flushOrder ps) db = .ok db') : Added t P db db' :=
  of_inserts (fun d hd => hps d ((Session.flushOrder_perm ps).mem_iff.mp hd)) h

/-- A row was there before, or it is one of those added. -/
theorem of_mem (h : Added t P db db') (hx : x ∈ db'.rows t) : x ∈ db.rows t ∨ P x := by
  obtain ⟨new, hnew, hP⟩ := h.rows
  rw [hnew, List.mem_append] at hx
  exact hx.imp_right (hP x)

/-- No row is lost. -/
theorem mem (h : Added t P db db') (hr : r ∈ db.rows t) : r ∈ db'.rows t := by
  obtain ⟨new, hnew, -⟩ := h.rows
  rw [hnew]
  exact List.mem_append_left _ hr

/-- The rows of another table. -/
theorem rows_of_ne (h : Added t P db db') {j : Entity} (hj : j ≠ t) :
    db'.rows j = db.rows j := congrArg Table.rows (h.others j hj)

theorem find?_of_ne (h : Added t P db db') {j : Entity} (hj : j ≠ t) (k : ℤ) :
    db'.find? j k = db.find? j k := by
  unfold Database.find?
  rw [h.others j hj]

/-- What was found is found. -/
theorem find? (h : Added t P db db') {j : Entity} {id : ℤ} {row : Row j}
    (hrow : db.find? j id = some row) : db'.find? j id = some row := by
  by_cases hj : j = t
  · subst hj
    exact Table.find?_eq_some.mpr ⟨h.mem (Table.find?_mem hrow), Table.find?_key hrow⟩
  · unfold Database.find? at hrow ⊢
    rw [h.others j hj]
    exact hrow

end Added

/-- A row found after its table has been changed. -/
theorem Changed.find? {t : Entity} {id : ℤ} {f : Row t → Row t} {db db' : Db}
    (h : Changed t id f db db') (hf : ∀ r, keyOf t (f r) = keyOf t r) (k : ℤ) :
    db'.find? t k = (db.find? t k).map fun r => if k = id then f r else r := by
  refine Option.ext fun x => ?_
  rw [Option.map_eq_some_iff]
  constructor
  · intro hx
    obtain ⟨r, hr, ⟨hid, rfl⟩ | ⟨hid, rfl⟩⟩ := h.of_mem (Table.find?_mem hx)
    · have hk : keyOf t r = k := (hf r).symm.trans (Table.find?_key hx)
      exact ⟨r, Table.find?_eq_some.mpr ⟨hr, hk⟩, if_pos (hk.symm.trans hid)⟩
    · have hk : keyOf t x = k := Table.find?_key hx
      exact ⟨x, Table.find?_eq_some.mpr ⟨hr, hk⟩, if_neg fun hkid => hid (hk.trans hkid)⟩
  · rintro ⟨r, hr, rfl⟩
    have hmem := Table.find?_mem hr
    have hk : keyOf t r = k := Table.find?_key hr
    by_cases hid : k = id
    · rw [if_pos hid]
      exact Table.find?_eq_some.mpr ⟨h.mem_of_eq hmem (hk.trans hid), (hf r).trans hk⟩
    · rw [if_neg hid]
      exact Table.find?_eq_some.mpr ⟨h.mem_of_ne hmem fun hkid => hid (hk.symm.trans hkid), hk⟩

/-- A row of another table. -/
theorem Changed.find?_of_ne {t j : Entity} {id : ℤ} {f : Row t → Row t} {db db' : Db}
    (h : Changed t id f db db') (hj : j ≠ t) (k : ℤ) : db'.find? j k = db.find? j k := by
  unfold Database.find?
  rw [h.others j hj]

/-! ## Counting commands -/

/-- A session that has executed `n` commands. -/
def HoldsAfter (n : ℕ) (w : World V D) (d : Db) (ps : List Statement) (s : Session)
    (w' : World V D) : Prop := w'.ticks = w.ticks + n ∧ Holds w d ps s w'

/-- No command has been executed. -/
theorem holdsAfter_start : HoldsAfter 0 w w.db [] {} w := ⟨rfl, holds_start⟩

/-- **Every command counts once.** -/
theorem ensures_counted {n : ℕ} {c : Cmd V D α} {P R : Session → World V D → Prop} {φ : α → Prop}
    {Q : α → Session → World V D → Prop}
    (h : (server env).Ensures P (Prog.lift c) (fun a s w' => φ a ∧ Q a s w') R) :
    (server env).Ensures (fun s w' => w'.ticks = n ∧ P s w') (Prog.lift c)
      (fun a s w' => φ a ∧ w'.ticks = n + 1 ∧ Q a s w') R := by
  refine .lift fun s w' ⟨hn, hP⟩ => ?_
  have hticks := exec_ticks env s w' c
  have hc := h s w' hP
  rw [Machine.run_lift] at hc
  rw [server_exec] at hc ⊢
  rcases hexec : exec env c s w' with ⟨e | a, s', w''⟩ <;> rw [hexec] at hc hticks
  · exact hc
  · exact ⟨hc.1, hticks.trans (congrArg (· + 1) hn), hc.2⟩

/-- A query is one command. -/
theorem holdsAfter_query {n : ℕ} {binds : List Bind} {q : RowOrder → Db → α} :
    (server env).Ensures (HoldsAfter n w d []) (select binds q)
      (fun a s w' => (binds.all Bind.fits ∧ ∃ o, a = q o d) ∧ HoldsAfter (n + 1) w d [] s w')
      (Uncommitted w) := ensures_counted holds_query

/-- So is loading an object. -/
theorem holdsAfter_dbGet {n : ℕ} {t : Entity} {id : ℤ} :
    (server env).Ensures (HoldsAfter n w d []) (dbGet t id)
      (fun a s w' => a = d.find? t id ∧ HoldsAfter (n + 1) w d [] s w') (Uncommitted w) :=
  ensures_counted holds_dbGet

/-- A value that has to be there costs no command. -/
theorem holdsAfter_orRaise {n : ℕ} {o : Option α} {e : Err} :
    (server env).Ensures (HoldsAfter n w d ps) (Prog.orRaise e o : Async V D α)
      (fun a s w' => o = some a ∧ HoldsAfter n w d ps s w') (Uncommitted w) :=
  .orRaise (fun _ ha _ _ h => ⟨ha, h⟩) fun _ _ _ h => h.2.uncommitted

/-- An object that has to exist is one command. -/
theorem holdsAfter_getOrRaise {n : ℕ} {t : Entity} {id : ℤ} {e : Err} :
    (server env).Ensures (HoldsAfter n w d []) ((dbGet t id).bind (Prog.orRaise e))
      (fun row s w' => d.find? t id = some row ∧ HoldsAfter (n + 1) w d [] s w')
      (Uncommitted w) := by
  refine holdsAfter_dbGet.bind fun found => .of_and ?_
  rintro rfl
  exact holdsAfter_orRaise

/-- The clock shows the time of its command. -/
theorem holdsAfter_utcNow {n : ℕ} :
    (server env).Ensures (HoldsAfter n w d ps) (utcNow : Async V D DateTime)
      (fun t s w' => t = ⟨env.clock (w.ticks + n), none⟩ ∧ HoldsAfter (n + 1) w d ps s w')
      (Uncommitted w) := by
  intro s w' ⟨hticks, hholds⟩
  show (⟨env.clock w'.ticks, none⟩ : DateTime) = ⟨env.clock (w.ticks + n), none⟩ ∧
    HoldsAfter (n + 1) w d ps s w'.tick
  exact ⟨by rw [hticks], congrArg (· + 1) hticks, hholds.tick⟩

/-- Looking at the rows of an answer costs no command. -/
theorem holdsAfter_scalarOneOrNone {n : ℕ} {l : List α} :
    (server env).Ensures (HoldsAfter n w d ps) (scalarOneOrNone l : Async V D (Option α))
      (fun o s w' => l = o.toList ∧ HoldsAfter n w d ps s w') (Uncommitted w) :=
  ensures_scalarOneOrNone (fun _ hl _ _ h => ⟨hl, h⟩) fun _ _ h => h.2.uncommitted

/-! ## Requests -/

/-- What becomes of a request whose script has returned: in read-only mode its session
has sent nothing, and nothing is kept; otherwise what it held back is sent. -/
def Kept (env : Env) (w : World V D) (d : Db) (ps : List Statement) (db' : Db) : Prop :=
  (env.settings.appReadOnly = true ∧ d = w.db ∧ db' = w.db) ∨
    (env.settings.appReadOnly = false ∧ Dml.applyAll (Session.flushOrder ps) d = .ok db')

/-- In read-only mode nothing is kept. -/
theorem db_of_readOnly (hro : env.settings.appReadOnly = true) (p : Async V D α) (w : World V D) :
    (serve env p w).2.db = w.db := by
  have hkeeps : (faulty env none).Keeps (fun s w' => s.written = [] ∧ w'.db = w.db)
    (getDbSession env p) := keeps_readOnly hro _
  rw [faulty_none] at hkeeps
  exact (hkeeps.run (l := {}) (s := w) ⟨rfl, rfl⟩).2

/-- A session that holds nothing back leaves what it has sent. -/
theorem Kept.eq {db' : Db} (h : Kept env w d [] db') : db' = d := by
  obtain ⟨-, rfl, rfl⟩ | ⟨-, happly⟩ := h
  · rfl
  · cases happly
    rfl

/-- **A request**: it is refused and changes nothing, or its script has returned and its
changes are kept. -/
theorem serve_holdsAfter {p : Async V D α} {φ : α → Db → List Statement → Prop}
    (hp : (server env).Ensures (HoldsAfter 0 w w.db []) p
      (fun a s w' => ∃ d ps, φ a d ps ∧ Holds w d ps s w') (Uncommitted w)) :
    ((∃ e, (serve env p w).1 = .error e) ∧ (serve env p w).2.db = w.db) ∨
      ∃ a d ps, (serve env p w).1 = .ok a ∧ φ a d ps ∧
        Kept env w d ps (serve env p w).2.db := by
  obtain ⟨e, s, w', hrun, hdb⟩ | ⟨a, s, w', hrun, d, ps, hφ, hholds⟩ := hp.run_cases holdsAfter_start
  · left
    rw [serve_of_error hrun]
    exact ⟨⟨e, rfl⟩, hdb⟩
  · have hwritten : Dml.applyAll s.written w'.db = .ok d := by
      rw [hholds.db]
      exact hholds.written
    have hrun' : (faulty env none).run p {} w = (.ok a, s, w') := hrun
    rw [← serveFaulty_none]
    obtain ⟨hro, hserve⟩ | ⟨hro, ⟨e, hserve, -⟩ | ⟨-, d', hd', hserve⟩⟩ :=
      serveFaulty_of_ok hrun' hholds.failed hwritten
    · right
      have hkeeps : (faulty env none).Keeps (fun s w' => s.written = [] ∧ w'.db = w.db) p :=
        keeps_readOnly hro p
      have hsent := hkeeps.run (l := {}) (s := w) ⟨rfl, rfl⟩
      rw [faulty_none, hrun] at hsent
      have hd := hholds.written
      rw [hsent.1] at hd
      cases hd
      rw [hserve]
      exact ⟨a, w.db, ps, rfl, hφ, .inl ⟨hro, rfl, hholds.db⟩⟩
    · left
      rw [hserve]
      exact ⟨⟨e, rfl⟩, hholds.db⟩
    · right
      rw [hserve]
      rw [hholds.pending] at hd'
      exact ⟨a, d, ps, rfl, hφ, .inr ⟨hro, hd'⟩⟩

/-- A request whose commands are not counted. -/
theorem serve_holds {p : Async V D α} {φ : α → Db → List Statement → Prop}
    (hp : (server env).Ensures (Holds w w.db []) p
      (fun a s w' => ∃ d ps, φ a d ps ∧ Holds w d ps s w') (Uncommitted w)) :
    ((∃ e, (serve env p w).1 = .error e) ∧ (serve env p w).2.db = w.db) ∨
      ∃ a d ps, (serve env p w).1 = .ok a ∧ φ a d ps ∧
        Kept env w d ps (serve env p w).2.db :=
  serve_holdsAfter (hp.weaken (fun _ _ h => h.2) (fun _ _ _ h => h) fun _ _ h => h)

/-- **A request that holds nothing back at its end** is refused with `ψ`, or leaves what it
has sent. -/
theorem serve_settled {p : Async V D α} {P : Session → World V D → Prop}
    {φ : α → Db → Prop} {ψ : Prop} (hstart : P {} w)
    (hp : (server env).Ensures P p (fun a s w' => ∃ d, φ a d ∧ Holds w d [] s w')
      (Failing w ψ)) :
    (ψ ∧ (∃ e, (serve env p w).1 = .error e) ∧ (serve env p w).2.db = w.db) ∨
      ∃ a, (serve env p w).1 = .ok a ∧ φ a (serve env p w).2.db := by
  obtain ⟨e, s, w', hrun, hdb, hψ⟩ | ⟨a, s, w', hrun, d, hφ, hholds⟩ := hp.run_cases hstart
  · left
    rw [serve_of_error hrun]
    exact ⟨hψ, ⟨e, rfl⟩, hdb⟩
  · right
    have hwritten : Dml.applyAll s.written w'.db = .ok d := by
      rw [hholds.db]
      exact hholds.written
    have hnothing : Dml.applyAll (Session.flushOrder s.pending) d = .ok d := by
      rw [hholds.pending]
      rfl
    have hrun' : (faulty env none).run p {} w = (.ok a, s, w') := hrun
    rw [← serveFaulty_none]
    obtain ⟨hro, hserve⟩ | ⟨-, ⟨e, -, ⟨e', hnone⟩ | ⟨v, hv⟩⟩ | ⟨-, d', hd', hserve⟩⟩ :=
      serveFaulty_of_ok hrun' hholds.failed hwritten
    · have hkeeps : (faulty env none).Keeps (fun s w' => s.written = [] ∧ w'.db = w.db) p :=
        keeps_readOnly hro p
      have hsent := hkeeps.run (l := {}) (s := w) ⟨rfl, rfl⟩
      rw [faulty_none, hrun] at hsent
      have hd := hholds.written
      rw [hsent.1] at hd
      cases hd
      rw [hserve]
      refine ⟨a, rfl, ?_⟩
      rw [World.tick_db, hholds.db]
      exact hφ
    · cases hnone
    · cases hnothing.symm.trans hv
    · cases hnothing.symm.trans hd'
      rw [hserve]
      exact ⟨a, rfl, hφ⟩

/-- A request that is refused for any reason, or leaves what it has sent. -/
theorem serve_sentFrom {p : Async V D α} {P : Session → World V D → Prop} {φ : α → Db → Prop}
    (hstart : P {} w)
    (hp : (server env).Ensures P p (fun a s w' => ∃ d, φ a d ∧ Holds w d [] s w')
      (Uncommitted w)) :
    ((∃ e, (serve env p w).1 = .error e) ∧ (serve env p w).2.db = w.db) ∨
      ∃ a, (serve env p w).1 = .ok a ∧ φ a (serve env p w).2.db :=
  (serve_settled (ψ := True) hstart (hp.weaken (fun _ _ h => h) (fun _ _ _ h => h)
    fun _ _ h => ⟨h, trivial⟩)).imp_left And.right

/-- A request that starts with an empty session and holds nothing back at its end. -/
theorem serve_sent {p : Async V D α} {φ : α → Db → Prop}
    (hp : (server env).Ensures (Holds w w.db []) p
      (fun a s w' => ∃ d, φ a d ∧ Holds w d [] s w') (Uncommitted w)) :
    ((∃ e, (serve env p w).1 = .error e) ∧ (serve env p w).2.db = w.db) ∨
      ∃ a, (serve env p w).1 = .ok a ∧ φ a (serve env p w).2.db := serve_sentFrom holds_start hp

/-- **A request that changes one object**: the object with the key is loaded, and its
assignments are what the request holds back at its end. -/
theorem serve_changes {p : Async V D α} {t : Entity} {id : ℤ} {f : Row t → Row t}
    (hstamp : ∀ now r, setUpdatedAt now t r = r)
    (hp : (server env).Ensures (Holds w w.db []) p
      (fun _ s w' => ∃ row now, w.db.find? t id = some row ∧
        Holds w w.db (changes t row f now) s w') (Uncommitted w)) :
    ((∃ e, (serve env p w).1 = .error e) ∧ (serve env p w).2.db = w.db) ∨
      (∃ a, (serve env p w).1 = .ok a) ∧ (∃ row, w.db.find? t id = some row) ∧
        ((env.settings.appReadOnly = true ∧ (serve env p w).2.db = w.db) ∨
          Changed t id f w.db (serve env p w).2.db) := by
  have hscript : (server env).Ensures (Holds w w.db []) p
      (fun _ s w' => ∃ d ps, (d = w.db ∧ ∃ row now, w.db.find? t id = some row ∧
        ps = changes t row f now) ∧ Holds w d ps s w') (Uncommitted w) :=
    hp.weaken (fun _ _ h => h) (fun _ _ _ ⟨row, now, hfound, h⟩ =>
      ⟨w.db, _, ⟨rfl, row, now, hfound, rfl⟩, h⟩) fun _ _ h => h
  obtain hrefused | ⟨a, d, ps, hok, ⟨rfl, row, now, hfound, rfl⟩, hkept⟩ := serve_holds hscript
  · exact .inl hrefused
  · refine .inr ⟨⟨a, hok⟩, ⟨row, hfound⟩, ?_⟩
    obtain ⟨hro, -, hsame⟩ | ⟨-, happly⟩ := hkept
    · exact .inl ⟨hro, hsame⟩
    · right
      rw [← show keyOf t row = id from Table.find?_key hfound]
      exact changed_of_applyAll (Table.find?_mem hfound) (hstamp now) happly

end Rules

end Rooti
