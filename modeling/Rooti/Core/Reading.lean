import Rooti.Core.Database

/-!
# Scripts that only read

The beginning of most requests: a session that has changed nothing reads rows,
checks them, and either goes on with a value or refuses.  `Reads` and `Refuses`
say which of the two, and that nothing was changed on the way; the database and
storage are then still those of the state the request began in.

## Main definitions

* `Reads`, `Refuses` — how a script begins
* `getOrRaise` — an object that has to exist
* `Refuses.serve` — a refused request changes nothing
-/

namespace Rooti

open Relational Program

variable {V D α β : Type}

theorem Unchanged.trans {w₁ w₂ w₃ : World V D} (h : Unchanged w₁ w₂) (h' : Unchanged w₂ w₃) :
    Unchanged w₁ w₃ :=
  ⟨h'.db.trans h.db, h'.redis.trans h.redis, h'.disk.trans h.disk, h'.outbox.trans h.outbox,
    Nat.le_trans h.ticks h'.ticks⟩

/-- **The script reads its value**, and leaves its session clean and the shared
state as it is. -/
def Reads (env : Env) (p : Async V D α) (w : World V D) (a : α) : Prop :=
  ∃ w', (server env).run p {} w = (.ok a, {}, w') ∧ Unchanged w w'

/-- **The script refuses**: it raises, and leaves the shared state as it is. -/
def Refuses (env : Env) (p : Async V D α) (w : World V D) : Prop :=
  ∃ e s w', (server env).run p {} w = (.error e, s, w') ∧ Unchanged w w'

variable {env : Env} {p : Async V D α} {f : α → Async V D β} {w : World V D} {a : α} {b : β}

namespace Reads

theorem ret : Reads env (.ret a) w a := ⟨w, rfl, .refl w⟩

theorem bind (h : Reads env p w a) (hf : ∀ w', Unchanged w w' → Reads env (f a) w' b) :
    Reads env (p.bind f) w b := by
  obtain ⟨w₁, hrun, h₁⟩ := h
  obtain ⟨w₂, hrun', h₂⟩ := hf w₁ h₁
  refine ⟨w₂, ?_, h₁.trans h₂⟩
  rw [Machine.run_bind, hrun]
  exact hrun'

/-- A script that goes on reading reads some value. -/
theorem exists_bind (h : Reads env p w a)
    (hf : ∀ w', Unchanged w w' → ∃ b, Reads env (f a) w' b) :
    ∃ b, Reads env (p.bind f) w b := by
  obtain ⟨w₁, hrun, h₁⟩ := h
  obtain ⟨b, w₂, hrun', h₂⟩ := hf w₁ h₁
  refine ⟨b, w₂, ?_, h₁.trans h₂⟩
  rw [Machine.run_bind, hrun]
  exact hrun'

theorem orRaise {e : Err} : Reads env (Prog.orRaise e (some a)) w a := ret

theorem raiseIf {c : Bool} {e : Err} (h : c = false) :
    Reads env (Prog.raiseIf c e) w () := by
  subst h
  exact ret

/-- The rest of the script runs from a clean session and an unchanged state. -/
theorem run_bind (h : Reads env p w a) :
    ∃ w', Unchanged w w' ∧ (server env).run (p.bind f) {} w = (server env).run (f a) {} w' := by
  obtain ⟨w', hrun, h'⟩ := h
  refine ⟨w', h', ?_⟩
  rw [Machine.run_bind, hrun]

end Reads

namespace Refuses

theorem raise {e : Err} : Refuses env (.raise e : Async V D α) w := ⟨e, {}, w, rfl, .refl w⟩

theorem bind (h : Refuses env p w) : Refuses env (p.bind f) w := by
  obtain ⟨e, s, w', hrun, h'⟩ := h
  refine ⟨e, s, w', ?_, h'⟩
  rw [Machine.run_bind, hrun]

theorem bind_of_reads (h : Reads env p w a) (hf : ∀ w', Unchanged w w' → Refuses env (f a) w') :
    Refuses env (p.bind f) w := by
  obtain ⟨w₁, hrun, h₁⟩ := h
  obtain ⟨e, s, w₂, hrun', h₂⟩ := hf w₁ h₁
  refine ⟨e, s, w₂, ?_, h₁.trans h₂⟩
  rw [Machine.run_bind, hrun]
  exact hrun'

theorem raiseIf {c : Bool} {e : Err} (h : c = true) :
    Refuses env (Prog.raiseIf c e : Async V D Unit) w := by
  subst h
  exact raise

/-- **A refused request changes nothing.** -/
theorem serve (h : Refuses env p w) :
    (∃ e, (Rooti.serve env p w).1 = .error e) ∧ (Rooti.serve env p w).2.db = w.db ∧
      (Rooti.serve env p w).2.disk = w.disk := by
  obtain ⟨e, s, w', hrun, h'⟩ := h
  rw [serve_eq, hrun]
  exact ⟨⟨e, rfl⟩, h'.db, h'.disk⟩

end Refuses

/-! ## Single queries -/

section Query

variable {t : Entity} {id : ℤ} {row : Row t} {e : Err}

/-- A query whose parameters can be encoded is answered from the database. -/
theorem reads_select {binds : List Bind} {q : RowOrder → Db → α} (h : binds.all Bind.fits) :
    Reads env (select binds q) w (q (env.rowOrder w.ticks) w.db) := by
  refine ⟨w.tick, ?_, .tick (.refl w)⟩
  rw [select, Machine.run_lift, server_exec, exec]
  simp [execSelect, h]

/-- A query whose parameters cannot be encoded is refused. -/
theorem refuses_select {binds : List Bind} {q : RowOrder → Db → α}
    (h : binds.all Bind.fits = false) : Refuses env (select binds q) w := by
  refine ⟨.database "22000", { failed := true }, w.tick, ?_, .tick (.refl w)⟩
  rw [select, Machine.run_lift, server_exec, exec]
  simp [execSelect, h]

/-- An object is loaded by its key. -/
theorem reads_dbGet (h : bigint id) : Reads env (dbGet t id) w (w.db.find? t id) :=
  reads_select (by simpa [Bind.fits] using h)

theorem reads_dbGet_of_find? (h : w.db.find? t id = some row) :
    Reads env (dbGet t id) w (some row) := h ▸ reads_dbGet (bigint_of_find? h)

variable (env) in
/-- Where no object has the key, the query is refused or answers with none. -/
theorem dbGet_of_none (h : w.db.find? t id = none) :
    Reads env (dbGet t id) w none ∨ Refuses env (dbGet t id) w := by
  by_cases hid : bigint id
  · exact .inl (h ▸ reads_dbGet hid)
  · exact .inr (refuses_select (by simpa [Bind.fits] using hid))

/-- An object that exists is loaded. -/
theorem reads_getOrRaise (h : w.db.find? t id = some row) :
    Reads env ((dbGet t id).bind (Prog.orRaise e)) w row :=
  (reads_dbGet_of_find? h).bind fun _ _ => .ret

/-- An object that does not exist is missed. -/
theorem refuses_getOrRaise (h : w.db.find? t id = none) :
    Refuses env ((dbGet t id).bind (Prog.orRaise e)) w := by
  obtain hnone | hrefused := dbGet_of_none env h
  · exact .bind_of_reads hnone fun _ _ => .raise
  · exact hrefused.bind

end Query

end Rooti
