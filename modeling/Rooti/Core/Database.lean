import Rooti.Core.Session
import Rooti.Lib.Hoare

/-!
# Database sessions of requests

`getDbSession` wraps a request in its transaction: committed at the end, rolled
back on an exception and, in read-only mode, always.  `serve` runs one request
by itself in a session of its own; a run of requests one after another is a
sequence of `serve`s.

The lemmas execute scripts symbolically: one equation for every command followed
by the rest of its script.  Queries of a session that has neither sent nor recorded
a change read the committed database and leave everything but the command count as
it was.  A script that only reads and records is `Quiet`: it changes nothing outside its
session.

## Main definitions

* `dbGet`, `scalarOneOrNone` — how the services read
* `getDbSession`, `serve` — a request and its transaction
* `Quiet`, `Unchanged` — scripts without changes, and the states they lead to
-/

namespace Rooti

open Relational Program

variable {V D α β : Type}

/-! ## How the services read and write -/

/-- `await db.execute(select(...))`. -/
def select (binds : List Bind) (q : RowOrder → Db → α) : Async V D α :=
  Prog.lift (.select binds q)

/-- `await db.get(t, id)`. -/
def dbGet (t : Entity) (id : ℤ) : Async V D (Option (Row t)) :=
  select [.int id] fun _ db => db.find? t id

/-- `db.add(row)`. -/
def add (t : Entity) (mk : NewRow → Row t) : Async V D NewRow := Prog.lift (.add t mk)

/-- Attribute assignments on a loaded object. -/
def modify (t : Entity) (row : Row t) (f : Row t → Row t) : Async V D Unit :=
  Prog.lift (.modify t row f)

/-- `await db.delete(row)`. -/
def delete (t : Entity) (row : Row t) : Async V D Unit := Prog.lift (.delete t row)

/-- `await db.flush()`. -/
def flush : Async V D Unit := Prog.lift .flush

/-- `await db.commit()`. -/
def commit : Async V D Unit := Prog.lift .commit

/-- `await db.rollback()`. -/
def rollback : Async V D Unit := Prog.lift .rollback

/-- The wall clock in microseconds since the epoch. -/
def now : Async V D ℤ := Prog.lift .now

/-- `bcrypt.gensalt(...)`. -/
def gensalt : Async V D ℕ := Prog.lift .gensalt

/-- `datetime.now()`. -/
def datetimeNow (env : Env) : Async V D DateTime := do
  return ⟨(← now) + env.utcOffset, none⟩

/-- `datetime.now(UTC).replace(tzinfo=None)`. -/
def utcNow : Async V D DateTime := do
  return ⟨← now, none⟩

/-- `await client.get(key)`. -/
def redisGet (key : String) : Async V D (Option V) := Prog.lift (.redisGet key)

/-- `await client.set(key, value, ex=ex)`. -/
def redisSet (key : String) (value : V) (ex : ℤ) : Async V D Unit :=
  Prog.lift (.redisSet key value ex)

/-- `await client.delete(key)`. -/
def redisDel (key : String) : Async V D Unit := Prog.lift (.redisDel key)

/-- A call of the document storage. -/
def storage (op : D → Except String α × D) : Async V D α := Prog.lift (.storage op)

/-- `await send_email(...)`. -/
def sendEmail (mail : Mail) : Async V D (Option String) := Prog.lift (.sendEmail mail)

/-- `result.scalar_one_or_none()`. -/
def scalarOneOrNone : List α → Async V D (Option α)
  | [] => .ret none
  | [a] => .ret (some a)
  | _ :: _ :: _ => .raise multipleResultsFound

/-- `result.one()`. -/
def one : List α → Async V D α
  | [] => .raise noResultFound
  | [a] => .ret a
  | _ :: _ :: _ => .raise multipleResultsFound

/-- `assert x is not None`. -/
def assertSome : Option α → Async V D α := Prog.orRaise assertionError

/-! ## Requests -/

/-- The end of a request without exception. -/
def endTransaction (env : Env) : Async V D Unit :=
  if env.settings.appReadOnly then rollback else commit

/-- `get_db_session`: the transaction around a request. -/
def getDbSession (env : Env) (p : Async V D α) : Async V D α :=
  Prog.handle
    (do
      let a ← p
      endTransaction env
      return a)
    fun e => do
      rollback
      Prog.raise e

/-- One request, served by itself: its answer and the state it leaves. -/
def serve (env : Env) (p : Async V D α) (w : World V D) : Except Err α × World V D :=
  let r := (server env).run (getDbSession env p) {} w
  (r.1, r.2.2)

/-! ## Symbolic execution -/

section Run

variable (env : Env) (s : Session) (w : World V D)

theorem server_exec (c : Cmd V D α) : (server env).exec c s w = exec env c s w := rfl

/-- Every command counts once. -/
theorem exec_ticks (c : Cmd V D α) : (exec env c s w).2.2.ticks = w.ticks + 1 := by
  cases c with
  | select binds q =>
      simp only [exec, execSelect]
      split
      · rfl
      · split <;> rfl
  | modify t row f =>
      simp only [exec]
      split <;> rfl
  | commit =>
      simp only [exec, execCommit]
      split
      · rfl
      · split <;> rfl
  | redisSet key value ex =>
      simp only [exec]
      split <;> rfl
  | _ => rfl

@[simp] theorem run_now_bind (k : ℤ → Async V D β) :
    (server env).run (Prog.bind now k) s w =
      (server env).run (k (env.clock w.ticks)) s w.tick := rfl

@[simp] theorem run_gensalt_bind (k : ℕ → Async V D β) :
    (server env).run (Prog.bind gensalt k) s w =
      (server env).run (k (env.salt w.ticks)) s w.tick := rfl

@[simp] theorem run_add_bind (t : Entity) (mk : NewRow → Row t) (k : NewRow → Async V D β) :
    (server env).run (Prog.bind (add t mk) k) s w =
      (server env).run (k (env.newRow t w))
        { s with pending := s.pending ++ [.insert t (mk (env.newRow t w))] }
        { w.tick with seq := Function.update w.seq t (w.seq t + 1) } := rfl

@[simp] theorem run_delete (t : Entity) (row : Row t) :
    (server env).run (delete t row) s w =
      (.ok (), { s with pending := s.pending ++ [.delete t (keyOf t row)] }, w.tick) := rfl

@[simp] theorem run_delete_bind (t : Entity) (row : Row t) (k : Unit → Async V D β) :
    (server env).run (Prog.bind (delete t row) k) s w =
      (server env).run (k ()) { s with pending := s.pending ++ [.delete t (keyOf t row)] }
        w.tick := rfl

@[simp] theorem run_rollback_bind (k : Unit → Async V D β) :
    (server env).run (Prog.bind rollback k) s w = (server env).run (k ()) {} w.tick := rfl

@[simp] theorem run_redisGet_bind (key : String) (k : Option V → Async V D β) :
    (server env).run (Prog.bind (redisGet key) k) s w =
      (server env).run (k (w.redis.get (env.redisClock w.ticks) key)) s w.tick := rfl

@[simp] theorem run_redisDel (key : String) :
    (server env).run (redisDel key : Async V D Unit) s w =
      (.ok (), s, { w.tick with redis := w.redis.del key }) := rfl

@[simp] theorem run_redisDel_bind (key : String) (k : Unit → Async V D β) :
    (server env).run (Prog.bind (redisDel key) k) s w =
      (server env).run (k ()) s { w.tick with redis := w.redis.del key } := rfl

theorem run_redisSet_bind (key : String) (v : V) (ex : ℤ) (k : Unit → Async V D β) :
    (server env).run (Prog.bind (redisSet key v ex) k) s w =
      if ex ≤ 0 then
        (.error (.python "ResponseError" "invalid expire time in 'set' command"), s, w.tick)
      else
        (server env).run (k ()) s
          { w.tick with
            redis := w.redis.set key v (env.redisClock w.ticks + ex * 1000) } := by
  rw [redisSet, Machine.run_lift_bind, server_exec]
  simp only [exec]
  by_cases h : ex ≤ 0 <;> simp [h]

theorem run_modify (t : Entity) (row : Row t) (f : Row t → Row t) :
    (server env).run (modify t row f) s w =
      if f row = row then (.ok (), s, w.tick)
      else
        (.ok (),
          { s with pending := s.pending ++
              [.update t (keyOf t row) (setUpdatedAt ⟨env.dbClock w.ticks, none⟩ t ∘ f)] },
          w.tick) := by
  rw [modify, Machine.run_lift, server_exec, exec]

theorem run_modify_bind (t : Entity) (row : Row t) (f : Row t → Row t)
    (k : Unit → Async V D β) :
    (server env).run (Prog.bind (modify t row f) k) s w =
      if f row = row then (server env).run (k ()) s w.tick
      else
        (server env).run (k ())
          { s with pending := s.pending ++
              [.update t (keyOf t row) (setUpdatedAt ⟨env.dbClock w.ticks, none⟩ t ∘ f)] }
          w.tick := by
  rw [modify, Machine.run_lift_bind, server_exec]
  simp only [exec]
  by_cases h : f row = row <;> simp [h]

/-- A flush and what follows it. -/
theorem run_flush_bind (k : Unit → Async V D β) :
    (server env).run (Prog.bind flush k) s w =
      match s.flush env.settings.appReadOnly w.db with
      | (.ok _, s') => (server env).run (k ()) s' w.tick
      | (.error e, s') => (.error e, s', w.tick) := by
  rw [flush, Machine.run_lift_bind, server_exec]
  simp only [exec]
  rcases s.flush env.settings.appReadOnly w.db with ⟨_ | _, _⟩ <;> rfl

/-- A query and what follows it. -/
theorem run_select_bind (binds : List Bind) (q : RowOrder → Db → α) (k : α → Async V D β) :
    (server env).run (Prog.bind (select binds q) k) s w =
      match s.flush env.settings.appReadOnly w.db with
      | (.error e, s') => (.error e, s', w.tick)
      | (.ok _, s') =>
          if binds.all Bind.fits then
            (server env).run (k (q (env.rowOrder w.ticks) (s'.view w.db))) s' w.tick
          else (.error (.database "22000"), { s' with failed := true }, w.tick) := by
  rw [select, Machine.run_lift_bind, server_exec]
  simp only [exec, execSelect]
  rcases s.flush env.settings.appReadOnly w.db with ⟨_ | _, _⟩
  · rfl
  · by_cases h : binds.all Bind.fits <;> simp [h]

@[simp] theorem view_empty (db : Db) : ({} : Session).view db = db := rfl

@[simp] theorem flush_empty (readOnly : Bool) (db : Db) :
    ({} : Session).flush readOnly db = (.ok (), {}) := rfl

@[simp] theorem execCommit_empty :
    execCommit env {} w = (.ok (), {}, w.tick) := rfl

/-- A query of a session that has changed nothing. -/
theorem run_select_bind_clean (binds : List Bind) (q : RowOrder → Db → α)
    (k : α → Async V D β) :
    (server env).run (Prog.bind (select binds q) k) {} w =
      if binds.all Bind.fits then
        (server env).run (k (q (env.rowOrder w.ticks) w.db)) {} w.tick
      else (.error (.database "22000"), { failed := true }, w.tick) := by
  rw [run_select_bind]
  rfl

/-- A row stored in the database has a storable id. -/
theorem bigint_of_find? {db : Db} {t : Entity} {id : ℤ} {row : Row t}
    (h : db.find? t id = some row) : bigint id := by
  have hkey : keyOf t row = id := Table.find?_key h
  have hcheck := Table.check_of_mem (Table.find?_mem h)
  subst hkey
  cases t <;> simp only [schema, shape, Bool.and_eq_true] at hcheck <;> tauto

/-- So have the rows it refers to. -/
theorem bigint_of_ref {db : Db} {t : Entity} {row : Row t} {ref : Ref Entity ℤ}
    (hrow : row ∈ db.rows t) (href : ref ∈ refs t row) : bigint ref.key := by
  have hcheck := Table.check_of_mem hrow
  cases t <;> simp only [schema, shape, Bool.and_eq_true] at hcheck <;>
    simp [refs] at href <;> grind

/-- Loading an object in a session that has changed nothing. -/
theorem run_dbGet_bind_clean (t : Entity) (id : ℤ) (k : Option (Row t) → Async V D β) :
    (server env).run (Prog.bind (dbGet t id) k) {} w =
      if bigint id then (server env).run (k (w.db.find? t id)) {} w.tick
      else (.error (.database "22000"), { failed := true }, w.tick) := by
  rw [dbGet, run_select_bind_clean]
  simp only [List.all_cons, List.all_nil, Bool.and_true, Bind.fits]

/-- Loading an object that exists. -/
theorem run_dbGet_found {t : Entity} {id : ℤ} {row : Row t} (h : w.db.find? t id = some row)
    (k : Option (Row t) → Async V D β) :
    (server env).run (Prog.bind (dbGet t id) k) {} w =
      (server env).run (k (some row)) {} w.tick := by
  rw [run_dbGet_bind_clean, if_pos (bigint_of_find? h), h]

/-- An object that was loaded has the key it was asked for by. -/
theorem keyOf_of_dbGet {t : Entity} {id : ℤ} {row : Row t}
    (h : (execSelect env [.int id] (fun _ db => db.find? t id) s w).1 = .ok (some row)) :
    keyOf t row = id := by
  unfold execSelect at h
  split at h
  · cases h
  · split at h
    · exact Table.find?_key (Except.ok.inj h)
    · cases h

/-- A query of a session that has changed nothing, read backwards. -/
theorem run_select_clean_eq_ok {env : Env} {binds : List Bind} {q : RowOrder → Db → α}
    {s : Session} {w w' : World V D} {a : α}
    (h : (server env).run (select binds q) {} w = (.ok a, s, w')) :
    binds.all Bind.fits ∧ a = q (env.rowOrder w.ticks) w.db ∧ s = {} ∧ w' = w.tick := by
  rw [select, Machine.run_lift, server_exec, exec] at h
  by_cases hb : binds.all Bind.fits
  · simp only [execSelect, flush_empty, hb, if_true, view_empty, Prod.mk.injEq,
      Except.ok.injEq] at h
    obtain ⟨rfl, rfl, rfl⟩ := h
    exact ⟨hb, rfl, rfl, rfl⟩
  · simp [execSelect, hb] at h

theorem run_scalarOneOrNone_eq_ok {env : Env} {l : List α} {o : Option α} {s s' : Session}
    {w w' : World V D}
    (h : (server env).run (scalarOneOrNone l) s w = (.ok o, s', w')) :
    l = o.toList ∧ s' = s ∧ w' = w := by
  rcases l with _ | ⟨a, _ | ⟨b, l⟩⟩ <;> cases h <;> exact ⟨rfl, rfl, rfl⟩

/-- How a request ends once its script has. -/
theorem serve_eq (p : Async V D α) :
    serve env p w =
      match (server env).run p {} w with
      | (.error e, _, w') => (.error e, w'.tick)
      | (.ok a, s, w') =>
          if env.settings.appReadOnly then (.ok a, w'.tick)
          else
            match execCommit env s w' with
            | (.ok _, _, w'') => (.ok a, w'')
            | (.error e, _, w'') => (.error e, w''.tick) := by
  unfold serve getDbSession
  simp only [Prog.bind_eq, Prog.pure_eq, Machine.run_handle, Machine.run_bind]
  rcases (server env).run p {} w with ⟨e | a, s', w'⟩
  · rfl
  · by_cases hro : env.settings.appReadOnly
    · simp [hro, endTransaction, rollback, server_exec, exec]
    · simp only [hro, endTransaction, Bool.false_eq_true, if_false, commit, Machine.run_lift,
        server_exec, exec]
      rcases execCommit env s' w' with ⟨e | _, s'', w''⟩ <;> rfl

/-- A request that is answered has a script that returns. -/
theorem run_of_serve_ok {p : Async V D α} {a : α} (h : (serve env p w).1 = .ok a) :
    ∃ s' w', (server env).run p {} w = (.ok a, s', w') := by
  rw [serve_eq] at h
  rcases hrun : (server env).run p {} w with ⟨e | a', s', w'⟩ <;> rw [hrun] at h
  · cases h
  · have ha : a' = a := by
      by_cases hro : env.settings.appReadOnly
      · simpa only [hro, if_true, Except.ok.injEq] using h
      · simp only [hro, Bool.false_eq_true, if_false] at h
        rcases hcommit : execCommit env s' w' with ⟨e | _, s'', w''⟩ <;> rw [hcommit] at h
        · cases h
        · exact Except.ok.inj h
    exact ⟨s', w', by rw [ha]⟩

end Run

/-! ## Scripts that leave the shared state alone -/

/-- The shared state is that of `w`; commands may have passed and ids may have
been drawn. -/
structure Unchanged (w w' : World V D) : Prop where
  db : w'.db = w.db
  redis : w'.redis = w.redis
  disk : w'.disk = w.disk
  outbox : w'.outbox = w.outbox
  ticks : w.ticks ≤ w'.ticks

theorem Unchanged.refl (w : World V D) : Unchanged w w :=
  ⟨rfl, rfl, rfl, rfl, Nat.le_refl _⟩

theorem Unchanged.tick {w w' : World V D} (h : Unchanged w w') : Unchanged w w'.tick :=
  ⟨h.db, h.redis, h.disk, h.outbox, Nat.le_succ_of_le h.ticks⟩

/-- Commands on the session, the clock and the random source. -/
def Cmd.quiet : Cmd V D α → Bool
  | .select .. | .add .. | .modify .. | .delete .. | .flush | .now | .gensalt => true
  | .commit | .rollback | .redisGet _ | .redisSet .. | .redisDel _ | .storage _
  | .sendEmail _ => false

/-- **A quiet script** reads and records; it changes nothing outside its
session. -/
def Quiet (p : Async V D α) : Prop := p.Only fun c => c.quiet

/-- A quiet command leaves the shared state alone. -/
theorem exec_quiet {env : Env} {c : Cmd V D α} (hc : c.quiet) (s : Session) {w w' : World V D}
    (h : Unchanged w w') : Unchanged w (exec env c s w').2.2 := by
  cases c with
  | select binds q =>
      simp only [exec, execSelect]
      rcases s.flush env.settings.appReadOnly w'.db with ⟨_ | _, _⟩
      · exact h.tick
      · by_cases hb : binds.all Bind.fits <;> simp only [hb] <;> exact h.tick
  | modify t row f =>
      simp only [exec]
      by_cases hf : f row = row <;> simp only [hf] <;> exact h.tick
  | add t mk => exact ⟨h.db, h.redis, h.disk, h.outbox, Nat.le_succ_of_le h.ticks⟩
  | delete t row => exact h.tick
  | flush => exact h.tick
  | now => exact h.tick
  | gensalt => exact h.tick
  | _ => cases hc

namespace Quiet

variable {p : Async V D α}

theorem ret {a : α} : Quiet (.ret a : Async V D α) := Prog.Only.ret

theorem raise {e : Err} : Quiet (.raise e : Async V D α) := Prog.Only.raise

theorem bind {f : α → Async V D β} (hp : Quiet p) (hf : ∀ a, Quiet (f a)) :
    Quiet (Prog.bind p f) := Prog.Only.bind hp hf

theorem ite {b : Prop} [Decidable b] {p' : Async V D α} (h : b → Quiet p)
    (h' : ¬b → Quiet p') : Quiet (if b then p else p') := Prog.Only.ite h h'

theorem orRaise {e : Err} {o : Option α} : Quiet (Prog.orRaise e o : Async V D α) := Prog.Only.orRaise

theorem raiseIf {b : Bool} {e : Err} : Quiet (Prog.raiseIf b e : Async V D Unit) := Prog.Only.raiseIf

theorem select {binds : List Bind} {q : RowOrder → Db → α} :
    Quiet (select binds q : Async V D α) := Prog.Only.lift rfl

theorem dbGet {t : Entity} {id : ℤ} : Quiet (dbGet t id : Async V D (Option (Row t))) := select

theorem add {t : Entity} {mk : NewRow → Row t} : Quiet (add t mk : Async V D NewRow) :=
  Prog.Only.lift rfl

theorem modify {t : Entity} {row : Row t} {f : Row t → Row t} :
    Quiet (modify t row f : Async V D Unit) := Prog.Only.lift rfl

theorem delete {t : Entity} {row : Row t} : Quiet (delete t row : Async V D Unit) := Prog.Only.lift rfl

theorem flush : Quiet (flush : Async V D Unit) := Prog.Only.lift rfl

theorem now : Quiet (now : Async V D ℤ) := Prog.Only.lift rfl

theorem gensalt : Quiet (gensalt : Async V D ℕ) := Prog.Only.lift rfl

theorem datetimeNow {env : Env} : Quiet (datetimeNow env : Async V D DateTime) :=
  bind now fun _ => ret

theorem utcNow : Quiet (utcNow : Async V D DateTime) := bind now fun _ => ret

theorem scalarOneOrNone {l : List α} : Quiet (scalarOneOrNone l : Async V D (Option α)) := by
  rcases l with _ | ⟨a, _ | ⟨b, l⟩⟩
  · exact ret
  · exact ret
  · exact raise

theorem one {l : List α} : Quiet (one l : Async V D α) := by
  rcases l with _ | ⟨a, _ | ⟨b, l⟩⟩
  · exact raise
  · exact ret
  · exact raise

/-- A quiet script run to its end. -/
theorem run (h : Quiet p) (env : Env) (s : Session) (w : World V D) :
    Unchanged w ((server env).run p s w).2.2 :=
  (Machine.Keeps.of_only (m := server env) (I := fun _ => Unchanged w) h
    fun _ hc l _ hI => exec_quiet hc l hI).run (.refl w)

theorem run_eq {env : Env} (h : Quiet p) {s s' : Session} {w w' : World V D} {r : Except Err α}
    (hr : (server env).run p s w = (r, s', w')) : Unchanged w w' := by
  have := h.run env s w
  rwa [hr] at this

end Quiet

end Rooti
