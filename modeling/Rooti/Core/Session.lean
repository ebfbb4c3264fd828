import Mathlib.Data.List.Sort
import Rooti.Core.Exceptions
import Rooti.Lib.KeyValue
import Rooti.Lib.Program
import Rooti.Models.Schema

/-!
# What a request can do

A request is a script over the commands below (`Cmd`): statements of its own
database session, Redis commands, the document storage, the mail provider and
the clock.  Between two commands it computes on values only, so the commands are
also the points at which concurrent requests interleave.

The session keeps SQLAlchemy's unit of work.  `add`, `modify` and `delete` only
record what is to be done; the statements are sent when a query, a flush or a
commit needs them (`Session.flush`), first the inserts, then the updates, then
the deletes, the last two in primary-key order.  That inserts come before updates
is an assumption about the unit of work; it matters where a flush both adds rows
to a table with a UNIQUE constraint and changes rows of it.  What was sent is
visible to the session at once and to everybody else from its commit on (READ
COMMITTED).  In a read-only transaction the first statement that changes data is
refused with SQLSTATE 25006.

A row whose attributes are assigned what they hold is not sent.  Values are
compared as the model has them: the documents of a JSON column are equal if they
are the same tree, where Python also takes `1`, `1.0` and `True` for equal, and a
`null` that is stored in such a column stands for no value.

## Main definitions

* `Settings`, `Env` — the configuration, and everything outside the process
* `World` — the state all requests share
* `Session`, `Session.flush` — one unit of work
* `Cmd`, `server` — the commands and their meaning
* `Async` — the scripts of the services
-/

namespace Rooti

open Relational Program

/-- The settings the modelled code reads. -/
structure Settings where
  appReadOnly : Bool := false
  jwtAccessTtlMinutes : ℤ := 15
  jwtRefreshTtlDays : ℤ := 14
  jwtIssuer : String := "rooti"

/-- The order in which PostgreSQL happens to return the rows of a query that
does not fix it. -/
structure RowOrder where
  scan : {α : Type} → List α → List α
  perm : ∀ {α : Type} (l : List α), (scan l).Perm l

namespace RowOrder

/-- Rows as they are stored. -/
def stored : RowOrder := ⟨id, fun _ => .refl _⟩

@[simp] theorem mem_scan (o : RowOrder) {α : Type} {l : List α} {a : α} :
    a ∈ o.scan l ↔ a ∈ l := (o.perm l).mem_iff

/-- A single row comes as it is. -/
theorem scan_toList (o : RowOrder) {α : Type} (a : Option α) : o.scan a.toList = a.toList := by
  cases a with
  | none => exact List.perm_nil.mp (o.perm [])
  | some a => exact List.perm_singleton.mp (o.perm [a])

/-- `ORDER BY`: ties are returned in any order. -/
def orderBy (o : RowOrder) {α β : Type} [LE β] [DecidableLE β] (key : α → β) (l : List α) :
    List α :=
  (o.scan l).mergeSort fun a b => decide (key a ≤ key b)

/-- `ORDER BY ... DESC`. -/
def orderByDesc (o : RowOrder) {α β : Type} [LE β] [DecidableLE β] (key : α → β) (l : List α) :
    List α :=
  (o.scan l).mergeSort fun a b => decide (key b ≤ key a)

@[simp] theorem mem_orderBy (o : RowOrder) {α β : Type} [LE β] [DecidableLE β] {key : α → β}
    {l : List α} {a : α} : a ∈ o.orderBy key l ↔ a ∈ l := by
  simp [orderBy]

@[simp] theorem mem_orderByDesc (o : RowOrder) {α β : Type} [LE β] [DecidableLE β]
    {key : α → β} {l : List α} {a : α} : a ∈ o.orderByDesc key l ↔ a ∈ l := by
  simp [orderByDesc]

end RowOrder

/-- The bytes of a file or an attachment. -/
abbrev Bytes := List UInt8

/-- `Attachment`. -/
structure Attachment where
  filename : String
  content : Bytes
  contentType : String

/-- One e-mail handed to the provider. -/
structure Mail where
  recipient : String
  subject : String
  html : String
  attachments : List Attachment

/-- **The state all requests share**: the committed database, the id sequences,
Redis with texts `V`, the document storage `D`, the mails handed over, and the
number of commands executed so far. -/
structure World (V D : Type) where
  db : Db
  seq : Entity → ℤ
  redis : KeyValue.Store String V
  disk : D
  outbox : List Mail
  ticks : ℕ

/-- **The surroundings of the process**: its settings, the clocks (read once per
command), and the choices PostgreSQL and the mail provider are free to make. -/
structure Env where
  settings : Settings
  /-- the wall clock in microseconds since the epoch, at every command -/
  clock : ℕ → ℤ
  /-- `CURRENT_TIMESTAMP` of the transaction running at a command -/
  dbClock : ℕ → ℤ
  /-- the UTC offset of the server's local time in microseconds -/
  utcOffset : ℤ := 0
  /-- the salts the random source yields -/
  salt : ℕ → ℕ := id
  /-- the order in which unordered rows are returned -/
  rowOrder : ℕ → RowOrder
  /-- the provider's answer to a mail: its id, or an error -/
  mailer : ℕ → Mail → Except String (Option String)

/-- A parameter bound to a statement. -/
inductive Bind
  | int (n : ℤ)
  | text (s : String)

/-- The parameters the driver can encode. -/
def Bind.fits : Bind → Bool
  | .int n => bigint n
  | .text s => Rooti.text s

/-- What the database assigns to a new row: its id and its timestamp. -/
structure NewRow where
  id : ℤ
  createdAt : DateTime

/-- **The commands of a request**, by the type of their answer. -/
inductive Cmd (V D : Type) : Type → Type 1
  /-- a query; what is pending is flushed first -/
  | select {α : Type} (binds : List Bind) (q : RowOrder → Db → α) : Cmd V D α
  /-- `session.add` of a new object, built from what the database assigns to it -/
  | add (t : Entity) (mk : NewRow → Row t) : Cmd V D NewRow
  /-- attribute assignments `f` on a loaded object -/
  | modify (t : Entity) (row : Row t) (f : Row t → Row t) : Cmd V D Unit
  /-- `session.delete` -/
  | delete (t : Entity) (row : Row t) : Cmd V D Unit
  | flush : Cmd V D Unit
  | commit : Cmd V D Unit
  | rollback : Cmd V D Unit
  /-- the wall clock in microseconds since the epoch -/
  | now : Cmd V D ℤ
  /-- `bcrypt.gensalt`: a fresh salt -/
  | gensalt : Cmd V D ℕ
  | redisGet (key : String) : Cmd V D (Option V)
  /-- `SET key value EX seconds` -/
  | redisSet (key : String) (value : V) (ex : ℤ) : Cmd V D Unit
  | redisDel (key : String) : Cmd V D Unit
  | storage {α : Type} (op : D → Except String α × D) : Cmd V D α
  | sendEmail (mail : Mail) : Cmd V D (Option String)

/-- **The scripts of the services**: what an `async def` does up to its return
or exception. -/
abbrev Async (V D : Type) (α : Type) := Prog (Cmd V D) Err α

/-! ## The unit of work -/

/-- A database session: the statements of the open transaction, the changes not
sent yet, and whether a statement failed since the last rollback. -/
structure Session where
  written : List Statement := []
  pending : List Statement := []
  failed : Bool := false

namespace Session

/-- What the session sees: the committed state and its own statements. -/
def view (s : Session) (db : Db) : Db :=
  match Dml.applyAll s.written db with
  | .ok d => d
  | .error _ => db

/-- The primary key of the row a statement is about. -/
def rowKey : Statement → ℤ
  | .insert t r => keyOf t r
  | .update _ k _ => k
  | .delete _ k => k

/-- Statements in primary-key order. -/
def byKey (ds : List Statement) : List Statement :=
  ds.insertionSort fun d e => rowKey d ≤ rowKey e

/-- The order of a flush: inserts, then updates, then deletes; rows that exist
are taken in primary-key order. -/
def flushOrder (pending : List Statement) : List Statement :=
  pending.filter (fun d => d matches .insert ..) ++
    (byKey (pending.filter fun d => d matches .update ..) ++
      byKey (pending.filter fun d => d matches .delete ..))

/-- Send the pending changes. -/
def flush (readOnly : Bool) (db : Db) (s : Session) : Except Err Unit × Session :=
  if s.failed then (.error pendingRollbackError, s)
  else if s.pending.isEmpty then (.ok (), s)
  else if readOnly then (.error (.database "25006"), { s with pending := [], failed := true })
  else
    match Dml.applyAll (flushOrder s.pending) (s.view db) with
    | .error v => (.error (violationError v), { s with pending := [], failed := true })
    | .ok _ => (.ok (), { s with written := s.written ++ flushOrder s.pending, pending := [] })

end Session

/-- One command passes. -/
def World.tick {V D : Type} (w : World V D) : World V D := { w with ticks := w.ticks + 1 }

namespace World

variable {V D : Type} (w : World V D)

@[simp] theorem tick_db : w.tick.db = w.db := rfl

@[simp] theorem tick_redis : w.tick.redis = w.redis := rfl

@[simp] theorem tick_disk : w.tick.disk = w.disk := rfl

@[simp] theorem tick_seq : w.tick.seq = w.seq := rfl

@[simp] theorem tick_ticks : w.tick.ticks = w.ticks + 1 := rfl

end World

section Exec

variable {V D : Type}

/-- The database after some statements on empty tables. -/
def Db.ofStatements (ds : List Statement) : Db :=
  match Dml.applyAll ds (Database.empty schema) with
  | .ok db => db
  | .error _ => Database.empty schema

/-- A company with a charger, and a worker hired for one shift of a job with one
process. -/
def Db.sample : Db := Db.ofStatements
  [.insert .company ⟨1, "Workshop", none, true, none, none, none, none, none⟩,
    .insert .user ⟨1, "worker", none, "", "Worker", none, .worker, true, none⟩,
    .insert .user ⟨2, "charger", none, "", "Charger", none, .charger, true, none⟩,
    .insert .challengedWorker ⟨1, 1, none, none⟩,
    .insert .companyWorker ⟨1, 1, 1, true⟩,
    .insert .companyCharger ⟨1, 2, 1, true⟩,
    .insert .jobStandard ⟨1, 1, "Packing", true, none, 8, 1, none, none, none, true⟩,
    .insert .jobProcess ⟨1, 1, "Sorting", 1, none, none, none, none, 0⟩,
    .insert .jobWorker ⟨1, 1, 1, true⟩,
    .insert .workSchedule ⟨1, 1, none, 1, ⟨0, none⟩, none, none, false⟩]

/-- Two companies, each with a charger, a job, and a worker who is hired for two shifts of it on
different days. -/
def Db.branches : Db := Db.ofStatements
  [.insert .company ⟨1, "Workshop", none, true, none, none, none, none, none⟩,
    .insert .company ⟨2, "Bakery", some "Seoul", true, none, none, none, none, none⟩,
    .insert .user ⟨1, "kim", some "kim@rooti", "", "Kim", none, .worker, true, none⟩,
    .insert .user ⟨2, "charger", none, "", "Charger", none, .charger, true, none⟩,
    .insert .user ⟨3, "lee", some "lee@rooti", "", "Lee", none, .worker, true, none⟩,
    .insert .user ⟨4, "baker", none, "", "Baker", none, .charger, true, none⟩,
    .insert .challengedWorker ⟨1, 1, none, none⟩,
    .insert .challengedWorker ⟨2, 3, none, none⟩,
    .insert .companyWorker ⟨1, 1, 1, true⟩,
    .insert .companyWorker ⟨2, 2, 2, true⟩,
    .insert .companyCharger ⟨1, 2, 1, true⟩,
    .insert .companyCharger ⟨2, 4, 2, true⟩,
    .insert .jobStandard ⟨1, 1, "Packing", true, none, 8, 1, none, none, none, true⟩,
    .insert .jobStandard ⟨2, 2, "Baking", true, none, 6, 1, none, none, none, true⟩,
    .insert .jobProcess ⟨1, 1, "Sorting", 1, none, none, none, none, 0⟩,
    .insert .jobWorker ⟨1, 1, 1, true⟩,
    .insert .jobWorker ⟨2, 2, 2, true⟩,
    .insert .workSchedule ⟨1, 1, none, 1, ⟨0, none⟩, none, none, false⟩,
    .insert .workSchedule ⟨2, 1, none, 1, ⟨118800000000, none⟩, none, none, false⟩,
    .insert .workSchedule ⟨3, 2, none, 2, ⟨32400000000, none⟩, none, none, false⟩,
    .insert .workSchedule ⟨4, 2, none, 2, ⟨151200000000, none⟩, none, none, false⟩]

/-- An installation that has served nothing yet; the rows it starts with are
numbered from 1. -/
def World.fresh (db : Db) (disk : D) : World V D where
  db := db
  seq := fun t => (db.rows t).length
  redis := KeyValue.Store.empty
  disk := disk
  outbox := []
  ticks := 0

/-- Surroundings with the given clock: rows come as they are stored, mails are
delivered. -/
def Env.ofClock (settings : Settings) (clock : ℕ → ℤ) : Env where
  settings := settings
  clock := clock
  dbClock := clock
  rowOrder := fun _ => .stored
  mailer := fun _ _ => .ok none

/-- Surroundings whose clock stands still. -/
def still : Env := Env.ofClock {} fun _ => 0

/-- The instant Redis compares expiries with, in milliseconds. -/
def Env.redisClock (env : Env) (n : ℕ) : ℤ := env.clock n / 1000

/-- What a row added to table `t` is assigned. -/
def Env.newRow (env : Env) (t : Entity) (w : World V D) : NewRow where
  id := w.seq t + 1
  createdAt := ⟨env.dbClock w.ticks, none⟩

/-- Execute a query. -/
def execSelect {α : Type} (env : Env) (binds : List Bind) (q : RowOrder → Db → α)
    (s : Session) (w : World V D) : Except Err α × Session × World V D :=
  match s.flush env.settings.appReadOnly w.db with
  | (.error e, s') => (.error e, s', w.tick)
  | (.ok _, s') =>
      if binds.all Bind.fits then (.ok (q (env.rowOrder w.ticks) (s'.view w.db)), s', w.tick)
      else (.error (.database "22000"), { s' with failed := true }, w.tick)

/-- Execute a commit. -/
def execCommit (env : Env) (s : Session) (w : World V D) :
    Except Err Unit × Session × World V D :=
  match s.flush env.settings.appReadOnly w.db with
  | (.error e, s') => (.error e, s', w.tick)
  | (.ok _, s') =>
      match Dml.applyAll s'.written w.db with
      | .error v => (.error (violationError v), { failed := true }, w.tick)
      | .ok db => (.ok (), {}, { w.tick with db := db })

/-- **The meaning of the commands.** -/
def exec (env : Env) : {α : Type} → Cmd V D α → Session → World V D →
    Except Err α × Session × World V D
  | _, .select binds q, s, w => execSelect env binds q s w
  | _, .add t mk, s, w =>
      (.ok (env.newRow t w), { s with pending := s.pending ++ [.insert t (mk (env.newRow t w))] },
        { w.tick with seq := Function.update w.seq t (w.seq t + 1) })
  | _, .modify t row f, s, w =>
      if f row = row then (.ok (), s, w.tick)
      else
        (.ok (),
          { s with pending := s.pending ++
              [.update t (keyOf t row) (setUpdatedAt ⟨env.dbClock w.ticks, none⟩ t ∘ f)] },
          w.tick)
  | _, .delete t row, s, w =>
      (.ok (), { s with pending := s.pending ++ [.delete t (keyOf t row)] }, w.tick)
  | _, .flush, s, w =>
      ((s.flush env.settings.appReadOnly w.db).1, (s.flush env.settings.appReadOnly w.db).2,
        w.tick)
  | _, .commit, s, w => execCommit env s w
  | _, .rollback, _, w => (.ok (), {}, w.tick)
  | _, .now, s, w => (.ok (env.clock w.ticks), s, w.tick)
  | _, .gensalt, s, w => (.ok (env.salt w.ticks), s, w.tick)
  | _, .redisGet key, s, w => (.ok (w.redis.get (env.redisClock w.ticks) key), s, w.tick)
  | _, .redisSet key value ex, s, w =>
      if ex ≤ 0 then
        (.error (.python "ResponseError" "invalid expire time in 'set' command"), s, w.tick)
      else
        (.ok (), s,
          { w.tick with
            redis := w.redis.set key value (env.redisClock w.ticks + ex * 1000) })
  | _, .redisDel key, s, w => (.ok (), s, { w.tick with redis := w.redis.del key })
  | _, .storage op, s, w =>
      ((op w.disk).1.mapError fun t => .python "OSError" t, s,
        { w.tick with disk := (op w.disk).2 })
  | _, .sendEmail mail, s, w =>
      ((env.mailer w.ticks mail).mapError fun t => .python "EmailError" t, s,
        { w.tick with outbox := w.outbox ++ [mail] })

/-- **The server**: commands executed for a session over the shared state. -/
def server (env : Env) : Machine (Cmd V D) Err Session (World V D) := ⟨exec env⟩

end Exec

end Rooti
