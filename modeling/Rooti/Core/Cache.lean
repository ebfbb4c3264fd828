import Rooti.Core.Database
import Rooti.Lib.Codec

/-!
# The model cache

Models are cached in Redis as JSON texts.  `setModel` writes a model under the
output names of its fields, `getModel` reads one by field names and takes every
text it cannot read for a miss.

Pydantic itself is a parameter (`Pydantic`): how documents are printed and
parsed, and which documents it accepts for the plain types.

## Main definitions

* `Pydantic` — texts and plain types
* `cacheKey`, `getModel`, `setModel`, `evict` — the cache
-/

namespace Rooti

open Json Program

variable {V D κ M : Type}

/-- `dict[str, Any]`. -/
abbrev Dict := List (String × Json)

/-- A JSON column read as a dictionary. -/
def Dict.ofColumn : Option Json → Except Err (Option Dict)
  | none => .ok none
  | some .null => .ok none
  | some (.obj fields) => .ok (some fields)
  | some _ => .error validationError

/-- **Pydantic**: how documents are printed and parsed, how times are written,
and the documents accepted for the plain types. -/
structure Pydantic (V : Type) where
  dumpJson : Json → V
  parseJson : V → Option Json
  timeText : TimeOfDay → String
  int : Json → Option ℤ
  str : Json → Option String
  bool : Json → Option Bool
  time : Json → Option TimeOfDay

namespace Pydantic

/-- Documents survive printing and parsing, and plain values are read back. -/
structure Faithful (p : Pydantic V) : Prop where
  json : ∀ j, p.parseJson (p.dumpJson j) = some j
  int : ∀ n, p.int (.int n) = some n
  str : ∀ s, p.str (.str s) = some s
  str_null : p.str .null = none
  bool : ∀ b, p.bool (.bool b) = some b
  time_null : p.time .null = none

variable (p : Pydantic V)

/-- `int`. -/
def intCodec : Codec ℤ := ⟨fun _ n => .int n, p.int⟩

/-- `str`. -/
def strCodec : Codec String := ⟨fun _ s => .str s, p.str⟩

/-- `bool`. -/
def boolCodec : Codec Bool := ⟨fun _ b => .bool b, p.bool⟩

/-- `time`. -/
def timeCodec : Codec TimeOfDay := ⟨fun _ t => .str (p.timeText t), p.time⟩

/-- Texts that are the documents themselves, and plain values read strictly. -/
def plain : Pydantic Json where
  dumpJson := id
  parseJson := some
  timeText := fun t => padded 2 (t.micros / 3600000000) ++ ":" ++
    padded 2 (t.micros / 60000000 % 60) ++ ":" ++ padded 2 (t.micros / 1000000 % 60)
  int := fun
    | .int n => some n
    | _ => none
  str := fun
    | .str s => some s
    | _ => none
  bool := fun
    | .bool b => some b
    | _ => none
  time := fun _ => none

end Pydantic

/-! ## The cache -/

section Cache

variable [ToString κ]

/-- `cache_key`. -/
def cacheKey (ns : String) (key : κ) : String :=
  "rooti:cache:" ++ ns ++ ":" ++ toString key

/-- `get_model`: a failing client and an unreadable text are misses. -/
def getModel (p : Pydantic V) (cls : Codec M) (ns : String) (key : κ) :
    Async V D (Option M) := do
  let raw ← Prog.handle (redisGet (cacheKey ns key)) fun _ => return none
  return raw.bind fun text => (p.parseJson text).bind cls.validate

/-- `set_model`. -/
def setModel (p : Pydantic V) (cls : Codec M) (model : M) (ns : String) (key : κ)
    (ttlSeconds : ℤ) : Async V D Unit :=
  Prog.handle (redisSet (cacheKey ns key) (p.dumpJson (cls.dump true model)) ttlSeconds)
    fun _ => return ()

/-- `evict`. -/
def evict (ns : String) (key : κ) : Async V D Unit :=
  Prog.handle (redisDel (cacheKey ns key)) fun _ => return ()

variable {p : Pydantic V} {cls : Codec M} {ns : String} {key : κ} {env : Env}

theorem run_getModel (s : Session) (w : World V D) :
    (server env).run (getModel p cls ns key) s w =
      (.ok ((w.redis.get (env.redisClock w.ticks) (cacheKey ns key)).bind fun text =>
        (p.parseJson text).bind cls.validate), s, w.tick) := rfl

theorem run_setModel {ttlSeconds : ℤ} (h : 0 < ttlSeconds) (model : M) (s : Session)
    (w : World V D) :
    (server env).run (setModel p cls model ns key ttlSeconds) s w =
      (.ok (), s, { w.tick with
        redis := w.redis.set (cacheKey ns key) (p.dumpJson (cls.dump true model))
          (env.redisClock w.ticks + ttlSeconds * 1000) }) := by
  rw [setModel, Machine.run_handle, redisSet, Machine.run_lift, server_exec, exec,
    if_neg (by omega)]

variable (ns key env) in
theorem run_evict (s : Session) (w : World V D) :
    (server env).run (evict ns key) s w =
      (.ok (), s, { w.tick with redis := w.redis.del (cacheKey ns key) }) := rfl

/-- **What a cached model is decoded to**: as long as the entry `setModel` wrote
is there, `getModel` reads the document written under output names. -/
theorem getModel_of_setModel (hjson : ∀ j, p.parseJson (p.dumpJson j) = some j)
    {ttlSeconds : ℤ} (httl : 0 < ttlSeconds) {model : M} {s s' : Session} {w w' : World V D}
    (hentry : w'.redis (cacheKey ns key) =
      ((server env).run (setModel p cls model ns key ttlSeconds) s w).2.2.redis
        (cacheKey ns key))
    (hlive : env.redisClock w'.ticks ≤ env.redisClock w.ticks + ttlSeconds * 1000) :
    ((server env).run (getModel p cls ns key) s' w').1 =
      .ok (cls.validate (cls.dump true model)) := by
  have hstored : w'.redis (cacheKey ns key) = some ⟨p.dumpJson (cls.dump true model),
      env.redisClock w.ticks + ttlSeconds * 1000⟩ := by
    simpa [run_setModel httl] using hentry
  rw [run_getModel, KeyValue.Store.get_eq_some.mpr ⟨_, hstored, hlive⟩]
  simp [hjson]

end Cache

end Rooti
