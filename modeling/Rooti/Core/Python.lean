import Mathlib.Algebra.Group.Int.Defs
import Mathlib.Algebra.Group.Nat.Defs
import Mathlib.Data.Nat.Notation
import Rooti.Core.Floats
import Rooti.Lib.Json

/-!
# The language the server is written in

The built-in behaviour the services rely on: blank stripping, `int(...)` of a
string, `removeprefix`, and the naive and aware instants of `datetime`.
An instant counts microseconds of wall-clock time; `offset` is the UTC offset of
an aware one.
-/

namespace Rooti

namespace Py

/-- `str.isspace` of a one-character string. -/
def isSpace (c : Char) : Bool :=
  (0x09 ≤ c.toNat ∧ c.toNat ≤ 0x0d) ∨ (0x1c ≤ c.toNat ∧ c.toNat ≤ 0x20) ∨
    (0x2000 ≤ c.toNat ∧ c.toNat ≤ 0x200a) ∨
    c.toNat ∈ [0x85, 0xa0, 0x1680, 0x2028, 0x2029, 0x202f, 0x205f, 0x3000]

/-- A blank around the digits that `int(...)` reads.  It looks for blanks as C does, once those
beyond ASCII have been replaced, so the four separators of ASCII are none. -/
def isNumberSpace (c : Char) : Bool := isSpace c && !(0x1c ≤ c.toNat ∧ c.toNat ≤ 0x1f)

/-- The characters of a string without the blanks at its ends. -/
def stripBy (blank : Char → Bool) (s : List Char) : List Char :=
  ((s.dropWhile blank).reverse.dropWhile blank).reverse

/-- `str.strip()` on the characters of a string. -/
def stripChars (s : List Char) : List Char := stripBy isSpace s

/-- `str.strip()`. -/
def strip (s : String) : String := String.ofList (stripChars s.toList)

/-- The code points of the digit zero in every script with decimal digits. -/
def zeros : List ℕ :=
  [0x30, 0x660, 0x6f0, 0x7c0, 0x966, 0x9e6, 0xa66, 0xae6, 0xb66, 0xbe6, 0xc66, 0xce6, 0xd66,
    0xde6, 0xe50, 0xed0, 0xf20, 0x1040, 0x1090, 0x17e0, 0x1810, 0x1946, 0x19d0, 0x1a80,
    0x1a90, 0x1b50, 0x1bb0, 0x1c40, 0x1c50, 0xa620, 0xa8d0, 0xa900, 0xa9d0, 0xa9f0, 0xaa50,
    0xabf0, 0xff10, 0x104a0, 0x10d30, 0x11066, 0x110f0, 0x11136, 0x111d0, 0x112f0, 0x11450,
    0x114d0, 0x11650, 0x116c0, 0x11730, 0x118e0, 0x11950, 0x11c50, 0x11d50, 0x11da0, 0x16a60,
    0x16ac0, 0x16b50, 0x1d7ce, 0x1d7d8, 0x1d7e2, 0x1d7ec, 0x1d7f6, 0x1e140, 0x1e2f0, 0x1e950,
    0x1fbf0]

/-- The value of a decimal digit of any script. -/
def digit? (c : Char) : Option ℕ :=
  (zeros.find? fun z => z ≤ c.toNat ∧ c.toNat < z + 10).map fun z => c.toNat - z

/-- Digits with single underscores between them, most significant first. -/
def digits? : ℕ → List Char → Option ℕ
  | acc, [] => some acc
  | acc, '_' :: c :: cs => (digit? c).bind fun d => digits? (10 * acc + d) cs
  | acc, c :: cs => (digit? c).bind fun d => digits? (10 * acc + d) cs

/-- Digits, starting with one. -/
def natural? : List Char → Option ℕ
  | [] => none
  | c :: cs => (digit? c).bind fun d => digits? d cs

/-- `int(s)` of a string: blanks around, a sign, digits.  More than 4300 digits
are refused. -/
def int? (s : String) : Option ℤ :=
  let body := stripBy isNumberSpace s.toList
  if 4300 < (body.filter fun c => (digit? c).isSome).length then none
  else match body with
    | '-' :: cs => (natural? cs).map fun n => -(n : ℤ)
    | '+' :: cs => (natural? cs).map fun n => (n : ℤ)
    | cs => (natural? cs).map fun n => (n : ℤ)

example : int? " 7\n" = some 7 ∧ int? "\x1c7" = none ∧ int? "\u00a07" = some 7 := by decide +kernel

/-- The exceptions of `int(...)`. -/
inductive IntError
  | valueError
  | typeError
  | overflowError
  deriving DecidableEq, Repr

/-- `int(x)` of a parsed JSON value.  A number that is written with a fraction or an exponent
has become a float. -/
def intOf : Json → Except IntError ℤ
  | .int n => .ok n
  | .bool b => .ok (if b then 1 else 0)
  | .num m e => match Float64.ofDecimal m.natAbs e with
      | some x => .ok (m.sign * x.trunc)
      | none => .error .overflowError
  | .str s => match int? s with
      | some n => .ok n
      | none => .error .valueError
  | .null | .arr _ | .obj _ => .error .typeError

/-- `list(x)` of a parsed JSON value; `none` is a `TypeError`. -/
def listOf : Json → Option (List Json)
  | .arr items => some items
  | .str s => some (s.toList.map fun c => .str (String.singleton c))
  | .obj fields => some (fields.map fun f => .str f.1)
  | .null | .bool _ | .int _ | .num .. => none

/-- `s.removeprefix(prefix)`. -/
def removeprefix (pre s : String) : String :=
  if pre.toList.isPrefixOf s.toList then String.ofList (s.toList.drop pre.toList.length) else s

/-- `bool(s)` of an optional string. -/
def truthy (s : Option String) : Bool := s.any (· ≠ "")

/-- `a or b` on an optional string. -/
def orElse (a : Option String) (b : String) : String :=
  match a with
  | some s => if s = "" then b else s
  | none => b

/-- `a or b` on an optional number. -/
def orInt (a : Option ℤ) (b : ℤ) : ℤ :=
  match a with
  | some n => if n = 0 then b else n
  | none => b

end Py

/-- `datetime.datetime`: microseconds of wall-clock time since 1970, and the UTC
offset of an aware instant. -/
structure DateTime where
  micros : ℤ
  offset : Option ℤ := none
  deriving DecidableEq, Repr

/-- `datetime.time`: microseconds since midnight, and the UTC offset of an aware
time. -/
structure TimeOfDay where
  micros : ℤ
  offset : Option ℤ := none
  deriving DecidableEq, Repr

/-- `datetime.date`: days since 1970-01-01. -/
structure Date where
  days : ℤ
  deriving DecidableEq, Repr

/-- `date.max`, the last day of the year 9999. -/
def Date.max : Date := ⟨2932896⟩

namespace DateTime

/-- Microseconds of a day. -/
def dayMicros : ℤ := 86400 * 1000000

/-- `dt.date()`. -/
def date (t : DateTime) : Date := ⟨t.micros / dayMicros⟩

/-- `datetime.combine(day, time.min)`. -/
def dayStart (d : Date) : DateTime := ⟨d.days * dayMicros, none⟩

/-- `datetime.combine(day, time.max)`. -/
def dayEnd (d : Date) : DateTime := ⟨d.days * dayMicros + (dayMicros - 1), none⟩

end DateTime

/-- Year, month and day of a date in the proleptic Gregorian calendar. -/
def Date.civil (d : Date) : ℤ × ℤ × ℤ :=
  let z := d.days + 719468
  let era := z / 146097
  let doe := z % 146097
  let yoe := (doe - doe / 1460 + doe / 36524 - doe / 146096) / 365
  let doy := doe - (365 * yoe + yoe / 4 - yoe / 100)
  let mp := (5 * doy + 2) / 153
  let m := if mp < 10 then mp + 3 else mp - 9
  (yoe + era * 400 + (if m ≤ 2 then 1 else 0), m, doy - (153 * mp + 2) / 5 + 1)

example : Date.max.civil = (9999, 12, 31) := by decide

/-- A number with leading zeros to a width. -/
def padded (width : ℕ) (n : ℤ) : String :=
  let s := (toString n).toList
  String.ofList (List.replicate (width - s.length) '0' ++ s)

/-- `d.isoformat()`. -/
def Date.isoformat (d : Date) : String :=
  let (y, m, day) := d.civil
  padded 4 y ++ "-" ++ padded 2 m ++ "-" ++ padded 2 day

/-- `t.isoformat()` of a naive instant. -/
def DateTime.isoformat (t : DateTime) : String :=
  let rest := t.micros % DateTime.dayMicros
  let sec := rest / 1000000
  let frac := rest % 1000000
  t.date.isoformat ++ "T" ++ padded 2 (sec / 3600) ++ ":" ++ padded 2 (sec / 60 % 60) ++ ":" ++
    padded 2 (sec % 60) ++ (if frac = 0 then "" else "." ++ padded 6 frac)

example : (DateTime.mk 1717243261000005 none).isoformat = "2024-06-01T12:01:01.000005" := by
  decide +kernel

end Rooti
