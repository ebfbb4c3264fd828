import Rooti.Core.Decimal

/-!
# Parsed JSON and its texts

What `json.loads` gives, as the values of the language: a number with a fraction or an exponent
is a float, zero keeps its sign, and `NaN` and `Infinity` are read although JSON has none.

A value that goes into an f-string is written as `str(...)` writes it: a text as it is, and what
is inside of a list or a dictionary as `repr(...)` does, in quotes and with escapes.  Which
letters beyond ASCII are printable is a matter of the Unicode database.  An integer of more than
4300 digits is not written at all.

## Main definitions

* `Py.Value`, `Py.Value.truthy` — parsed values, and `bool(...)` of them
* `Py.reprStr` — `repr(...)` of a text
* `Py.Value.str?` — `str(...)` of a value, where it does not raise
-/

namespace Rooti.Py

/-- **A parsed value.**  A finite float is kept as it was written, `m · 10 ^ e` with a sign; a
dictionary is its items in order. -/
inductive Value
  | none
  | bool (b : Bool)
  | int (n : ℤ)
  | float (negative : Bool) (m : ℕ) (e : ℤ)
  | infinity (negative : Bool)
  | nan
  | str (s : String)
  | list (items : List Value)
  | dict (items : List (String × Value))

/-- `bool(x)`. -/
def Value.truthy : Value → Bool
  | .none => false
  | .bool b => b
  | .int n => n ≠ 0
  | .float _ m e => (Float64.ofDecimal m e).all fun x => x.significand ≠ 0
  | .infinity _ | .nan => true
  | .str s => s ≠ ""
  | .list items => !items.isEmpty
  | .dict items => !items.isEmpty

/-- `\` with a letter and hexadecimal digits. -/
def hexEscape (letter : Char) (width : ℕ) (c : Char) : List Char :=
  let digits := Nat.toDigits 16 c.toNat
  '\\' :: letter :: (List.replicate (width - digits.length) '0' ++ digits)

/-- A character of a text in quotes. -/
def reprChar (printable : Char → Bool) (quote c : Char) : List Char :=
  if c = quote ∨ c = '\\' then ['\\', c]
  else if c = '\t' then ['\\', 't']
  else if c = '\n' then ['\\', 'n']
  else if c = '\r' then ['\\', 'r']
  else if c.toNat < 0x20 ∨ c.toNat = 0x7f then hexEscape 'x' 2 c
  else if c.toNat < 0x7f ∨ printable c then [c]
  else if c.toNat ≤ 0xff then hexEscape 'x' 2 c
  else if c.toNat ≤ 0xffff then hexEscape 'u' 4 c
  else hexEscape 'U' 8 c

/-- `repr(s)`: double quotes are for texts with single ones only. -/
def reprStr (printable : Char → Bool) (s : String) : String :=
  let quote := if '\'' ∈ s.toList ∧ '"' ∉ s.toList then '"' else '\''
  String.ofList (quote :: (s.toList.flatMap (reprChar printable quote) ++ [quote]))

/-- The sign of a float. -/
def signText (negative : Bool) : String := if negative then "-" else ""

mutual

/-- `repr(x)`, where it does not raise. -/
def Value.repr? (printable : Char → Bool) : Value → Option String
  | .none => some "None"
  | .bool b => some (if b then "True" else "False")
  | .int n => if strFits n then some (toString n) else Option.none
  | .float negative m e =>
      some (signText negative ++ ((Float64.ofDecimal m e).map Float64.repr).getD "inf")
  | .infinity negative => some (signText negative ++ "inf")
  | .nan => some "nan"
  | .str s => some (reprStr printable s)
  | .list items => (reprItems? printable items).map fun texts =>
      "[" ++ ", ".intercalate texts ++ "]"
  | .dict items => (reprFields? printable items).map fun texts =>
      "\x7b" ++ ", ".intercalate texts ++ "\x7d"

/-- The items of a list. -/
def reprItems? (printable : Char → Bool) : List Value → Option (List String)
  | [] => some []
  | item :: items => do
      let text ← item.repr? printable
      let texts ← reprItems? printable items
      return text :: texts

/-- The items of a dictionary. -/
def reprFields? (printable : Char → Bool) : List (String × Value) → Option (List String)
  | [] => some []
  | (key, value) :: items => do
      let text ← value.repr? printable
      let texts ← reprFields? printable items
      return (reprStr printable key ++ ": " ++ text) :: texts

end

/-- `str(x)`, where it does not raise: a text is not put in quotes. -/
def Value.str? (printable : Char → Bool) : Value → Option String
  | .str s => some s
  | value => value.repr? printable

example : (Value.list [.str "it's", .float true 125 (-1), .none]).str? (fun _ => true) =
    some "[\"it's\", -12.5, None]" := by decide +kernel

end Rooti.Py
