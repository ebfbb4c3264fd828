import Mathlib.Algebra.Group.Int.Defs
import Mathlib.Algebra.Group.Nat.Defs
import Mathlib.Data.Nat.Notation

/-!
# Floats

A number that is written with a fraction or an exponent is read as the nearest binary64 float,
an even one where two are equally near.  What follows is about the float and not about the
number that was written: `int(1e23)` is 99999999999999991611392, and `1e400` is an infinity,
which `int(...)` refuses.

A float is written with as few digits as it takes to read it back.  Zero has no sign here.

## Main definitions

* `Float64`, `Float64.nearest` — positive floats, and the one nearest to a fraction
* `Float64.ofDecimal` — the float that is read from a decimal number
* `Float64.trunc`, `Float64.repr` — what `int(...)` and `repr(...)` make of a float
-/

namespace Rooti

/-- A float that is zero or positive and finite: `significand · 2 ^ exponent`. -/
structure Float64 where
  significand : ℕ
  exponent : ℤ
  deriving DecidableEq, Repr

namespace Float64

/-- A fraction rounded to an integer, half to even. -/
def roundHalfEven (n d : ℕ) : ℕ :=
  let q := n / d
  let r := n % d
  if 2 * r < d ∨ 2 * r = d ∧ q % 2 = 0 then q else q + 1

/-- The integer next to `n / d / 2 ^ k`. -/
def scaled (n d : ℕ) (k : ℤ) : ℕ :=
  if 0 ≤ k then roundHalfEven n (d * 2 ^ k.toNat) else roundHalfEven (n * 2 ^ (-k).toNat) d

/-- The largest power of two that is not above the fraction `n / d`, as an exponent. -/
def binaryExponent (n d : ℕ) : ℤ :=
  let l : ℤ := n.log2 - d.log2
  if n * 2 ^ (-l).toNat < d * 2 ^ l.toNat then l - 1 else l

/-- **The float nearest to a fraction**; `none` is an infinity.  53 binary digits are kept, and
fewer where the exponent would fall under that of the smallest float. -/
def nearest (n d : ℕ) : Option Float64 :=
  if n = 0 then some ⟨0, 0⟩
  else
    let k := max (-1074) (binaryExponent n d - 52)
    let q := scaled n d k
    let x : Float64 := if q = 2 ^ 53 then ⟨2 ^ 52, k + 1⟩ else ⟨q, k⟩
    if 971 < x.exponent then none else some x

/-- The float read from `m · 10 ^ e`, without its sign. -/
def ofDecimal (m : ℕ) (e : ℤ) : Option Float64 :=
  if 0 ≤ e then nearest (m * 10 ^ e.toNat) 1 else nearest m (10 ^ (-e).toNat)

/-- `int(x)`. -/
def trunc (x : Float64) : ℕ :=
  if 0 ≤ x.exponent then x.significand * 2 ^ x.exponent.toNat
  else x.significand / 2 ^ (-x.exponent).toNat

/-- A float as a fraction. -/
def fraction (x : Float64) : ℕ × ℕ :=
  (x.significand * 2 ^ x.exponent.toNat, 2 ^ (-x.exponent).toNat)

/-- The number of digits in front of the decimal point; zeros behind it count down. -/
def decimalPoint (n d : ℕ) : ℤ :=
  let l : ℤ := (Nat.toDigits 10 n).length - (Nat.toDigits 10 d).length
  if n * 10 ^ (-l).toNat < d * 10 ^ l.toNat then l else l + 1

/-- The decimals with `digits` significant digits around a float that are read as it, the nearest
one first. -/
def candidates (x : Float64) (digits : ℕ) : List (ℕ × ℤ) :=
  let (n, d) := x.fraction
  let e := decimalPoint n d - digits
  let n' := n * 10 ^ (-e).toNat
  let d' := d * 10 ^ e.toNat
  let low := n' / d'
  let near := if roundHalfEven n' d' = low then [low, low + 1] else [low + 1, low]
  (near.filter fun m => ofDecimal m e = some x).map fun m => (m, e)

/-- The shortest decimal that is read as a float; 17 digits are always enough. -/
def shortest (x : Float64) : ℕ × ℤ :=
  (((List.range 17).flatMap fun k => x.candidates (k + 1)).head?).getD (0, 0)

/-- Digits without the zeros at their end. -/
def stripZeros (digits : List Char) : List Char :=
  (digits.reverse.dropWhile (· = '0')).reverse

/-- An exponent has a sign and two digits at least. -/
def exponentText (e : ℤ) : List Char :=
  let digits := Nat.toDigits 10 e.natAbs
  (if e < 0 then '-' else '+') :: (List.replicate (2 - digits.length) '0' ++ digits)

/-- `repr(x)`: exponents from `1e+16` on and under `0.0001`. -/
def repr (x : Float64) : String :=
  if x.significand = 0 then "0.0"
  else
    let (m, e) := x.shortest
    let digits := Nat.toDigits 10 m
    let point : ℤ := digits.length + e
    let kept := stripZeros digits
    String.ofList <|
      if 16 < point ∨ point ≤ -4 then
        kept.take 1 ++ (if kept.length = 1 then [] else '.' :: kept.drop 1) ++
          'e' :: exponentText (point - 1)
      else if point ≤ 0 then '0' :: '.' :: (List.replicate (-point).toNat '0' ++ kept)
      else
        let whole := kept ++ List.replicate (point.toNat - kept.length) '0'
        whole.take point.toNat ++ '.' :: (if kept.length ≤ point.toNat then ['0']
          else kept.drop point.toNat)

example : (ofDecimal 1 23).map trunc = some 99999999999999991611392 := by decide +kernel

example : ofDecimal 1 400 = none := by decide +kernel

end Float64

end Rooti
