import Rooti.Core.Python

/-!
# Decimal numbers

The text `str(...)` writes for an integer is read back by `int(...)`.  Both refuse
more than 4300 digits.

## Main definitions

* `Py.strFits` — the integers `str(...)` writes
* `Py.int?_toString` — a text that is written is read back

## What carries the proof

The text of an integer is its digits, after a sign if it is negative
(`toList_toString`). No digit is white space, so stripping does nothing; none is an
underscore, so they are read one after the other; and there are as many of them as the
limit counts (`filter_toDigits`). The rest is `Nat.ofDigitChars_toDigits`.
-/

namespace Rooti

namespace Py

/-- `sys.int_info.default_max_str_digits`. -/
def maxStrDigits : ℕ := 4300

/-- `str(n)` does not fail: the number has at most 4300 digits. -/
def strFits (n : ℤ) : Prop := n.natAbs < 10 ^ maxStrDigits

instance (n : ℤ) : Decidable (strFits n) := inferInstanceAs (Decidable (_ < _))

/-- Powers of ten are compared by their exponents. -/
theorem natAbs_ten_pow_lt {k m : ℕ} : ((10 : ℤ) ^ k).natAbs < 10 ^ m ↔ k < m := by
  rw [Int.natAbs_pow]
  exact Nat.pow_lt_pow_iff_right (by decide)

/-- The powers of ten that fit. -/
theorem strFits_ten_pow {k : ℕ} : strFits (10 ^ k) ↔ k < maxStrDigits := by
  rw [strFits, natAbs_ten_pow_lt]

/-- A single digit fits. -/
theorem strFits_of_lt_ten {n : ℤ} (h : n.natAbs < 10) : strFits n :=
  Nat.lt_of_lt_of_le h (Nat.le_self_pow (by decide) 10)

variable {s : List Char} {c : Char}

/-- The digits are `0` to `9`, and no others. -/
theorem isDigit_iff : c.isDigit ↔ 48 ≤ c.toNat ∧ c.toNat ≤ 57 := by
  rw [Char.isDigit, Bool.and_eq_true, decide_eq_true_eq, decide_eq_true_eq]
  rfl

/-- A digit is not white space. -/
theorem not_isSpace_of_isDigit (h : c.isDigit) : ¬isSpace c := by
  obtain ⟨hge, hle⟩ := isDigit_iff.mp h
  simp only [isSpace, Bool.decide_or, Bool.decide_and, Bool.or_eq_true, Bool.and_eq_true,
    decide_eq_true_eq, List.mem_cons, List.not_mem_nil, or_false]
  omega

/-- Nothing is stripped from a text without blanks. -/
theorem stripBy_of_not_blank {blank : Char → Bool} (h : ∀ c ∈ s, ¬blank c) :
    stripBy blank s = s := by
  have hdrop : ∀ t : List Char, (∀ c ∈ t, ¬blank c) → t.dropWhile blank = t := by
    intro t ht
    cases t with
    | nil => rfl
    | cons c t => exact List.dropWhile_cons_of_neg (ht c List.mem_cons_self)
  rw [stripBy, hdrop s h, hdrop s.reverse fun c hc => h c (List.mem_reverse.mp hc),
    List.reverse_reverse]

/-- What `int(...)` strips is white space. -/
theorem isSpace_of_isNumberSpace (h : isNumberSpace c) : isSpace c :=
  (Bool.and_eq_true_iff.mp h).1

/-- Nothing is stripped from a text without white space. -/
theorem stripBy_of_not_isSpace (h : ∀ c ∈ s, ¬isSpace c) : stripBy isNumberSpace s = s :=
  stripBy_of_not_blank fun c hc hspace => h c hc (isSpace_of_isNumberSpace hspace)

/-- A digit is read as what it stands for. -/
theorem digit?_of_isDigit (h : c.isDigit) : digit? c = some (c.toNat - 48) := by
  obtain ⟨hge, hle⟩ := isDigit_iff.mp h
  have hfirst : (0x30 ≤ c.toNat ∧ c.toNat < 0x30 + 10) := by omega
  rw [digit?, zeros, List.find?_cons_of_pos (by simpa using hfirst)]
  rfl

/-- Digits are read one after the other. -/
theorem digits?_of_isDigit (h : ∀ c ∈ s, c.isDigit) (acc : ℕ) :
    digits? acc s = some (Nat.ofDigitChars 10 s acc) := by
  induction s generalizing acc with
  | nil => rfl
  | cons c s ih =>
      obtain ⟨hc, hs⟩ := List.forall_mem_cons.mp h
      have hstep : digits? acc (c :: s) = (digit? c).bind fun d => digits? (10 * acc + d) s := by
        rw [digits?]
        rintro c' cs rfl
        cases hc
      rw [hstep, digit?_of_isDigit hc, Option.bind_some, ih hs, Nat.ofDigitChars_cons]
      rfl

/-- **The digits of a number** are read as the number. -/
theorem natural?_toDigits (n : ℕ) : natural? (Nat.toDigits 10 n) = some n := by
  have hdigits : ∀ c ∈ Nat.toDigits 10 n, c.isDigit := fun c hc =>
    Nat.isDigit_of_mem_toDigits (by decide) (by decide) hc
  have hvalue := Nat.ofDigitChars_toDigits (n := n) (b := 10) (by decide) (by decide)
  obtain ⟨c, cs, hcons⟩ := List.exists_cons_of_ne_nil (Nat.toDigits_ne_nil (n := n) (b := 10))
  rw [hcons] at hdigits hvalue ⊢
  obtain ⟨hc, hcs⟩ := List.forall_mem_cons.mp hdigits
  rw [natural?, digit?_of_isDigit hc, Option.bind_some, digits?_of_isDigit hcs, ← hvalue,
    Nat.ofDigitChars_cons]
  rw [Nat.mul_zero, Nat.zero_add]
  rfl

/-- The text of a number has its digits, after the sign of a negative one. -/
theorem toList_toString (n : ℤ) :
    (toString n).toList =
      if 0 ≤ n then Nat.toDigits 10 n.toNat else '-' :: Nat.toDigits 10 (-n).toNat := by
  rw [Int.toString_eq_repr, Int.repr_eq_if]
  split_ifs
  · exact Nat.toList_repr
  · rw [String.toList_append, Nat.toList_repr]
    rfl

/-- The characters of an integer. -/
theorem isDigit_or_minus (n : ℤ) : ∀ c ∈ (toString n).toList, c.isDigit ∨ c = '-' := by
  have hdigit : ∀ {c : Char} {m : ℕ}, c ∈ Nat.toDigits 10 m → c.isDigit :=
    fun hc => Nat.isDigit_of_mem_toDigits (by decide) (by decide) hc
  rw [toList_toString]
  split
  · exact fun c hc => .inl (hdigit hc)
  · exact List.forall_mem_cons.mpr ⟨.inr rfl, fun c hc => .inl (hdigit hc)⟩

/-- Different integers are written differently. -/
theorem toString_injective {m n : ℤ} (h : toString m = toString n) : m = n := by
  have hlists := congrArg String.toList h
  rw [toList_toString, toList_toString] at hlists
  have hdigits : ∀ {a b : ℕ}, Nat.toDigits 10 a = Nat.toDigits 10 b → a = b := by
    intro a b hab
    have hvalue := natural?_toDigits a
    rw [hab, natural?_toDigits] at hvalue
    exact (Option.some.inj hvalue).symm
  have hminus : ∀ {a : ℕ} {cs : List Char}, Nat.toDigits 10 a ≠ '-' :: cs := by
    intro a cs hcons
    have hmem : '-' ∈ Nat.toDigits 10 a := hcons ▸ List.mem_cons_self
    have hdigit := Nat.isDigit_of_mem_toDigits (b := 10) (by decide) (by decide) hmem
    cases hdigit
  split_ifs at hlists with hm hn hn
  · have := hdigits hlists
    omega
  · exact absurd hlists hminus
  · exact absurd hlists.symm hminus
  · have := hdigits (List.cons.inj hlists).2
    omega

section Digits

variable (n : ℕ)

/-- A number is written with digits. -/
theorem isDigit_toDigits : ∀ c ∈ Nat.toDigits 10 n, c.isDigit :=
  fun _ hc => Nat.isDigit_of_mem_toDigits (by decide) (by decide) hc

/-- Nothing is stripped from a number. -/
theorem stripBy_toDigits : stripBy isNumberSpace (Nat.toDigits 10 n) = Nat.toDigits 10 n :=
  stripBy_of_not_isSpace fun c hc => not_isSpace_of_isDigit (isDigit_toDigits n c hc)

/-- Nor from a negative one. -/
theorem stripBy_minus_toDigits :
    stripBy isNumberSpace ('-' :: Nat.toDigits 10 n) = '-' :: Nat.toDigits 10 n := by
  refine stripBy_of_not_isSpace (List.forall_mem_cons.mpr ⟨by decide, fun c hc => ?_⟩)
  exact not_isSpace_of_isDigit (isDigit_toDigits n c hc)

/-- The digits that count towards the limit. -/
theorem filter_toDigits :
    (Nat.toDigits 10 n).filter (fun c => (digit? c).isSome) = Nat.toDigits 10 n := by
  refine List.filter_eq_self.mpr fun c hc => ?_
  rw [digit?_of_isDigit (isDigit_toDigits n c hc)]
  rfl

/-- A number is too long exactly if it is too large. -/
theorem lt_length_toDigits_iff {k : ℕ} (hk : 0 < k) :
    k < (Nat.toDigits 10 n).length ↔ ¬n < 10 ^ k := by
  rw [← Nat.length_toDigits_le_iff (by decide) hk, Nat.not_le]

/-- A number without sign, as `int(...)` sees it. -/
theorem int?_digits {s : String} (hs : s.toList = Nat.toDigits 10 n) :
    int? s = if strFits n then some (n : ℤ) else none := by
  have hlength : maxStrDigits < (Nat.toDigits 10 n).length ↔ ¬strFits n := by
    rw [strFits, Int.natAbs_natCast]
    exact lt_length_toDigits_iff n (Nat.succ_pos _)
  have hnatural := natural?_toDigits n
  unfold int?
  dsimp only
  rw [show 4300 = maxStrDigits from rfl, hs, stripBy_toDigits, filter_toDigits]
  by_cases hfits : strFits n
  · rw [if_neg (hlength.not.mpr (not_not.mpr hfits)), if_pos hfits]
    -- the first digit is no sign
    obtain ⟨c, cs, hcons⟩ := List.exists_cons_of_ne_nil (Nat.toDigits_ne_nil (n := n) (b := 10))
    have hc : c.isDigit := isDigit_toDigits n c (hcons ▸ List.mem_cons_self)
    rw [hcons] at hnatural ⊢
    split
    · next cs' heq =>
        cases heq
        exact absurd hc (by decide)
    · next cs' heq =>
        cases heq
        exact absurd hc (by decide)
    · rw [hnatural]
      rfl
  · rw [if_pos (hlength.mpr hfits), if_neg hfits]

/-- A number with its sign. -/
theorem int?_minus_digits {s : String} (hs : s.toList = '-' :: Nat.toDigits 10 n) :
    int? s = if strFits (-n) then some (-n : ℤ) else none := by
  have hlength : maxStrDigits < (Nat.toDigits 10 n).length ↔ ¬strFits (-n) := by
    rw [strFits, Int.natAbs_neg, Int.natAbs_natCast]
    exact lt_length_toDigits_iff n (Nat.succ_pos _)
  unfold int?
  dsimp only
  rw [show 4300 = maxStrDigits from rfl, hs, stripBy_minus_toDigits,
    List.filter_cons_of_neg (by decide), filter_toDigits]
  by_cases hfits : strFits (-n)
  · rw [if_neg (hlength.not.mpr (not_not.mpr hfits)), if_pos hfits]
    show Option.map (fun m : ℤ => -m) ((natural? (Nat.toDigits 10 n)).bind fun a => some (a : ℤ)) =
      some (-n : ℤ)
    rw [natural?_toDigits]
    rfl
  · rw [if_pos (hlength.mpr hfits), if_neg hfits]

end Digits

/-- **A number that is written is read back**, unless it is too long. -/
theorem int?_toString (n : ℤ) : int? (toString n) = if strFits n then some n else none := by
  have htext := toList_toString n
  by_cases hsign : 0 ≤ n
  · obtain ⟨m, rfl⟩ := Int.eq_ofNat_of_zero_le hsign
    rw [if_pos hsign, Int.toNat_natCast] at htext
    exact int?_digits m htext
  · obtain ⟨m, rfl⟩ : ∃ m : ℕ, n = -(m : ℤ) := ⟨n.natAbs, by omega⟩
    rw [if_neg hsign, Int.neg_neg, Int.toNat_natCast] at htext
    exact int?_minus_digits m htext

end Py

end Rooti
