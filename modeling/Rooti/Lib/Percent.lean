import Mathlib.Data.List.Basic
import Mathlib.Data.Nat.Notation

/-!
# Percent-escapes

A text is read in pieces: a percent sign with two hexadecimal digits is a byte, any other
character stands for itself.  Bytes in a row are decoded as UTF-8; what is no UTF-8 becomes a
replacement character.  Whatever the bytes are, they give at most a character each, so a text
without escapes is left as it is, and any other text becomes shorter.

## Main definitions

* `pieces`, `decode`, `unquote` — reading a text
* `hasEscape` — the text has an escape
* `unquote_eq_self_iff` — the texts that are left as they are
* `countP_unquote_le`, `le_countP_unquote` — which characters may come and go

## What carries the proof

Two things are counted separately: the pieces of a text, and the characters that pieces
give. Three characters make one piece if they are an escape (`length_pieces_le`), and a
piece gives no more than one character, counting the replacement that is owed for bytes
whose character is not complete (`length_feed`, `countP_decode_le`). That is why
`broken` stands on both sides of these lemmas. A text with an escape is therefore longer
than what it is decoded to, by whatever bytes the escape is for, and decoding leaves
just the texts without one alone (`unquote_eq_self_iff`).

The same count restricted to some characters says which of them decoding may add or
lose. An escape may stand for any character at the price of its percent sign; other
characters than percent signs and hexadecimal digits are in no escape, and are kept.
-/

namespace Percent

/-- The value of a hexadecimal digit. -/
def hexValue (c : Char) : Option ℕ :=
  if '0' ≤ c ∧ c ≤ '9' then some (c.toNat - 0x30)
  else if 'A' ≤ c ∧ c ≤ 'F' then some (c.toNat - 0x37)
  else if 'a' ≤ c ∧ c ≤ 'f' then some (c.toNat - 0x57)
  else none

/-- A piece of a text. -/
inductive Piece
  | byte (b : ℕ)
  | char (c : Char)

/-- The pieces of a text. -/
def pieces : List Char → List Piece
  | '%' :: a :: b :: rest =>
      match hexValue a, hexValue b with
      | some x, some y => .byte (16 * x + y) :: pieces rest
      | _, _ => .char '%' :: pieces (a :: b :: rest)
  | c :: rest => .char c :: pieces rest
  | [] => []

/-- The text has an escape. -/
def hasEscape : List Char → Bool
  | '%' :: a :: b :: rest =>
      (hexValue a).isSome && (hexValue b).isSome || hasEscape (a :: b :: rest)
  | _ :: rest => hasEscape rest
  | [] => false

/-- What stands for bytes that are no UTF-8. -/
def replacement : Char := Char.ofNat 0xFFFD

/-- Some bytes of a character: how many more there are, the value so far, and the range of the
next one. -/
structure Pending where
  more : ℕ
  value : ℕ
  low : ℕ
  high : ℕ

/-- The first byte of a character: it is the character, or more bytes follow. -/
def start (b : ℕ) : Char ⊕ Pending :=
  if b < 0x80 then .inl (Char.ofNat b)
  else if 0xC2 ≤ b ∧ b ≤ 0xDF then .inr ⟨1, b - 0xC0, 0x80, 0xBF⟩
  else if b = 0xE0 then .inr ⟨2, 0x0, 0xA0, 0xBF⟩
  else if b = 0xED then .inr ⟨2, 0xD, 0x80, 0x9F⟩
  else if 0xE1 ≤ b ∧ b ≤ 0xEF then .inr ⟨2, b - 0xE0, 0x80, 0xBF⟩
  else if b = 0xF0 then .inr ⟨3, 0, 0x90, 0xBF⟩
  else if 0xF1 ≤ b ∧ b ≤ 0xF3 then .inr ⟨3, b - 0xF0, 0x80, 0xBF⟩
  else if b = 0xF4 then .inr ⟨3, 4, 0x80, 0x8F⟩
  else .inl replacement

/-- A byte that starts a character. -/
def first (b : ℕ) : List Char × Option Pending :=
  match start b with
  | .inl c => ([c], none)
  | .inr p => ([], some p)

/-- Another byte: the characters that it completes, and what is left. -/
def feed : Option Pending → ℕ → List Char × Option Pending
  | none, b => first b
  | some p, b =>
      if p.low ≤ b ∧ b ≤ p.high then
        let value := p.value * 64 + (b - 0x80)
        if p.more = 1 then ([Char.ofNat value], none)
        else ([], some ⟨p.more - 1, value, 0x80, 0xBF⟩)
      else (replacement :: (first b).1, (first b).2)

/-- Bytes that end too early. -/
def broken : Option Pending → List Char
  | none => []
  | some _ => [replacement]

/-- The text of the pieces. -/
def decode : Option Pending → List Piece → List Char
  | pending, [] => broken pending
  | pending, .char c :: rest => broken pending ++ c :: decode none rest
  | pending, .byte b :: rest => (feed pending b).1 ++ decode (feed pending b).2 rest

/-- **A text with its escapes decoded.** -/
def unquote (s : List Char) : List Char := decode none (pieces s)

example : unquote "%ED%95%9C%41%e2%82x%4".toList = ['한', 'A', replacement, 'x', '%', '4'] := by
  decide

section Decode

variable {pending : Option Pending} {ps : List Piece} {s t : List Char} {p : Char → Bool}

/-- A byte gives a character, or will. -/
theorem length_first (b : ℕ) : (first b).1.length + (broken (first b).2).length = 1 := by
  unfold first
  cases start b <;> rfl

/-- A byte pays for the character it gives or owes. -/
theorem length_feed (pending : Option Pending) (b : ℕ) :
    (feed pending b).1.length + (broken (feed pending b).2).length ≤
      (broken pending).length + 1 := by
  cases pending with
  | none => exact Nat.le_trans (Nat.le_of_eq (length_first b)) (Nat.le_add_left _ _)
  | some q =>
      have hfirst := length_first b
      unfold feed
      dsimp only
      split_ifs
      · show 1 ≤ 2
        exact Nat.le_succ 1
      · show 0 + 1 ≤ 2
        exact Nat.le_succ 1
      · show (first b).1.length + 1 + (broken (first b).2).length ≤ 1 + 1
        omega

/-- The piece may give a character with `p`. -/
def Piece.mayGive (p : Char → Bool) : Piece → Bool
  | .byte _ => true
  | .char c => p c

/-- The piece is a character with `p`. -/
def Piece.gives (p : Char → Bool) : Piece → Bool
  | .byte _ => false
  | .char c => p c

/-- **Bytes give at most a character each**, and the other characters are kept. -/
theorem countP_decode_le (p : Char → Bool) (pending : Option Pending) (ps : List Piece) :
    (decode pending ps).countP p ≤ (broken pending).length + ps.countP (Piece.mayGive p) := by
  induction ps generalizing pending with
  | nil => exact List.countP_le_length
  | cons piece rest ih =>
      cases piece with
      | char c =>
          have hbroken := List.countP_le_length (p := p) (l := broken pending)
          have hrest := ih none
          rw [decode, List.countP_append, List.countP_cons, List.countP_cons]
          change _ ≤ 0 + _ at hrest
          show _ ≤ _ + (_ + if p c then 1 else 0)
          omega
      | byte b =>
          have hout := List.countP_le_length (p := p) (l := (feed pending b).1)
          have hfeed := length_feed pending b
          have hrest := ih (feed pending b).2
          rw [decode, List.countP_append, List.countP_cons_of_pos rfl]
          omega

/-- Characters that stand for themselves are kept. -/
theorem le_countP_decode (p : Char → Bool) (pending : Option Pending) (ps : List Piece) :
    ps.countP (Piece.gives p) ≤ (decode pending ps).countP p := by
  induction ps generalizing pending with
  | nil => exact Nat.zero_le _
  | cons piece rest ih =>
      cases piece with
      | char c =>
          have hrest := ih none
          rw [decode, List.countP_append, List.countP_cons, List.countP_cons]
          show _ + (if p c then 1 else 0) ≤ _
          omega
      | byte b =>
          have hrest := ih (feed pending b).2
          rw [decode, List.countP_append, List.countP_cons_of_neg Bool.false_ne_true]
          omega

/-- Characters that stand for themselves. -/
theorem decode_map_char (s : List Char) : decode none (s.map .char) = s := by
  induction s with
  | nil => rfl
  | cons c rest ih => exact congrArg (c :: ·) ih

end Decode

section Pieces

variable {s t : List Char} {a b c : Char} {x y : ℕ} {p : Char → Bool}

/-- An escape is a byte. -/
theorem pieces_escape (hx : hexValue a = some x) (hy : hexValue b = some y) :
    pieces ('%' :: a :: b :: t) = .byte (16 * x + y) :: pieces t := by
  rw [pieces, hx, hy]

/-- A percent sign without two digits stands for itself. -/
theorem pieces_percent
    (hno : ∀ x y, hexValue a = some x → hexValue b = some y → False) :
    pieces ('%' :: a :: b :: t) = .char '%' :: pieces (a :: b :: t) := by
  rw [pieces]
  split
  · next x y hx hy => exact absurd hy (hno x y hx)
  · rfl

/-- So does any other character. -/
theorem pieces_char (hshort : ∀ a b t', c = '%' → t = a :: b :: t' → False) :
    pieces (c :: t) = .char c :: pieces t := by
  rw [pieces]
  exact hshort

/-- **A text without escapes** is its characters. -/
theorem pieces_of_not_hasEscape (h : hasEscape s = false) : pieces s = s.map .char := by
  induction s using pieces.induct with
  | case1 a b rest x y hy hx ih => simp [hasEscape, hx, hy] at h
  | case2 a b rest hno ih =>
      rw [hasEscape, Bool.or_eq_false_iff] at h
      rw [pieces_percent hno, ih h.2]
      rfl
  | case3 c rest hshort ih =>
      rw [hasEscape] at h
      · rw [pieces_char hshort, ih h, List.map_cons]
      · exact hshort
  | case4 => rfl

/-- **A text with an escape** has fewer pieces. -/
theorem length_pieces_le (s : List Char) :
    (pieces s).length + (if hasEscape s then 1 else 0) ≤ s.length := by
  induction s using pieces.induct with
  | case1 a b rest x y hy hx ih =>
      rw [pieces_escape hx hy]
      simp only [List.length_cons]
      split_ifs <;> omega
  | case2 a b rest hno ih =>
      have hescape : hasEscape ('%' :: a :: b :: rest) = hasEscape (a :: b :: rest) := by
        rw [hasEscape]
        cases ha : hexValue a <;> cases hb : hexValue b <;> simp_all
      rw [pieces_percent hno, hescape, List.length_cons, List.length_cons]
      omega
  | case3 c rest hshort ih =>
      have hescape : hasEscape (c :: rest) = hasEscape rest := by
        rw [hasEscape]
        exact hshort
      rw [pieces_char hshort, hescape, List.length_cons, List.length_cons]
      omega
  | case4 => exact Nat.le_refl _

/-- A percent sign is worth what its byte may give. -/
theorem countP_mayGive_pieces_le (hp : p '%') (s : List Char) :
    (pieces s).countP (Piece.mayGive p) ≤ s.countP p := by
  induction s using pieces.induct with
  | case1 a b rest x y hy hx ih =>
      rw [pieces_escape hx hy, List.countP_cons_of_pos rfl, List.countP_cons_of_pos hp,
        List.countP_cons, List.countP_cons]
      omega
  | case2 a b rest hno ih =>
      rw [pieces_percent hno, List.countP_cons_of_pos (p := p) hp,
        List.countP_cons_of_pos (p := Piece.mayGive p) (a := .char '%') hp]
      exact Nat.succ_le_succ ih
  | case3 c rest hshort ih =>
      rw [pieces_char hshort, List.countP_cons, List.countP_cons]
      exact Nat.add_le_add_right ih _
  | case4 => exact Nat.le_refl _

/-- Characters that are in no escape. -/
theorem le_countP_gives_pieces (hp : p '%' = false)
    (hhex : ∀ c, (hexValue c).isSome → p c = false) (s : List Char) :
    s.countP p ≤ (pieces s).countP (Piece.gives p) := by
  induction s using pieces.induct with
  | case1 a b rest x y hy hx ih =>
      have ha : p a = false := hhex a (hx ▸ rfl)
      have hb : p b = false := hhex b (hy ▸ rfl)
      rw [pieces_escape hx hy,
        List.countP_cons_of_neg (p := Piece.gives p) (a := .byte _) Bool.false_ne_true]
      simpa [List.countP_cons, hp, ha, hb] using ih
  | case2 a b rest hno ih =>
      have hpercent : ¬p '%' := ne_true_of_eq_false hp
      rw [pieces_percent hno, List.countP_cons_of_neg (p := p) hpercent,
        List.countP_cons_of_neg (p := Piece.gives p) (a := .char '%') hpercent]
      exact ih
  | case3 c rest hshort ih =>
      rw [pieces_char hshort, List.countP_cons, List.countP_cons]
      exact Nat.add_le_add_right ih _
  | case4 => exact Nat.le_refl _

/-- Characters in front of the first percent sign. -/
theorem pieces_append (hs : '%' ∉ s) : pieces (s ++ t) = s.map .char ++ pieces t := by
  induction s with
  | nil => rfl
  | cons c rest ih =>
      rw [List.mem_cons, not_or] at hs
      rw [List.cons_append, pieces_char fun _ _ _ hc => absurd hc.symm hs.1, ih hs.2]
      rfl

end Pieces

/-! ## Decoded texts -/

section Unquote

variable {s t : List Char} {p : Char → Bool}

/-- **No text becomes longer**, and one with an escape becomes shorter. -/
theorem length_unquote_le (s : List Char) :
    (unquote s).length + (if hasEscape s then 1 else 0) ≤ s.length := by
  have hdecode := countP_decode_le (fun _ => true) none (pieces s)
  have hpieces := length_pieces_le s
  have hcount : (pieces s).countP (Piece.mayGive fun _ => true) ≤ (pieces s).length :=
    List.countP_le_length
  rw [List.countP_true] at hdecode
  change (unquote s).length ≤ 0 + _ at hdecode
  omega

/-- **The texts that are left as they are.** -/
theorem unquote_eq_self_iff : unquote s = s ↔ hasEscape s = false := by
  constructor
  · intro h
    have hlength := length_unquote_le s
    rw [h] at hlength
    cases hescape : hasEscape s with
    | false => rfl
    | true =>
        rw [hescape, if_pos rfl] at hlength
        omega
  · intro h
    rw [unquote, pieces_of_not_hasEscape h, decode_map_char]

/-- A text as long as what it is decoded to. -/
theorem unquote_eq_of_length_le (h : s.length ≤ (unquote s).length) : unquote s = s := by
  have hlength := length_unquote_le s
  refine unquote_eq_self_iff.mpr ?_
  cases hescape : hasEscape s with
  | false => rfl
  | true =>
      rw [hescape, if_pos rfl] at hlength
      omega

/-- **Nothing comes up** beyond the percent signs it is paid with: where percent signs
are counted as well, there are no more of the counted characters after decoding than
before. -/
theorem countP_unquote_le (hp : p '%') (s : List Char) : (unquote s).countP p ≤ s.countP p := by
  have hdecode := countP_decode_le p none (pieces s)
  have hpieces := countP_mayGive_pieces_le hp s
  change (unquote s).countP p ≤ 0 + _ at hdecode
  omega

/-- **What is in no escape stays**: characters that are neither percent signs nor
hexadecimal digits are all there after decoding. -/
theorem le_countP_unquote (hp : p '%' = false) (hhex : ∀ c, (hexValue c).isSome → p c = false)
    (s : List Char) : s.countP p ≤ (unquote s).countP p :=
  Nat.le_trans (le_countP_gives_pieces hp hhex s) (le_countP_decode p none (pieces s))

/-- Characters in front of the first percent sign. -/
theorem unquote_append (hs : '%' ∉ s) : unquote (s ++ t) = s ++ unquote t := by
  rw [unquote, pieces_append hs, unquote]
  clear hs
  induction s with
  | nil => rfl
  | cons c rest ih => exact congrArg (c :: ·) ih

/-- A text without percent signs. -/
theorem unquote_of_not_mem (hs : '%' ∉ s) : unquote s = s := by
  have hunquote := unquote_append (t := []) hs
  rwa [List.append_nil, show unquote [] = [] from rfl, List.append_nil] at hunquote

end Unquote

end Percent
