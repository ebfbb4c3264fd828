import Rooti.Lib.Percent

/-!
# Quoted texts

A text is quoted byte by byte: what is a letter, a digit or one of four signs stays, any other
byte of its UTF-8 encoding becomes an escape.  A quoted text consists of such characters and
percent signs, and is read back as it was.

## Main definitions

* `quote` — a quoted text
* `unquote_quote` — it is read back
* `mem_quote` — its characters

## What carries the proof

A character is encoded to one to four bytes, and the decoder goes through its states
while it reads them; there is one lemma for each length. What makes the boundaries meet
is that the second byte is restricted after some first bytes, so that no character has
two encodings: the value has to be computed back from the bytes to see that it is in
range. A byte that stays is one of ASCII and no percent sign, so it cannot be taken for
part of an escape.
-/

namespace Percent

/-- The bytes that stay: letters, digits, and `_.-~`. -/
def isUnreserved (b : ℕ) : Bool :=
  (0x30 ≤ b && b ≤ 0x39) || (0x41 ≤ b && b ≤ 0x5A) || (0x61 ≤ b && b ≤ 0x7A) ||
    b = 0x5F || b = 0x2E || b = 0x2D || b = 0x7E

/-- An upper-case hexadecimal digit. -/
def hexDigit (n : ℕ) : Char := Char.ofNat (if n < 10 then 0x30 + n else 0x37 + n)

/-- A quoted byte. -/
def quoteByte (b : ℕ) : List Char :=
  if isUnreserved b then [Char.ofNat b] else ['%', hexDigit (b / 16), hexDigit (b % 16)]

/-- **A text quoted byte by byte.** -/
def quote (s : List Char) : List Char :=
  s.flatMap fun c => (String.utf8EncodeChar c).flatMap fun b => quoteByte b.toNat

example : quote "일지 1.pdf".toList = "%EC%9D%BC%EC%A7%80%201.pdf".toList := by decide

/-- A hexadecimal digit is read as what it stands for. -/
theorem hexValue_hexDigit {n : ℕ} (h : n < 16) : hexValue (hexDigit n) = some n := by
  revert n
  decide

/-- A byte that stays is no percent sign. -/
theorem ofNat_ne_percent {b : ℕ} (h : isUnreserved b) : Char.ofNat b ≠ '%' := by
  have hall : ∀ b < 0x7F, isUnreserved b → Char.ofNat b ≠ '%' := by decide
  refine hall b ?_ h
  simp only [isUnreserved, Bool.or_eq_true, Bool.and_eq_true, decide_eq_true_eq] at h
  omega

/-- What a quoted byte is read as. -/
theorem pieces_quoteByte {b : ℕ} (h : b < 256) (t : List Char) :
    pieces (quoteByte b ++ t) =
      (if isUnreserved b then .char (Char.ofNat b) else .byte b) :: pieces t := by
  unfold quoteByte
  by_cases hstays : isUnreserved b
  · rw [if_pos hstays, if_pos hstays, List.singleton_append]
    exact pieces_char fun _ _ _ hc => absurd hc (ofNat_ne_percent hstays)
  · have hhigh : hexValue (hexDigit (b / 16)) = some (b / 16) := hexValue_hexDigit (by omega)
    have hlow : hexValue (hexDigit (b % 16)) = some (b % 16) := hexValue_hexDigit (by omega)
    rw [if_neg hstays, if_neg hstays]
    show pieces ('%' :: hexDigit (b / 16) :: hexDigit (b % 16) :: t) = _
    rw [pieces_escape hhigh hlow, Nat.div_add_mod]

/-- Bytes of a character beyond ASCII are read as bytes. -/
theorem pieces_quoteBytes {bytes : List UInt8} (h : ∀ b ∈ bytes, 0x80 ≤ b.toNat) (t : List Char) :
    pieces ((bytes.flatMap fun b => quoteByte b.toNat) ++ t) =
      bytes.map (fun b => Piece.byte b.toNat) ++ pieces t := by
  induction bytes with
  | nil => rfl
  | cons b bytes ih =>
      rw [List.forall_mem_cons] at h
      have hescaped : ¬isUnreserved b.toNat := by
        simp only [isUnreserved, Bool.or_eq_true, Bool.and_eq_true, decide_eq_true_eq]
        omega
      rw [List.flatMap_cons, List.append_assoc, pieces_quoteByte b.toNat_lt, if_neg hescaped,
        ih h.2]
      rfl

/-- A code point is no surrogate. -/
theorem toNat_valid (c : Char) : c.toNat < 0xD800 ∨ 0xE000 ≤ c.toNat ∧ c.toNat < 0x110000 := by
  have hvalid := c.valid
  change c.toNat.isValidChar at hvalid
  unfold Nat.isValidChar at hvalid
  omega

section Decode

variable {b : ℕ} {p : Pending} {ps : List Piece}

/-- The first byte of a character of several. -/
theorem decode_first (h : start b = .inr p) :
    decode none (.byte b :: ps) = decode (some p) ps := by
  rw [decode, feed, first, h]
  rfl

/-- A byte in the middle of a character. -/
theorem decode_middle (hlow : p.low ≤ b) (hhigh : b ≤ p.high) (hmore : p.more ≠ 1) :
    decode (some p) (.byte b :: ps) =
      decode (some ⟨p.more - 1, p.value * 64 + (b - 0x80), 0x80, 0xBF⟩) ps := by
  rw [decode, feed, if_pos ⟨hlow, hhigh⟩]
  simp only [if_neg hmore, List.nil_append]

/-- The last byte of a character. -/
theorem decode_last (hlow : p.low ≤ b) (hhigh : b ≤ p.high) (hmore : p.more = 1) :
    decode (some p) (.byte b :: ps) =
      Char.ofNat (p.value * 64 + (b - 0x80)) :: decode none ps := by
  rw [decode, feed, if_pos ⟨hlow, hhigh⟩]
  simp only [if_pos hmore]
  rfl

variable {v : ℕ}

/-- A character of two bytes. -/
theorem decode_two (hlow : 0x80 ≤ v) (hhigh : v ≤ 0x7FF) :
    decode none (.byte (0xC0 + v / 64) :: .byte (0x80 + v % 64) :: ps) =
      Char.ofNat v :: decode none ps := by
  have hstart : start (0xC0 + v / 64) = .inr ⟨1, v / 64, 0x80, 0xBF⟩ := by
    rw [start, if_neg (by omega), if_pos (by omega)]
    simp
  rw [decode_first hstart, decode_last (by show 0x80 ≤ _; omega) (by show _ ≤ 0xBF; omega) rfl]
  refine congrArg (fun n => Char.ofNat n :: decode none ps) ?_
  show v / 64 * 64 + (0x80 + v % 64 - 0x80) = v
  omega

/-- The first of three bytes, and what the second may be. -/
theorem start_three (hlow : 0x7FF < v) (hhigh : v ≤ 0xFFFF) (hvalid : v < 0xD800 ∨ 0xE000 ≤ v) :
    ∃ low high, start (0xE0 + v / 4096) = .inr ⟨2, v / 4096, low, high⟩ ∧
      low ≤ 0x80 + v / 64 % 64 ∧ 0x80 + v / 64 % 64 ≤ high := by
  by_cases hzero : v / 4096 = 0
  · refine ⟨0xA0, 0xBF, ?_, by omega, by omega⟩
    rw [hzero]
    rfl
  · by_cases hsurrogate : v / 4096 = 0xD
    · refine ⟨0x80, 0x9F, ?_, by omega, by omega⟩
      rw [hsurrogate]
      rfl
    · refine ⟨0x80, 0xBF, ?_, by omega, by omega⟩
      rw [start, if_neg (by omega), if_neg (by omega), if_neg (by omega), if_neg (by omega),
        if_pos (by omega)]
      simp

/-- A character of three bytes. -/
theorem decode_three (hlow : 0x7FF < v) (hhigh : v ≤ 0xFFFF) (hvalid : v < 0xD800 ∨ 0xE000 ≤ v) :
    decode none (.byte (0xE0 + v / 4096) :: .byte (0x80 + v / 64 % 64) ::
      .byte (0x80 + v % 64) :: ps) = Char.ofNat v :: decode none ps := by
  obtain ⟨low, high, hstart, hle, hge⟩ := start_three hlow hhigh hvalid
  have hmiddle : (2 : ℕ) ≠ 1 := by decide
  rw [decode_first hstart, decode_middle hle hge hmiddle,
    decode_last (by show 0x80 ≤ _; omega) (by show _ ≤ 0xBF; omega) rfl]
  refine congrArg (fun n => Char.ofNat n :: decode none ps) ?_
  show (v / 4096 * 64 + (0x80 + v / 64 % 64 - 0x80)) * 64 + (0x80 + v % 64 - 0x80) = v
  omega

/-- The first of four bytes, and what the second may be. -/
theorem start_four (hlow : 0xFFFF < v) (hhigh : v < 0x110000) :
    ∃ low high, start (0xF0 + v / 262144) = .inr ⟨3, v / 262144, low, high⟩ ∧
      low ≤ 0x80 + v / 4096 % 64 ∧ 0x80 + v / 4096 % 64 ≤ high := by
  by_cases hzero : v / 262144 = 0
  · refine ⟨0x90, 0xBF, ?_, by omega, by omega⟩
    rw [hzero]
    rfl
  · by_cases hfour : v / 262144 = 4
    · refine ⟨0x80, 0x8F, ?_, by omega, by omega⟩
      rw [hfour]
      rfl
    · refine ⟨0x80, 0xBF, ?_, by omega, by omega⟩
      rw [start, if_neg (by omega), if_neg (by omega), if_neg (by omega), if_neg (by omega),
        if_neg (by omega), if_neg (by omega), if_pos (by omega)]
      simp

/-- A character of four bytes. -/
theorem decode_four (hlow : 0xFFFF < v) (hhigh : v < 0x110000) :
    decode none (.byte (0xF0 + v / 262144) :: .byte (0x80 + v / 4096 % 64) ::
      .byte (0x80 + v / 64 % 64) :: .byte (0x80 + v % 64) :: ps) =
      Char.ofNat v :: decode none ps := by
  obtain ⟨low, high, hstart, hle, hge⟩ := start_four hlow hhigh
  have hthree : (3 : ℕ) ≠ 1 := by decide
  have htwo : (3 - 1 : ℕ) ≠ 1 := by decide
  rw [decode_first hstart, decode_middle hle hge hthree,
    decode_middle (by show 0x80 ≤ _; omega) (by show _ ≤ 0xBF; omega) htwo,
    decode_last (by show 0x80 ≤ _; omega) (by show _ ≤ 0xBF; omega) rfl]
  refine congrArg (fun n => Char.ofNat n :: decode none ps) ?_
  show ((v / 262144 * 64 + (0x80 + v / 4096 % 64 - 0x80)) * 64 + (0x80 + v / 64 % 64 - 0x80)) * 64 +
    (0x80 + v % 64 - 0x80) = v
  omega

end Decode

/-- A character of several bytes: they are all beyond ASCII, and are decoded to it. -/
theorem decode_utf8EncodeChar (c : Char) (h : 0x80 ≤ c.toNat) (ps : List Piece) :
    (∀ b ∈ String.utf8EncodeChar c, 0x80 ≤ b.toNat) ∧
      decode none ((String.utf8EncodeChar c).map (fun b => Piece.byte b.toNat) ++ ps) =
        c :: decode none ps := by
  have hvalid := toNat_valid c
  have hchar : Char.ofNat c.toNat = c := Char.ofNat_toNat c
  have hbyte : ∀ n < 256, (UInt8.ofNat n).toNat = n := fun n hn => by
    rw [UInt8.toNat_ofNat', Nat.mod_eq_of_lt hn]
  unfold String.utf8EncodeChar
  simp only [show c.val.toNat = c.toNat from rfl]
  -- what follows is about the number of the character only
  generalize c.toNat = v at *
  rw [if_neg (by omega)]
  have hlast : (UInt8.ofNat (v % 64 + 0x80)).toNat = 0x80 + v % 64 := by
    rw [hbyte _ (by omega)]
    omega
  have hsecond : (UInt8.ofNat (v / 64 % 64 + 0x80)).toNat = 0x80 + v / 64 % 64 := by
    rw [hbyte _ (by omega)]
    omega
  split_ifs with htwo hthree
  · have hfirst : (UInt8.ofNat (v / 64 % 32 + 0xC0)).toNat = 0xC0 + v / 64 := by
      rw [hbyte _ (by omega)]
      omega
    refine ⟨?_, ?_⟩
    · simp only [List.forall_mem_cons, hfirst, hlast]
      exact ⟨by omega, by omega, fun b hb => absurd hb List.not_mem_nil⟩
    · simp only [List.map_cons, List.map_nil, List.cons_append, List.nil_append, hfirst, hlast]
      rw [decode_two h htwo, hchar]
  · have hfirst : (UInt8.ofNat (v / 4096 % 16 + 0xE0)).toNat = 0xE0 + v / 4096 := by
      rw [hbyte _ (by omega)]
      omega
    refine ⟨?_, ?_⟩
    · simp only [List.forall_mem_cons, hfirst, hsecond, hlast]
      exact ⟨by omega, by omega, by omega, fun b hb => absurd hb List.not_mem_nil⟩
    · simp only [List.map_cons, List.map_nil, List.cons_append, List.nil_append, hfirst, hsecond,
        hlast]
      rw [decode_three (by omega) hthree (by omega), hchar]
  · have hfirst : (UInt8.ofNat (v / 262144 % 8 + 0xF0)).toNat = 0xF0 + v / 262144 := by
      rw [hbyte _ (by omega)]
      omega
    have hthird : (UInt8.ofNat (v / 4096 % 64 + 0x80)).toNat = 0x80 + v / 4096 % 64 := by
      rw [hbyte _ (by omega)]
      omega
    refine ⟨?_, ?_⟩
    · simp only [List.forall_mem_cons, hfirst, hthird, hsecond, hlast]
      exact ⟨by omega, by omega, by omega, by omega, fun b hb => absurd hb List.not_mem_nil⟩
    · simp only [List.map_cons, List.map_nil, List.cons_append, List.nil_append, hfirst, hthird,
        hsecond, hlast]
      rw [decode_four (by omega) (by omega), hchar]

/-- **A quoted text is read back.** -/
theorem unquote_quote (s : List Char) : unquote (quote s) = s := by
  rw [unquote]
  induction s with
  | nil => rfl
  | cons c rest ih =>
      rw [quote, List.flatMap_cons, ← quote]
      by_cases hascii : c.toNat < 0x80
      · have hencode : String.utf8EncodeChar c = [UInt8.ofNat c.toNat] := by
          unfold String.utf8EncodeChar
          exact if_pos (by show c.toNat ≤ _; omega)
        have hbyte : (UInt8.ofNat c.toNat).toNat = c.toNat := by
          rw [UInt8.toNat_ofNat', Nat.mod_eq_of_lt (by omega)]
        rw [hencode, List.flatMap_singleton, hbyte, pieces_quoteByte (by omega)]
        split
        · rw [decode, Char.ofNat_toNat, ih]
          rfl
        · have hfeed : feed none c.toNat = ([c], none) := by
            rw [feed, first, start, if_pos hascii, Char.ofNat_toNat]
          rw [decode, hfeed, ih]
          rfl
      · obtain ⟨hbytes, hdecode⟩ := decode_utf8EncodeChar c (Nat.not_lt.mp hascii)
          (pieces (quote rest))
        rw [pieces_quoteBytes hbytes, hdecode, ih]

/-- A character of a quoted text. -/
def isQuoted (c : Char) : Bool := isUnreserved c.toNat || c = '%'

/-- A byte that stays is a character of quoted texts. -/
theorem isQuoted_ofNat {b : ℕ} (h : isUnreserved b) : isQuoted (Char.ofNat b) := by
  have hall : ∀ b < 0x7F, isUnreserved b → isQuoted (Char.ofNat b) := by decide
  refine hall b ?_ h
  simp only [isUnreserved, Bool.or_eq_true, Bool.and_eq_true, decide_eq_true_eq] at h
  omega

/-- **Quoted texts consist of letters, digits, the four signs and percent signs.** -/
theorem mem_quote {s : List Char} {c : Char} (h : c ∈ quote s) : isQuoted c := by
  have hdigits : ∀ n < 16, isQuoted (hexDigit n) := by decide
  obtain ⟨x, -, h⟩ := List.mem_flatMap.mp h
  obtain ⟨b, -, h⟩ := List.mem_flatMap.mp h
  have hb : b.toNat < 256 := b.toNat_lt
  unfold quoteByte at h
  split at h
  · next hunreserved =>
      rw [List.mem_singleton.mp h]
      exact isQuoted_ofNat hunreserved
  · simp only [List.mem_cons, List.not_mem_nil, or_false] at h
    obtain rfl | rfl | rfl := h
    · rfl
    · exact hdigits _ (by omega)
    · exact hdigits _ (by omega)

end Percent
