import Mathlib.Data.List.Infix

/-!
# Patterns of `LIKE`

A pattern is a text in which one character stands for any text, one for any character, and
one takes the next character as it is.  A text between two of the first is looked for as it
is written if none of the three is in it.  If one is, some text matches the pattern and
does not contain it: the shortest one, which is no longer than what is looked for.

## Main definitions

* `Metas`, `tokens`, `matchesTokens` — the language
* `like` — a text matches a pattern
* `room`, `shortest` — the shortest text that matches
* `like_containing_iff`, `exists_tokens`, `Found.not_infix` — what is found for a text

## What carries the proof

A pattern that ends in any text always has tokens, since the last character cannot be an
escape that waits for the next one. The shortest match is compared with the text the
tokens were read from (`Found`), by induction over the text: it is never longer, it is
that text only if each character stands for itself, and it has no characters from
elsewhere but the one chosen for any character. A text without metacharacters is found
in it only if the two are equal; with an any-character the chosen character takes its
place, and with an escape or any text the match is shorter.
-/

namespace Like

variable {α β : Type*}

/-- The characters with a meaning. -/
structure Metas (α : Type*) where
  anyText : α
  anyChar : α
  escape : α
  anyChar_ne : anyChar ≠ anyText
  escape_ne : escape ≠ anyText
  escape_ne_anyChar : escape ≠ anyChar

/-- `c` has a meaning. -/
def Metas.Mem (m : Metas α) (c : α) : Prop := c = m.anyText ∨ c = m.anyChar ∨ c = m.escape

instance [DecidableEq α] (m : Metas α) (c : α) : Decidable (m.Mem c) :=
  inferInstanceAs (Decidable (_ ∨ _ ∨ _))

/-- What a pattern is made of. -/
inductive Token (α : Type*)
  | anyText
  | anyChar
  | char (c : α)

/-- Folding the characters of a token. -/
def Token.map (f : α → β) : Token α → Token β
  | anyText => anyText
  | anyChar => anyChar
  | char c => char (f c)

section Language

variable [DecidableEq α]

/-- The tokens of a pattern, of which an escape may have been read; there are none where it
ends in the middle of an escape. -/
def tokensAfter (m : Metas α) : (escaped : Bool) → List α → Option (List (Token α))
  | false, [] => some []
  | true, [] => none
  | true, c :: rest => (tokensAfter m false rest).map (.char c :: ·)
  | false, c :: rest =>
      if c = m.anyText then (tokensAfter m false rest).map (.anyText :: ·)
      else if c = m.anyChar then (tokensAfter m false rest).map (.anyChar :: ·)
      else if c = m.escape then tokensAfter m true rest
      else (tokensAfter m false rest).map (.char c :: ·)

/-- The tokens of a pattern. -/
def tokens (m : Metas α) (pattern : List α) : Option (List (Token α)) :=
  tokensAfter m false pattern

/-- A text matches some tokens. -/
def matchesTokens : List (Token α) → List α → Bool
  | [], s => s.isEmpty
  | .anyText :: p, s => s.tails.any (matchesTokens p)
  | .anyChar :: _, [] => false
  | .anyChar :: p, _ :: s => matchesTokens p s
  | .char _ :: _, [] => false
  | .char c :: p, c' :: s => c = c' && matchesTokens p s

/-- **A text matches a pattern.** -/
def like (m : Metas α) (s pattern : List α) : Bool := (tokens m pattern).any (matchesTokens · s)

variable {m : Metas α} {c d : α} {rest s : List α} {p : List (Token α)}

/-- Any text. -/
theorem tokens_anyText : tokens m (m.anyText :: rest) = (tokens m rest).map (.anyText :: ·) :=
  if_pos rfl

/-- Any character. -/
theorem tokens_anyChar : tokens m (m.anyChar :: rest) = (tokens m rest).map (.anyChar :: ·) :=
  (if_neg m.anyChar_ne).trans (if_pos rfl)

/-- The next character is taken as it is. -/
theorem tokens_escape : tokens m (m.escape :: rest) = tokensAfter m true rest :=
  (if_neg m.escape_ne).trans ((if_neg m.escape_ne_anyChar).trans (if_pos rfl))

/-- A character without a meaning. -/
theorem tokens_char (h : ¬m.Mem c) : tokens m (c :: rest) = (tokens m rest).map (.char c :: ·) := by
  unfold Metas.Mem at h
  push Not at h
  exact (if_neg h.1).trans ((if_neg h.2.1).trans (if_neg h.2.2))

/-- Any text matches some beginning. -/
theorem matchesTokens_anyText :
    matchesTokens (.anyText :: p) s ↔ ∃ t, t <:+ s ∧ matchesTokens p t := by
  rw [matchesTokens, List.any_eq_true]
  simp only [List.mem_tails]

/-- A character matches itself. -/
theorem matchesTokens_char : matchesTokens (.char c :: p) s ↔
    ∃ t, s = c :: t ∧ matchesTokens p t := by
  cases s with
  | nil => simp [matchesTokens]
  | cons c' s =>
      rw [matchesTokens, Bool.and_eq_true, decide_eq_true_eq]
      constructor
      · rintro ⟨rfl, h⟩
        exact ⟨s, rfl, h⟩
      · rintro ⟨t, heq, h⟩
        obtain ⟨rfl, rfl⟩ := List.cons.inj heq
        exact ⟨rfl, h⟩

/-! ## Texts that are looked for as they are written -/

/-- A text without metacharacters is read character by character. -/
theorem tokens_literal {k : List α} (hk : ∀ c ∈ k, ¬m.Mem c) :
    tokens m (k ++ rest) = (tokens m rest).map (k.map .char ++ ·) := by
  induction k with
  | nil => simp
  | cons c k ih =>
      obtain ⟨hc, hk⟩ := List.forall_mem_cons.mp hk
      rw [List.cons_append, tokens_char hc, ih hk, Option.map_map]
      rfl

/-- A text, and then anything. -/
theorem matchesTokens_leading {k : List α} :
    matchesTokens (k.map .char ++ [.anyText]) s ↔ k <+: s := by
  induction k generalizing s with
  | nil =>
      rw [List.map_nil, List.nil_append, matchesTokens_anyText]
      exact iff_of_true ⟨[], List.nil_suffix, rfl⟩ List.nil_prefix
  | cons c k ih =>
      rw [List.map_cons, List.cons_append, matchesTokens_char]
      simp only [ih]
      constructor
      · rintro ⟨t, rfl, h⟩
        exact List.cons_prefix_cons.mpr ⟨rfl, h⟩
      · rintro ⟨t, rfl⟩
        exact ⟨k ++ t, rfl, List.prefix_append k t⟩

/-- **A text without metacharacters is looked for as it is.** -/
theorem like_containing_iff {k : List α} (hk : ∀ c ∈ k, ¬m.Mem c) :
    like m s (m.anyText :: (k ++ [m.anyText])) ↔ k <:+: s := by
  rw [like, tokens_anyText, tokens_literal hk, tokens_anyText]
  simp only [tokens, tokensAfter, Option.map_some, Option.any_some]
  rw [matchesTokens_anyText]
  simp only [matchesTokens_leading]
  constructor
  · rintro ⟨t, hsuffix, hprefix⟩
    exact hprefix.isInfix.trans hsuffix.isInfix
  · rintro ⟨pre, post, rfl⟩
    exact ⟨k ++ post, ⟨pre, by simp⟩, List.prefix_append k post⟩

/-! ## The shortest text -/

/-- How many characters a text that matches has at least. -/
def room : List (Token α) → ℕ
  | [] => 0
  | .anyText :: p => room p
  | .anyChar :: p => room p + 1
  | .char _ :: p => room p + 1

/-- The shortest text that matches, with `a` for any character. -/
def shortest (a : α) : List (Token α) → List α
  | [] => []
  | .anyText :: p => shortest a p
  | .anyChar :: p => a :: shortest a p
  | .char c :: p => c :: shortest a p

omit [DecidableEq α] in
/-- The shortest text needs as much room as the tokens. -/
theorem length_shortest (a : α) : (shortest a p).length = room p := by
  induction p with
  | nil => rfl
  | cons t p ih => cases t <;> simp [shortest, room, ih]

/-- It matches. -/
theorem matchesTokens_shortest (a : α) : matchesTokens p (shortest a p) := by
  induction p with
  | nil => rfl
  | cons t p ih =>
      cases t with
      | anyText => exact matchesTokens_anyText.mpr ⟨_, List.suffix_refl _, ih⟩
      | anyChar => exact ih
      | char c => exact matchesTokens_char.mpr ⟨_, rfl, ih⟩

/-- No text that matches is shorter. -/
theorem room_le (h : matchesTokens p s) : room p ≤ s.length := by
  induction p generalizing s with
  | nil => exact Nat.zero_le _
  | cons t p ih =>
      cases t with
      | anyText =>
          obtain ⟨t, hsuffix, ht⟩ := matchesTokens_anyText.mp h
          exact (ih ht).trans hsuffix.length_le
      | anyChar =>
          cases s with
          | nil => cases h
          | cons c s => exact Nat.succ_le_succ (ih h)
      | char c =>
          obtain ⟨t, rfl, ht⟩ := matchesTokens_char.mp h
          exact Nat.succ_le_succ (ih ht)

/-- What the shortest match of some tokens has to do with the text they were read from. -/
structure Found (m : Metas α) (a : α) (k : List α) (p : List (Token α)) : Prop where
  room_le : room p ≤ k.length
  literal : shortest a p = k → ∀ c ∈ k, ¬m.Mem c
  mem : ∀ c ∈ shortest a p, c = a ∨ c = m.anyText ∨ c ∈ k

omit [DecidableEq α] in
/-- A token that takes one character. -/
theorem Found.cons {a : α} {k : List α} (h : Found m a k p) {t : Token α} {c' : α}
    (ht : shortest a (t :: p) = c' :: shortest a p) (hroom : room (t :: p) = room p + 1)
    (hc' : c' = c → ¬m.Mem c) (hmem : c' = a ∨ c' = c) : Found m a (c :: k) (t :: p) where
  room_le := by
    rw [hroom]
    exact Nat.succ_le_succ h.room_le
  literal heq := by
    rw [ht] at heq
    obtain ⟨hhead, htail⟩ := List.cons.inj heq
    exact List.forall_mem_cons.mpr ⟨hc' hhead, h.literal htail⟩
  mem d hd := by
    rw [ht] at hd
    obtain rfl | hd := List.mem_cons.mp hd
    · refine hmem.imp_right fun heq => .inr ?_
      rw [heq]
      exact List.mem_cons_self
    · exact (h.mem d hd).imp_right (Or.imp_right (List.mem_cons_of_mem c))

omit [DecidableEq α] in
/-- A text that matches in less room is another one. -/
theorem Found.of_lt {a : α} {k : List α} (hroom : room p < k.length)
    (hmem : ∀ c ∈ shortest a p, c = a ∨ c = m.anyText ∨ c ∈ k) : Found m a k p where
  room_le := hroom.le
  literal heq := by
    rw [← length_shortest a, heq] at hroom
    exact absurd hroom (lt_irrefl _)
  mem := hmem

/-- **A pattern that ends in any text** has tokens; their shortest match is no longer than
what comes before, and is the same only if that has no metacharacters. -/
theorem exists_tokens {a : α} (ha : a ≠ m.anyChar) (k : List α) :
    (∃ p, tokens m (k ++ [m.anyText]) = some p ∧ Found m a k p) ∧
      ∃ p, tokensAfter m true (k ++ [m.anyText]) = some p ∧ Found m a (m.escape :: k) p := by
  induction k with
  | nil =>
      refine ⟨⟨[.anyText], tokens_anyText, ⟨le_rfl, fun _ => nofun, nofun⟩⟩,
        ⟨[.char m.anyText], rfl, ⟨le_rfl, fun heq => ?_, fun c hc => ?_⟩⟩⟩
      · -- the escape makes the end of the pattern a character
        exact absurd (List.cons.inj heq).1.symm m.escape_ne
      · exact .inr (.inl (List.mem_singleton.mp hc))
  | cons c k ih =>
      obtain ⟨⟨p, hp, hfound⟩, p', hp', hfound'⟩ := ih
      rw [List.cons_append]
      refine ⟨?_, .char c :: p, ?_, ?_⟩
      · by_cases hc : m.Mem c
        · obtain rfl | rfl | rfl := hc
          · refine ⟨.anyText :: p, by rw [tokens_anyText, hp]; rfl, .of_lt ?_ fun d hd => ?_⟩
            · exact Nat.lt_succ_of_le hfound.room_le
            · exact (hfound.mem d hd).imp_right (Or.imp_right (List.mem_cons_of_mem _))
          · refine ⟨.anyChar :: p, by rw [tokens_anyChar, hp]; rfl,
              hfound.cons rfl rfl (fun h => absurd h ha) (.inl rfl)⟩
          · exact ⟨p', by rw [tokens_escape, hp'], hfound'⟩
        · exact ⟨.char c :: p, by rw [tokens_char hc, hp]; rfl,
            hfound.cons rfl rfl (fun _ => hc) (.inr rfl)⟩
      · show (tokensAfter m false (k ++ [m.anyText])).map _ = _
        rw [show tokensAfter m false (k ++ [m.anyText]) = some p from hp]
        rfl
      · refine .of_lt ?_ fun d hd => ?_
        · exact Nat.succ_lt_succ (Nat.lt_succ_of_le hfound.room_le)
        · obtain rfl | hd := List.mem_cons.mp hd
          · exact .inr (.inr (by simp))
          · exact (hfound.mem d hd).imp_right (Or.imp_right fun h => by simp [h])

omit [DecidableEq α] in
/-- **A text with metacharacters is not looked for as it is**: the shortest match of its
pattern does not contain it. -/
theorem Found.not_infix {a : α} {k : List α} (h : Found m a k p) (hk : ∃ c ∈ k, m.Mem c) :
    ¬k <:+: shortest a p := by
  intro hfound
  obtain ⟨c, hc, hmem⟩ := hk
  have hlength : (shortest a p).length ≤ k.length := by
    rw [length_shortest]
    exact h.room_le
  exact h.literal (hfound.eq_of_length_le hlength).symm c hc hmem

/-! ## Matching up to a folding of characters -/

/-- A folding that leaves the metacharacters alone. -/
def Metas.Fixed (m : Metas α) (f : α → α) : Prop := ∀ x, m.Mem x → ∀ c, f c = x ↔ c = x

omit [DecidableEq α] in
/-- A folding gives no character a meaning. -/
theorem Metas.Fixed.mem_iff {f : α → α} (hf : m.Fixed f) (c : α) : m.Mem (f c) ↔ m.Mem c :=
  or_congr (hf _ (.inl rfl) c) (or_congr (hf _ (.inr (.inl rfl)) c) (hf _ (.inr (.inr rfl)) c))

/-- A folded pattern has folded tokens. -/
theorem tokensAfter_map {f : α → α} (hf : m.Fixed f) (escaped : Bool) (l : List α) :
    tokensAfter m escaped (l.map f) = (tokensAfter m escaped l).map (List.map (Token.map f)) := by
  induction l generalizing escaped with
  | nil => cases escaped <;> rfl
  | cons c l ih =>
      cases escaped with
      | true =>
          rw [List.map_cons, tokensAfter, tokensAfter, ih, Option.map_map, Option.map_map]
          rfl
      | false =>
          have hany := hf m.anyText (.inl rfl) c
          have hone := hf m.anyChar (.inr (.inl rfl)) c
          have hescape := hf m.escape (.inr (.inr rfl)) c
          rw [List.map_cons, tokensAfter, tokensAfter, if_congr hany rfl rfl,
            if_congr hone rfl rfl, if_congr hescape rfl rfl, ih, ih]
          split_ifs
          all_goals first | rfl | (rw [Option.map_map, Option.map_map]; rfl)

omit [DecidableEq α] in
/-- Their shortest match is the folded one. -/
theorem shortest_map (f : α → α) (a : α) (p : List (Token α)) :
    shortest (f a) (p.map (Token.map f)) = (shortest a p).map f := by
  induction p with
  | nil => rfl
  | cons t p ih => cases t <;> simp [shortest, Token.map, ih]

omit [DecidableEq α] in
/-- They need as much room. -/
theorem room_map (f : α → α) (p : List (Token α)) : room (p.map (Token.map f)) = room p := by
  induction p with
  | nil => rfl
  | cons t p ih => cases t <;> simp [room, Token.map, ih]

end Language

end Like
