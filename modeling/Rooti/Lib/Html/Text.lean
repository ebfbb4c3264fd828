import Rooti.Lib.Html.Weight

/-!
# Text that is read as it is written

Text between tags is read as it is written unless a `<` in it opens markup or a `&`
begins a character reference.  Where one does, the tokens can never be the
characters that were written: either the next token is no character, or some
characters are lost and the tokens fall short of the text.

## Main definitions

* `ReadsText` — a state that reads text
* `Begins` — the text begins markup or a reference
* `Inert` — text that is read as it is written, in tags and in a title

## Main results

* `readsText_data`, `readsText_rcdata` — the states that read text
* `Inert.scan_data`, `Inert.scan_rcdata` — inert text
* `ReadsText.of_scan` — nothing begins in text that is read as it is written

## How the converse is proved

That inert text comes out as written is an induction on the text. The converse is
harder, since a `<` in the middle may open a tag that swallows the rest of the page, and
the tokens after it have nothing to do with the text any more. Two facts are enough to
exclude this. Markup shows at once: inside a tag or comment the next token is no
character (`scan_markup`). And characters are never gained: a reference stands for at
most as many characters as it takes, so text with a reference in it comes out too short
(`reference_loses`, from `weight_scan_le`).

`ReadsText` packages the two for a state, and `ReadsText.of_scan` runs over a text with
them. It is used for the text between tags and for the text of a title, which differ in
what may begin there: in a title only its own end tag and references do.

## Text and what follows it

A template puts markup behind each text. Nothing that begins in the text can reach into
it, because no reference and no tag name goes on at a `<` (`begins_append_iff`), so
whether a text is inert does not depend on the page it is put into.
-/

namespace Html

variable {refs : References}

/-! ## Markup is no character -/

/-- The states inside a tag or a comment. -/
def State.isMarkup : State → Bool
  | .data | .rcdata _ | .rawtext _ | .script _ | .plaintext => false
  | _ => true

/-- A character token. -/
def Token.isChar : Token → Bool
  | .char _ => true
  | _ => false

/-- A step inside markup stays there, or completes a token that is no character. -/
def Marks (x : Step) : Prop :=
  x.1 = [] ∧ x.2.1.isMarkup ∨ ∃ t, x.1 = [t] ∧ ¬t.isChar

/-- A step that gives no token and stays in markup. -/
theorem marks_quiet {s : State} {rest : List Char} (hs : s.isMarkup) : Marks ([], s, rest) :=
  .inl ⟨rfl, hs⟩

/-- The end of a tag gives the tag, which is no character. -/
theorem marks_emit {tag : Tag} {selfClosing : Bool} {rest : List Char} :
    Marks (emit tag selfClosing rest) := by
  unfold emit
  split_ifs
  · exact .inr ⟨_, rfl, nofun⟩
  · exact .inr ⟨_, rfl, nofun⟩

variable {c : Char} {rest : List Char}

/-- Between attributes a step reads on or ends the tag. -/
theorem marks_beforeAttributeNameStep {tag : Tag} : Marks (beforeAttributeNameStep tag c rest) := by
  unfold beforeAttributeNameStep
  split_ifs
  · exact marks_quiet rfl
  · exact marks_quiet rfl
  · exact marks_emit
  · exact marks_quiet rfl

/-- So does a step in a value without quotes; a reference in it goes into the value. -/
theorem marks_unquotedStep {tag : Tag} {name value : List Char} :
    Marks (unquotedStep refs tag name value c rest) := by
  unfold unquotedStep
  split_ifs
  · exact marks_quiet rfl
  · exact marks_emit
  · exact marks_quiet rfl
  · exact marks_quiet rfl

/-- **A step inside markup**: one case for each state of the tokenizer in a tag or
comment. -/
theorem marks_step {s : State} (hs : s.isMarkup) : Marks (step refs s c rest) := by
  cases s with
  -- states of text are no markup
  | data | rcdata | rawtext | script | plaintext => cases hs
  | tagName tag =>
      simp only [step, tagNameStep]
      split_ifs
      · exact marks_quiet rfl
      · exact marks_quiet rfl
      · exact marks_emit
      · exact marks_quiet rfl
  | beforeAttributeName tag => exact marks_beforeAttributeNameStep
  | attributeName tag name =>
      simp only [step, attributeNameStep]
      split_ifs
      · exact marks_quiet rfl
      · exact marks_quiet rfl
      · exact marks_emit
      · exact marks_quiet rfl
      · exact marks_quiet rfl
  | afterAttributeName tag name =>
      simp only [step, afterAttributeNameStep]
      split_ifs
      · exact marks_quiet rfl
      · exact marks_quiet rfl
      · exact marks_beforeAttributeNameStep
  | beforeAttributeValue tag name =>
      simp only [step, beforeAttributeValueStep]
      split_ifs
      · exact marks_quiet rfl
      · exact marks_quiet rfl
      · exact marks_unquotedStep
  | quoted quote tag name value =>
      simp only [step, quotedStep]
      split_ifs <;> exact marks_quiet rfl
  | unquoted tag name value => exact marks_unquotedStep
  | selfClosing tag =>
      simp only [step, selfClosingStep]
      split_ifs
      · exact marks_emit
      · exact marks_beforeAttributeNameStep
  | comment text =>
      simp only [step, commentStep]
      split_ifs
      · exact .inr ⟨_, rfl, fun h => by cases h⟩
      · exact .inr ⟨_, rfl, fun h => by cases h⟩
      · exact marks_quiet rfl
  | bogusComment text =>
      simp only [step, bogusCommentStep]
      split_ifs
      · exact .inr ⟨_, rfl, fun h => by cases h⟩
      · exact marks_quiet rfl
  | doctype text =>
      simp only [step, doctypeStep]
      split_ifs
      · exact .inr ⟨_, rfl, fun h => by cases h⟩
      · exact marks_quiet rfl

/-- What is left open at the end of a text is dropped, or ends as a comment or document
type. -/
theorem finish_not_char (s : State) : ∀ t ∈ (finish s).head?, ¬t.isChar := by
  cases s <;> simp [finish, Token.isChar]

/-- The first token after a step that marks is no character if that is so in markup. -/
theorem Marks.head_not_char {x : Step} (hx : Marks x)
    (hscan : x.2.1.isMarkup → ∀ t ∈ (scan refs x.2.1 x.2.2).head?, ¬t.isChar) :
    ∀ t ∈ (x.1 ++ scan refs x.2.1 x.2.2).head?, ¬t.isChar := by
  obtain ⟨hquiet, hmarkup⟩ | ⟨t, ht, hchar⟩ := hx
  · rw [hquiet, List.nil_append]
    exact hscan hmarkup
  · rw [ht, List.singleton_append]
    intro u hu
    cases hu
    exact hchar

/-- **Inside markup** the next token is no character. -/
theorem scan_markup {s : State} (hs : s.isMarkup) (text : List Char) :
    ∀ t ∈ (scan refs s text).head?, ¬t.isChar := by
  induction hn : text.length using Nat.strong_induction_on generalizing s text with
  | _ n ih =>
      cases text with
      | nil =>
          exact finish_not_char s
      | cons c rest =>
          have hread := (fits_step refs s c rest).1
          rw [List.length_cons] at hn
          rw [scan_cons]
          exact (marks_step hs).head_not_char fun hmarkup => ih _ (by omega) hmarkup _ rfl

/-! ## Reading text -/

/-- **A state that reads text**: a character comes out as `written` says unless the text
begins something; then the next token is no character, or characters are lost. -/
structure ReadsText (refs : References) (s : State) (written : Char → Char)
    (begins : List Char → Prop) : Prop where
  literal : ∀ {c : Char} {rest : List Char}, ¬begins (c :: rest) →
    scan refs s (c :: rest) = .char (written c) :: scan refs s rest
  begins : ∀ {text : List Char}, begins text →
    (∀ t ∈ (scan refs s text).head?, ¬t.isChar) ∨ weight (scan refs s text) < text.length

section ReadsText

variable {s : State} {written : Char → Char} {begins : List Char → Prop} {n m u : List Char}
  {ts : List Token}

/-- **Text in which nothing begins.** -/
theorem ReadsText.scan_append (h : ReadsText refs s written begins)
    (hn : ∀ t, t ≠ [] → t <:+ n → ¬begins (t ++ u)) :
    scan refs s (n ++ u) = (n.map written).map .char ++ scan refs s u := by
  induction n with
  | nil => rfl
  | cons c n ih =>
      have hliteral : scan refs s (c :: (n ++ u)) = .char (written c) :: scan refs s (n ++ u) :=
        h.literal (hn (c :: n) (List.cons_ne_nil c n) List.suffix_rfl)
      rw [List.cons_append, hliteral, ih fun t hne ht => hn t hne (ht.trans (List.suffix_cons c n))]
      rfl

/-- **Text that came out as characters** of at least its length, when nothing was lost after
it: nothing began in it. -/
theorem ReadsText.of_scan (h : ReadsText refs s written begins)
    (hu : ∀ t ∈ (scan refs s u).head?, ¬t.isChar)
    (hscan : scan refs s (n ++ u) = m.map .char ++ ts) (hlength : n.length ≤ m.length)
    (hweight : n.length + u.length ≤ m.length + weight ts) :
    n.map written = m ∧ scan refs s u = ts ∧ ∀ t, t ≠ [] → t <:+ n → ¬begins (t ++ u) := by
  induction n generalizing m with
  | nil =>
      cases m with
      | nil =>
          refine ⟨rfl, hscan, fun t hne ht => ?_⟩
          exact absurd (List.suffix_nil.mp ht) hne
      | cons d m =>
          rw [List.nil_append] at hscan
          rw [hscan] at hu
          exact absurd rfl (hu _ rfl)
  | cons c n ih =>
      cases m with
      | nil => exact absurd hlength (Nat.not_succ_le_zero _)
      | cons d m =>
          -- either the head is no character, against `hscan`, or the weight falls short
          -- of the text
          have hnot : ¬begins (c :: n ++ u) := by
            intro hbegins
            obtain hhead | hlost := h.begins hbegins
            · rw [hscan] at hhead
              exact hhead _ rfl rfl
            · rw [hscan, weight_append, weight_chars, List.length_append] at hlost
              omega
          have hliteral : scan refs s (c :: (n ++ u)) =
              .char (written c) :: scan refs s (n ++ u) := h.literal hnot
          rw [List.cons_append, hliteral, List.map_cons, List.cons_append, List.cons.injEq,
            Token.char.injEq] at hscan
          rw [List.length_cons, List.length_cons] at hlength hweight
          obtain ⟨hmap, hrest, hbegins⟩ := ih hscan.2 (by omega) (by omega)
          refine ⟨by rw [List.map_cons, hscan.1, hmap], hrest, fun t hne ht => ?_⟩
          obtain rfl | hsuffix := List.suffix_cons_iff.mp ht
          · exact hnot
          · exact hbegins t hne hsuffix

end ReadsText

/-! ## Text between tags -/

/-- The text after a `<` makes it open markup. -/
def Opens (rest : List Char) : Prop :=
  ∃ d ∈ rest.head?, d = '!' ∨ d = '/' ∨ d = '?' ∨ d.isAlpha

/-- **The text begins markup or a reference.** -/
def Begins (refs : References) (text : List Char) : Prop :=
  text.head? = some '<' ∧ Opens text.tail ∨
    text.head? = some '&' ∧ (reference refs text.tail).isSome

/-- `<!` opens a comment or a document type, or gives an empty comment at once. -/
theorem marks_markupDeclaration : Marks (markupDeclaration rest) := by
  unfold markupDeclaration
  split_ifs
  · exact .inr ⟨_, rfl, nofun⟩
  · exact .inr ⟨_, rfl, nofun⟩
  · exact marks_quiet rfl
  · exact marks_quiet rfl
  · exact marks_quiet rfl

/-- A `<` that opens nothing is read as itself. -/
theorem tagOpen_of_not_opens (h : ¬Opens rest) : tagOpen rest = ([.char '<'], .data, rest) := by
  cases rest with
  | nil => rfl
  | cons d after =>
      have hd : ∀ {p : Prop}, (p → d = '!' ∨ d = '/' ∨ d = '?' ∨ d.isAlpha) → ¬p :=
        fun hp hpd => h ⟨d, rfl, hp hpd⟩
      rw [tagOpen, if_neg (hd .inl), if_neg (hd fun hs => .inr (.inl hs)),
        if_neg (hd fun hs => .inr (.inr (.inl hs))), if_neg (hd fun hs => .inr (.inr (.inr hs)))]

/-- **An open tag**: the next token is no character, or an empty end tag is lost. -/
theorem tagOpen_marks (h : Opens rest) (hne : rest ≠ ['/']) :
    Marks (tagOpen rest) ∨ ∃ after, rest = '/' :: '>' :: after ∧
      tagOpen rest = ([], .data, after) := by
  cases rest with
  | nil =>
      obtain ⟨d, hd, -⟩ := h
      cases hd
  | cons d after =>
      rw [tagOpen]
      split_ifs with hbang hslash hquestion halpha
      · exact .inl marks_markupDeclaration
      · subst hslash
        cases after with
        | nil => exact absurd rfl hne
        | cons e after =>
            rw [endTagOpen]
            split_ifs with hgt
            · subst hgt
              exact .inr ⟨after, rfl, rfl⟩
            · exact .inl (marks_quiet rfl)
            · exact .inl (marks_quiet rfl)
      · exact .inl (marks_quiet rfl)
      · exact .inl (marks_quiet rfl)
      · obtain ⟨e, he, hopen⟩ := h
        cases he
        tauto

/-- **A reference loses characters**: it stands for at most what it takes without its
`&`, and the tokens of the rest are no longer than the rest. -/
theorem reference_loses {s : State} (hs : s.pending = 0) {text : List Char}
    (h : (reference refs text).isSome) :
    weight ((ampersand refs s text).1 ++
      scan refs (ampersand refs s text).2.1 (ampersand refs s text).2.2) < text.length + 1 := by
  obtain ⟨⟨cs, rest'⟩, href⟩ := Option.isSome_iff_exists.mp h
  have hfits := reference_fits href
  have hscan := weight_scan_le refs s rest'
  unfold ampersand
  rw [href]
  simp only [weight_append, weight_chars]
  omega

/-- **Text between tags.** A `</` at the end of the whole text is left out: it begins no
tag and gives two characters. -/
theorem readsText_data (refs : References) :
    ReadsText refs .data id fun text => Begins refs text ∧ text ≠ ['<', '/'] where
  literal {c rest} h := by
    rw [scan_cons]
    simp only [step, dataStep]
    split_ifs with hamp hlt
    · -- an ampersand that begins no reference
      subst hamp
      have hnone : reference refs rest = none := by
        rw [← Option.not_isSome_iff_eq_none]
        intro hsome
        exact h ⟨.inr ⟨rfl, hsome⟩, by simp⟩
      rw [ampersand, hnone]
      rfl
    · subst hlt
      by_cases hopens : Opens rest
      · -- a slash at the end of the text
        have hslash : rest = ['/'] := by
          by_contra hne
          exact h ⟨.inl ⟨rfl, hopens⟩, by simpa using hne⟩
        subst hslash
        rfl
      · rw [tagOpen_of_not_opens hopens]
        rfl
    · rfl
  begins {text} h := by
    obtain ⟨⟨hhead, hopens⟩ | ⟨hhead, href⟩, hne⟩ := h
    · obtain ⟨rest, rfl⟩ := List.head?_eq_some_iff.mp hhead
      have hstep : step refs .data '<' rest = tagOpen rest := rfl
      rw [List.tail_cons] at hopens
      rw [scan_cons, hstep]
      obtain hmarks | ⟨after, rfl, hlost⟩ := tagOpen_marks hopens (by simpa using hne)
      · exact .inl (hmarks.head_not_char fun hmarkup => scan_markup hmarkup _)
      · right
        have hafter := weight_scan_le refs .data after
        rw [hlost, List.nil_append, List.length_cons, List.length_cons, List.length_cons]
        exact Nat.lt_of_le_of_lt hafter (by simp only [State.pending]; omega)
    · obtain ⟨rest, rfl⟩ := List.head?_eq_some_iff.mp hhead
      right
      rw [scan_cons]
      exact reference_loses rfl href

/-! ## The text of a title -/

/-- **The text begins the end tag of its element, or a reference.** -/
def Closes (refs : References) (name text : List Char) : Prop :=
  text.head? = some '<' ∧ text.tail.head? = some '/' ∧ Names name text.tail.tail ∨
    text.head? = some '&' ∧ (reference refs text.tail).isSome

/-- **Text of a title.** Only references and the end tag of the same name begin there,
and a null character is replaced. -/
theorem readsText_rcdata (refs : References) (name : List Char) :
    ReadsText refs (.rcdata name) cleaned (Closes refs name) where
  literal {c rest} h := by
    rw [scan_cons]
    simp only [step, rcdataStep]
    split_ifs with hamp hlt
    · subst hamp
      have hnone : reference refs rest = none := by
        rw [← Option.not_isSome_iff_eq_none]
        exact fun hsome => h (.inr ⟨rfl, hsome⟩)
      rw [ampersand, hnone]
      rfl
    · subst hlt
      have hend : ¬(rest.head? = some '/' ∧ Names name rest.tail) :=
        fun hend => h (.inl ⟨rfl, hend⟩)
      rw [onlyEndTag, if_neg hend]
      rfl
    · rfl
  begins {text} h := by
    obtain ⟨hhead, hend⟩ | ⟨hhead, href⟩ := h
    · obtain ⟨rest, rfl⟩ := List.head?_eq_some_iff.mp hhead
      rw [List.tail_cons] at hend
      left
      rw [scan_cons]
      simp only [step, rcdataStep, onlyEndTag, if_pos hend]
      exact scan_markup rfl _
    · obtain ⟨rest, rfl⟩ := List.head?_eq_some_iff.mp hhead
      right
      rw [scan_cons]
      exact reference_loses rfl href

/-! ## Inert text -/

/-- **Inert text**: no carriage return and no null character, and nothing begins in it. -/
def Inert (refs : References) (s : List Char) : Prop :=
  '\r' ∉ s ∧ '\x00' ∉ s ∧ ∀ t, t <:+ s → ¬Begins refs t

section Followed

variable {t v : List Char}

/-- A markup that follows does not make a `<` open one. -/
theorem opens_append_iff : Opens (t ++ '<' :: v) ↔ Opens t := by
  cases t with
  | nil => exact iff_of_false (by simp [Opens]) (by simp [Opens])
  | cons d t => rfl

/-- A run of characters other than `<` ends where it did, if a `<` follows. -/
theorem takeWhile_append_lt {p : Char → Bool} (hp : ¬p '<') :
    (t ++ '<' :: v).takeWhile p = t.takeWhile p := by
  induction t with
  | nil => simp [hp]
  | cons d t ih =>
      rw [List.cons_append, List.takeWhile_cons, List.takeWhile_cons, ih]

/-- And what is left after the run is what was left, with the markup behind it. -/
theorem dropWhile_append_lt {p : Char → Bool} (hp : ¬p '<') :
    (t ++ '<' :: v).dropWhile p = t.dropWhile p ++ '<' :: v := by
  induction t with
  | nil => simp [hp]
  | cons d t ih =>
      rw [List.cons_append, List.dropWhile_cons, List.dropWhile_cons, ih]
      split_ifs <;> rfl

/-- The first character, if it is no `<`, is one of the text. -/
theorem head?_append_lt {d : Char} (hd : d ≠ '<') :
    (t ++ '<' :: v).head? = some d ↔ t.head? = some d := by
  cases t with
  | nil => simp [Ne.symm hd]
  | cons e t => rfl

/-- A numeric reference does not go on at a `<`. -/
theorem numericReference_append {base : ℕ} {isDigit : Char → Bool} (h : ¬isDigit '<') :
    (numericReference base isDigit (t ++ '<' :: v)).isSome =
      (numericReference base isDigit t).isSome := by
  unfold numericReference
  rw [takeWhile_append_lt h]
  dsimp only
  split_ifs <;> rfl

/-- Nor does the name of a reference. -/
theorem nameRun_append : nameRun (t ++ '<' :: v) = nameRun t := by
  unfold nameRun
  rw [takeWhile_append_lt (by decide), dropWhile_append_lt (by decide)]
  simp only [head?_append_lt (show ';' ≠ '<' by decide)]

/-- A name is looked up in the same run of characters, so it is found or missed as
before. -/
theorem namedReference_append :
    (namedReference refs (t ++ '<' :: v)).isSome = (namedReference refs t).isSome := by
  unfold namedReference
  rw [nameRun_append, Bool.eq_iff_iff, List.isSome_findSome?, List.isSome_findSome?]
  simp

/-- **A reference** does not reach into the markup that follows. -/
theorem reference_append :
    (reference refs (t ++ '<' :: v)).isSome = (reference refs t).isSome := by
  cases t with
  | nil =>
      have hnamed : reference refs ('<' :: v) = namedReference refs ('<' :: v) := rfl
      rw [List.nil_append, hnamed]
      exact namedReference_append (t := [])
  | cons d t =>
      by_cases hd : d = '#'
      · subst hd
        have hhex : ∀ s : List Char, reference refs ('#' :: s) =
            if s.head? = some 'x' ∨ s.head? = some 'X' then numericReference 16 isHexDigit s.tail
            else numericReference 10 Char.isDigit s := fun s => rfl
        rw [List.cons_append, hhex, hhex]
        cases t with
        | nil => rfl
        | cons e t =>
            rw [List.cons_append, List.head?_cons, List.head?_cons, List.tail_cons, List.tail_cons]
            have hhexDigit : ¬isHexDigit '<' := by decide
            have hdigit : ¬Char.isDigit '<' := by decide
            split_ifs
            · exact numericReference_append hhexDigit
            · exact numericReference_append (t := e :: t) hdigit
      · have hnamed : ∀ s : List Char, reference refs (d :: s) = namedReference refs (d :: s) :=
          fun s => if_neg (by simpa using hd)
        rw [List.cons_append, hnamed, hnamed, ← List.cons_append]
        exact namedReference_append

/-- **What begins in a text** begins in it before any markup that follows. -/
theorem begins_append_iff (ht : t ≠ []) :
    Begins refs (t ++ '<' :: v) ↔ Begins refs t := by
  obtain ⟨d, t, rfl⟩ := List.exists_cons_of_ne_nil ht
  unfold Begins
  rw [List.cons_append, List.tail_cons, List.tail_cons, opens_append_iff, reference_append]
  rfl

/-- An end tag of a title is markup. -/
theorem Closes.begins {name : List Char} (h : Closes refs name t) : Begins refs t := by
  obtain ⟨hlt, hslash, -⟩ | href := h
  · exact .inl ⟨hlt, '/', hslash, by simp⟩
  · exact .inr href

end Followed

section Inert

variable {s v : List Char} {ts : List Token}

/-- Line ends and null characters stay as they are. -/
theorem map_cleaned_of_not_mem (h : '\x00' ∉ s) : s.map cleaned = s := by
  refine (List.map_congr_left fun c hc => if_neg ?_).trans (List.map_id s)
  rintro rfl
  exact h hc

/-- A title never shows a null character. -/
theorem cleaned_ne_null (c : Char) : cleaned c ≠ '\x00' := by
  unfold cleaned
  split_ifs with h
  · decide
  · exact h

/-- Cleaning makes no carriage return. -/
theorem eq_return_of_cleaned {c : Char} (h : cleaned c = '\r') : c = '\r' := by
  unfold cleaned at h
  split_ifs at h
  · exact absurd h (by decide)
  · exact h

/-- Without carriage returns there is nothing to normalize. -/
theorem normalize_of_not_mem (h : '\r' ∉ s) : normalize s = s := by
  fun_induction normalize s with
  | case1 => rfl
  | case2 | case3 => exact absurd List.mem_cons_self h
  | case4 c rest _ _ ih => rw [ih fun hrest => h (List.mem_cons_of_mem c hrest)]

/-- Every carriage return becomes a line feed. -/
theorem not_mem_normalize : '\r' ∉ normalize s := by
  fun_induction normalize s with
  | case1 => exact List.not_mem_nil
  | case2 rest ih | case3 rest _ ih =>
      rintro (_ | ⟨_, hrest⟩)
      exact ih hrest
  | case4 c rest hpair hsingle ih =>
      intro hmem
      obtain hc | hrest := List.mem_cons.mp hmem
      · exact hsingle hc.symm
      · exact ih hrest

/-- A carriage return before a line feed is dropped, nothing is added. -/
theorem length_normalize_le : (normalize s).length ≤ s.length := by
  fun_induction normalize s <;> simp only [List.length_nil, List.length_cons] <;> omega

/-- Any other first character is kept. -/
theorem normalize_cons {c : Char} (hc : c ≠ '\r') (s : List Char) :
    normalize (c :: s) = c :: normalize s := by
  rw [normalize]
  · rintro _ rfl
    exact absurd rfl hc
  · exact hc

/-- Text without carriage returns does not change what follows it. -/
theorem normalize_append_of_not_mem (h : '\r' ∉ s) :
    normalize (s ++ v) = s ++ normalize v := by
  induction s with
  | nil => rfl
  | cons c s ih =>
      have hc : c ≠ '\r' := fun hc => h (hc ▸ List.mem_cons_self)
      rw [List.cons_append, normalize_cons hc, ih fun hs => h (List.mem_cons_of_mem c hs),
        List.cons_append]

/-- A markup that follows does not change the line ends. -/
theorem normalize_append_lt : normalize (s ++ '<' :: v) = normalize s ++ normalize ('<' :: v) := by
  fun_induction normalize s with
  | case1 => rfl
  | case2 rest ih => rw [List.cons_append, List.cons_append, normalize, ih, List.cons_append]
  | case3 rest hsingle ih =>
      have hpair : ∀ w, rest ++ '<' :: v ≠ '\n' :: w := by
        intro w
        cases rest with
        | nil => exact fun h => absurd (List.cons.inj h).1 (by decide)
        | cons d rest =>
            intro h
            obtain ⟨rfl, -⟩ := List.cons.inj h
            exact hsingle rest rfl
      rw [List.cons_append, normalize, ih, List.cons_append]
      exact hpair
  | case4 c rest _ hc ih => rw [List.cons_append, normalize_cons hc, ih, List.cons_append]

/-- **Inert text between tags** is read as it is written. -/
theorem Inert.scan_data (h : Inert refs s) :
    scan refs .data (s ++ '<' :: v) = s.map .char ++ scan refs .data ('<' :: v) := by
  have hscan := (readsText_data refs).scan_append (n := s) (u := '<' :: v)
    fun t ht hsuffix hbegins => h.2.2 t hsuffix ((begins_append_iff ht).mp hbegins.1)
  rwa [List.map_id] at hscan

/-- **Inert text in a title** is read as it is written. -/
theorem Inert.scan_rcdata (h : Inert refs s) (name : List Char) :
    scan refs (.rcdata name) (s ++ '<' :: v) =
      s.map .char ++ scan refs (.rcdata name) ('<' :: v) := by
  have hscan := (readsText_rcdata refs name).scan_append (n := s) (u := '<' :: v)
    fun t ht hsuffix hcloses => h.2.2 t hsuffix ((begins_append_iff ht).mp hcloses.begins)
  rwa [map_cleaned_of_not_mem h.2.1] at hscan

/-- Inert text stays so after text in which nothing can begin. -/
theorem inert_append_iff {p : List Char}
    (hp : ∀ c ∈ p, c ≠ '<' ∧ c ≠ '&' ∧ c ≠ '\r' ∧ c ≠ '\x00') :
    Inert refs (p ++ s) ↔ Inert refs s := by
  have hmem : ∀ {c : Char}, c = '\r' ∨ c = '\x00' → (c ∈ p ++ s ↔ c ∈ s) := by
    intro c hc
    rw [List.mem_append]
    refine or_iff_right fun hcp => ?_
    obtain ⟨-, -, hreturn, hnull⟩ := hp c hcp
    obtain rfl | rfl := hc
    · exact hreturn rfl
    · exact hnull rfl
  refine and_congr (not_congr (hmem (.inl rfl))) (and_congr (not_congr (hmem (.inr rfl))) ?_)
  constructor
  · exact fun h t ht => h t (ht.trans (List.suffix_append p s))
  · intro h t ht
    obtain hs | ⟨q, rfl⟩ := List.suffix_or_suffix_of_suffix ht (List.suffix_append p s)
    · exact h t hs
    · -- a suffix that is longer begins with a character of the text in front
      cases q with
      | nil => exact h _ List.suffix_rfl
      | cons c q =>
          obtain ⟨w, hw⟩ := ht
          rw [← List.append_assoc] at hw
          have hc : c ∈ p := by
            rw [← List.append_cancel_right hw]
            exact List.mem_append_right w List.mem_cons_self
          obtain ⟨hlt, hamp, -⟩ := hp c hc
          rintro (⟨hhead, -⟩ | ⟨hhead, -⟩)
          · exact hlt (Option.some.inj hhead)
          · exact hamp (Option.some.inj hhead)

end Inert

end Html
