import Mathlib.Algebra.BigOperators.Group.List.Basic
import Mathlib.Algebra.Ring.Nat
import Rooti.Lib.Html.Tokenizer

/-!
# Tokens are no longer than their text

A character token takes one character, a tag takes its name and its brackets.  The
tokens of a text together are never longer than the text: a character that was part
of a reference or of an empty end tag is lost, none is made up.

## Main definitions

* `Token.weight`, `weight` — the least number of characters that tokens take
* `State.pending` — the characters read for a token that is not complete

## Main results

* `fits_step` — one step
* `run_eq_scan`, `scan_cons` — the tokens of a text, one step at a time
* `weight_scan_le` — the tokens of a text

## The measure

`Fits given rest x` compares what a step `x` has made with what it was given: the weight
of its tokens, the characters kept in its state and the text it leaves are together at
most what was pending before, the character it read and the text behind it. With this as
the invariant of a step, the bound on a text is an induction on its length. It has to be
strong induction: a reference or a comment's end reads several characters in one step.

The same bound settles termination. `run` counts its steps down, and since every step
leaves at most the text behind the character it read, as many steps as characters are
enough (`run_eq_run`); from then on the proofs use `scan` and `scan_cons` and forget the
counter.
-/

namespace Html

/-- The least number of characters of a token. -/
def Token.weight : Token → ℕ
  | .char _ => 1
  | .startTag name _ _ => name.length + 2
  | .endTag name => name.length + 3
  | .comment _ => 1
  | .doctype _ => 1

/-- The least number of characters of tokens. -/
def weight (ts : List Token) : ℕ := (ts.map Token.weight).sum

@[simp] theorem weight_nil : weight [] = 0 := rfl

@[simp] theorem weight_cons (t : Token) (ts : List Token) :
    weight (t :: ts) = t.weight + weight ts := List.sum_cons

/-- Weights add up, so that a text can be weighed token by token. -/
@[simp] theorem weight_append (ts us : List Token) : weight (ts ++ us) = weight ts + weight us := by
  rw [weight, List.map_append, List.sum_append]
  rfl

/-- Characters weigh one each. -/
@[simp] theorem weight_chars (cs : List Char) : weight (cs.map .char) = cs.length := by
  induction cs with
  | nil => rfl
  | cons c cs ih =>
      rw [List.map_cons, weight_cons, ih, List.length_cons, Token.weight, Nat.add_comm]

/-- The characters of a tag up to the end of its name. -/
def Tag.pending (tag : Tag) : ℕ := tag.name.length + if tag.closing then 2 else 1

/-- Attributes are not counted: a tag weighs its name. -/
@[simp] theorem Tag.pending_add (tag : Tag) (name value : List Char) :
    (tag.add name value).pending = tag.pending := by
  unfold Tag.add
  split_ifs <;> rfl

/-- The characters that were read for a token that is not complete. -/
def State.pending : State → ℕ
  | .data | .rcdata _ | .rawtext _ | .script _ | .plaintext => 0
  | .tagName tag | .beforeAttributeName tag | .attributeName tag _ | .afterAttributeName tag _
  | .beforeAttributeValue tag _ | .quoted _ tag _ _ | .unquoted tag _ _ | .selfClosing tag =>
      tag.pending
  | .comment _ | .bogusComment _ | .doctype _ => 1

/-- Nothing is pending where the content of an element begins. -/
@[simp] theorem pending_content (name : List Char) : (content name).pending = 0 := by
  unfold content
  split_ifs <;> rfl

/-- **A step fits**: it only reads on, and what it makes and keeps is no longer than what it
was given and has read. -/
def Fits (given : ℕ) (rest : List Char) (x : Step) : Prop :=
  x.2.2.length ≤ rest.length ∧
    weight x.1 + x.2.1.pending + x.2.2.length ≤ given + 1 + rest.length

/-! ## References -/

variable {refs : References} {given : ℕ} {c : Char} {rest text cs : List Char}

/-- At least one digit stands for one character. -/
theorem numericReference_fits {base : ℕ} {isDigit : Char → Bool} {rest' : List Char}
    (h : numericReference base isDigit text = some (cs, rest')) :
    cs.length + rest'.length ≤ text.length := by
  unfold numericReference at h
  dsimp only at h
  split_ifs at h with hdigits hsemi
  all_goals
    cases h
    have hsum := congrArg List.length (List.takeWhile_append_dropWhile (p := isDigit) (l := text))
    have hpos := List.length_pos_of_ne_nil hdigits
    rw [List.length_append] at hsum
    simp only [List.length_singleton, List.length_tail]
    omega

/-- The name of a reference is a part of the text. -/
theorem length_nameRun_le (text : List Char) : (nameRun text).length ≤ text.length := by
  have hsum := congrArg List.length
    (List.takeWhile_append_dropWhile (p := Char.isAlphanum) (l := text))
  rw [List.length_append] at hsum
  unfold nameRun
  dsimp only
  split_ifs with hsemi
  · have hpos : 0 < (text.dropWhile Char.isAlphanum).length := by
      cases hdrop : text.dropWhile Char.isAlphanum with
      | nil =>
          rw [hdrop] at hsemi
          cases hsemi
      | cons d ds => exact Nat.zero_lt_succ _
    rw [List.length_append, List.length_singleton]
    omega
  · omega

/-- No name of the table is shorter than what it stands for; this is a field of the
table. -/
theorem namedReference_fits {rest' : List Char}
    (h : namedReference refs text = some (cs, rest')) : cs.length + rest'.length ≤ text.length := by
  obtain ⟨k, hk, hnamed⟩ := List.exists_of_findSome?_eq_some h
  obtain ⟨cs', hcs, heq⟩ := Option.map_eq_some_iff.mp hnamed
  cases heq
  have hlength := refs.length_le hcs
  have hrun := length_nameRun_le text
  rw [List.mem_reverse, List.mem_range] at hk
  rw [List.length_take] at hlength
  rw [List.length_drop]
  omega

/-- **A reference** is no shorter than what it stands for. -/
theorem reference_fits {rest' : List Char} (h : reference refs text = some (cs, rest')) :
    cs.length + rest'.length ≤ text.length := by
  have htail : text.tail.length ≤ text.length := by
    rw [List.length_tail]
    omega
  unfold reference at h
  split_ifs at h
  · have hfits := numericReference_fits h
    rw [List.length_tail] at hfits
    omega
  · have hfits := numericReference_fits h
    omega
  · exact namedReference_fits h

/-! ## One step -/

/-- More characters may have been given, and fewer be left. -/
theorem Fits.mono {given' : ℕ} {rest' : List Char} {x : Step} (h : Fits given rest x)
    (hlength : rest.length ≤ rest'.length) (hle : given + rest.length ≤ given' + rest'.length) :
    Fits given' rest' x := by
  obtain ⟨hread, hweight⟩ := h
  exact ⟨hread.trans hlength, by omega⟩

/-- A step without a token. -/
theorem fits_quiet {s : State} {rest' : List Char} (hread : rest'.length ≤ rest.length)
    (hkept : s.pending + rest'.length ≤ given + 1 + rest.length) : Fits given rest ([], s, rest') :=
  ⟨hread, by simpa using hkept⟩

/-- A step with one token. -/
theorem fits_token {t : Token} {s : State} {rest' : List Char} (hread : rest'.length ≤ rest.length)
    (hkept : t.weight + s.pending + rest'.length ≤ given + 1 + rest.length) :
    Fits given rest ([t], s, rest') :=
  ⟨hread, by simpa using hkept⟩

/-- A character that was read and given. -/
theorem fits_char {s : State} {d : Char} (hs : s.pending = 0) : Fits 0 rest ([.char d], s, rest) :=
  fits_token le_rfl (by simp [hs, Token.weight])

/-- A tag weighs its name, which was pending, and the bracket that was read now. -/
theorem fits_emit (tag : Tag) (selfClosing : Bool) (rest : List Char) :
    Fits tag.pending rest (emit tag selfClosing rest) := by
  unfold emit
  split_ifs with hclosing
  · exact fits_token le_rfl (by simp [Token.weight, Tag.pending, State.pending, hclosing])
  · exact fits_token le_rfl (by simp [Token.weight, Tag.pending, hclosing])

/-- An `&` that begins no reference is a character; one that does is paid for by the
reference. -/
theorem fits_ampersand {s : State} (hs : s.pending = 0) :
    Fits 0 rest (ampersand refs s rest) := by
  unfold ampersand
  split
  case h_1 cs rest' href =>
    have hfits := reference_fits href
    refine ⟨?_, ?_⟩ <;> simp only [weight_chars] <;> omega
  case h_2 => exact fits_char hs

/-- A comment weighs one character, and its opening has at least two. -/
theorem fits_markupDeclaration : Fits 1 rest (markupDeclaration rest) := by
  unfold markupDeclaration Fits
  split_ifs <;> simp [Token.weight, State.pending] <;> omega

/-- All that may follow a `<`. -/
theorem fits_tagOpen : Fits 0 rest (tagOpen rest) := by
  cases rest with
  | nil => exact fits_char rfl
  | cons d after =>
      rw [tagOpen]
      split_ifs
      · exact fits_markupDeclaration.mono (Nat.le_succ _) (by rw [List.length_cons]; omega)
      · cases after with
        | nil => exact ⟨le_rfl, by simp [endTagOpen, Token.weight, State.pending]⟩
        | cons e after =>
            rw [endTagOpen]
            split_ifs
            all_goals
              refine fits_quiet ?_ ?_ <;> simp [State.pending, Tag.pending] <;> omega
      · exact fits_quiet (Nat.le_succ _) (by simp [State.pending])
      · exact fits_quiet le_rfl (by simp [State.pending, Tag.pending])
      · exact fits_char rfl

/-- The end tag of an element takes its name and its brackets. -/
theorem fits_onlyEndTag {name : List Char} {s : State} (hs : s.pending = 0) :
    Fits 0 rest (onlyEndTag name s rest) := by
  unfold onlyEndTag
  split_ifs with hend
  · obtain ⟨hslash, -, hafter⟩ := hend
    have hrest : rest.length = rest.tail.length + 1 := by
      cases rest with
      | nil => cases hslash
      | cons e rest => rfl
    have hname : name.length < rest.tail.length := by
      by_contra hle
      rw [List.drop_eq_nil_of_le (Nat.le_of_not_lt hle)] at hafter
      cases hafter
    refine fits_quiet ?_ ?_ <;> rw [List.length_drop] <;> simp [State.pending, Tag.pending] <;>
      omega
  · exact fits_char hs

/-- In a script only the end tag of the script is markup; escapes change the state
alone. -/
theorem fits_scriptStep {escape : Escape} : Fits 0 rest (scriptStep escape c rest) := by
  -- the ends of a comment give back the characters they take
  have hend : "->".toList <+: rest →
      Fits 0 rest ([.char '-', .char '-', .char '>'], .script .none, rest.drop 2) := by
    intro hprefix
    have hlength : 2 ≤ rest.length := hprefix.length_le
    refine ⟨(List.drop_suffix 2 rest).length_le, ?_⟩
    simp only [weight_cons, weight_nil, Token.weight, State.pending, List.length_drop]
    omega
  have hbegin : "!--".toList <+: rest →
      Fits 0 rest ([.char '<', .char '!'], .script .comment, rest.tail) := by
    intro hprefix
    have hlength : 3 ≤ rest.length := hprefix.length_le
    refine ⟨(List.tail_suffix rest).length_le, ?_⟩
    simp only [weight_cons, weight_nil, Token.weight, State.pending, List.length_tail]
    omega
  cases escape with
  | none =>
      rw [scriptStep]
      split_ifs with hcomment
      · exact hbegin hcomment.2
      · exact fits_onlyEndTag rfl
      · exact fits_char rfl
  | comment =>
      rw [scriptStep]
      split_ifs with hcomment
      · exact hend hcomment.2
      · exact fits_char rfl
      · exact fits_onlyEndTag rfl
      · exact fits_char rfl
  | script =>
      rw [scriptStep]
      split_ifs with hcomment
      · exact hend hcomment.2
      · exact fits_char rfl
      · exact fits_char rfl

/-- Between attributes the name of the tag stays pending. -/
theorem fits_beforeAttributeNameStep (tag : Tag) (c : Char) (rest : List Char) :
    Fits tag.pending rest (beforeAttributeNameStep tag c rest) := by
  unfold beforeAttributeNameStep
  split_ifs
  · exact fits_quiet le_rfl (by simp [State.pending])
  · exact fits_quiet le_rfl (by simp [State.pending])
  · exact fits_emit tag false rest
  · exact fits_quiet le_rfl (by simp [State.pending])

/-- A reference in a value leaves a part of the text. -/
theorem valueAmpersand_length_le (refs : References) (rest : List Char) :
    (valueAmpersand refs rest).2.length ≤ rest.length := by
  unfold valueAmpersand
  split
  case h_1 cs rest' href =>
    have hfits := reference_fits href
    split_ifs
    · exact le_rfl
    · exact (Nat.le_add_left ..).trans hfits
  case h_2 => exact le_rfl

/-- A value without quotes ends at white space or at the bracket. -/
theorem fits_unquotedStep {tag : Tag} {name value : List Char} :
    Fits tag.pending rest (unquotedStep refs tag name value c rest) := by
  unfold unquotedStep
  split_ifs
  · exact fits_quiet le_rfl (by simp [State.pending])
  · have hemit := fits_emit (tag.add name value) false rest
    rwa [Tag.pending_add] at hemit
  · have hle := valueAmpersand_length_le refs rest
    exact fits_quiet hle (by simp only [State.pending]; omega)
  · exact fits_quiet le_rfl (by simp [State.pending])

/-- **Every step fits.** -/
theorem fits_step (refs : References) (s : State) (c : Char) (rest : List Char) :
    Fits s.pending rest (step refs s c rest) := by
  cases s with
  | data =>
      simp only [step, dataStep]
      split_ifs
      · exact fits_ampersand rfl
      · exact fits_tagOpen
      · exact fits_char rfl
  | rcdata name =>
      simp only [step, rcdataStep]
      split_ifs
      · exact fits_ampersand rfl
      · exact fits_onlyEndTag rfl
      · exact fits_char rfl
  | rawtext name =>
      simp only [step, rawtextStep]
      split_ifs
      · exact fits_onlyEndTag rfl
      · exact fits_char rfl
  | script escape => exact fits_scriptStep
  | plaintext => exact fits_char rfl
  | tagName tag =>
      simp only [step, tagNameStep]
      split_ifs
      · exact fits_quiet le_rfl (by simp [State.pending])
      · exact fits_quiet le_rfl (by simp [State.pending])
      · exact fits_emit tag false rest
      · refine fits_quiet le_rfl ?_
        simp only [State.pending, Tag.pending, List.length_append, List.length_singleton]
        omega
  | beforeAttributeName tag => exact fits_beforeAttributeNameStep tag c rest
  | attributeName tag name =>
      simp only [step, attributeNameStep]
      split_ifs
      · exact fits_quiet le_rfl (by simp [State.pending])
      · exact fits_quiet le_rfl (by simp [State.pending])
      -- an attribute without a value weighs as much as its name, which was pending
      · have hemit := fits_emit (tag.add name []) false rest
        rwa [Tag.pending_add] at hemit
      · exact fits_quiet le_rfl (by simp [State.pending])
      · exact fits_quiet le_rfl (by simp [State.pending])
  | afterAttributeName tag name =>
      simp only [step, afterAttributeNameStep]
      split_ifs
      · exact fits_quiet le_rfl (by simp [State.pending])
      · exact fits_quiet le_rfl (by simp [State.pending])
      · have hbefore := fits_beforeAttributeNameStep (tag.add name []) c rest
        rwa [Tag.pending_add] at hbefore
  | beforeAttributeValue tag name =>
      simp only [step, beforeAttributeValueStep]
      split_ifs
      · exact fits_quiet le_rfl (by simp [State.pending])
      · exact fits_quiet le_rfl (by simp [State.pending])
      · exact fits_unquotedStep
  | quoted quote tag name value =>
      simp only [step, quotedStep]
      split_ifs
      · exact fits_quiet le_rfl (by simp [State.pending])
      · have hle := valueAmpersand_length_le refs rest
        exact fits_quiet hle (by simp only [State.pending]; omega)
      · exact fits_quiet le_rfl (by simp [State.pending])
  | unquoted tag name value => exact fits_unquotedStep
  | selfClosing tag =>
      simp only [step, selfClosingStep]
      split_ifs
      · exact fits_emit tag true rest
      · exact fits_beforeAttributeNameStep tag c rest
  | comment text =>
      simp only [step, commentStep]
      split_ifs
      -- the end of a comment is read ahead: its characters leave the rest and weigh
      -- nothing
      · refine fits_token (List.drop_suffix 2 rest).length_le ?_
        simp only [Token.weight, State.pending, List.length_drop]
        omega
      · refine fits_token (List.drop_suffix 3 rest).length_le ?_
        simp only [Token.weight, State.pending, List.length_drop]
        omega
      · exact fits_quiet le_rfl (by simp [State.pending])
  | bogusComment text =>
      simp only [step, bogusCommentStep]
      split_ifs
      · exact fits_token le_rfl (by simp [Token.weight, State.pending])
      · exact fits_quiet le_rfl (by simp [State.pending])
  | doctype text =>
      simp only [step, doctypeStep]
      split_ifs
      · exact fits_token le_rfl (by simp [Token.weight, State.pending])
      · exact fits_quiet le_rfl (by simp [State.pending])

/-! ## Texts -/

/-- The end of a text gives at most what was pending. -/
theorem weight_finish_le (s : State) : weight (finish s) ≤ s.pending := by
  cases s <;> simp [finish, State.pending, Token.weight]

/-- More steps than characters make no difference. -/
theorem run_eq_run {n m : ℕ} {s : State} (hn : text.length ≤ n) (hm : text.length ≤ m) :
    run refs n s text = run refs m s text := by
  induction n generalizing m s text with
  | zero =>
      rw [List.eq_nil_of_length_eq_zero (Nat.le_zero.mp hn)]
      cases m <;> rfl
  | succ n ih =>
      cases text with
      | nil => cases m <;> rfl
      | cons c rest =>
          cases m with
          | zero => exact absurd hm (Nat.not_succ_le_zero _)
          | succ m =>
              have hread := (fits_step refs s c rest).1
              rw [List.length_cons] at hn hm
              rw [run, run, ih (m := m) (by omega) (by omega)]

/-- Any number of steps that is large enough gives the tokens of the text. -/
theorem run_eq_scan {n : ℕ} {s : State} (h : text.length ≤ n) :
    run refs n s text = scan refs s text :=
  run_eq_run h le_rfl

/-- Nothing is read at the end of a text. -/
theorem scan_nil (s : State) : scan refs s [] = finish s := rfl

/-- **The first step.** -/
theorem scan_cons (s : State) (c : Char) (rest : List Char) :
    scan refs s (c :: rest) =
      (step refs s c rest).1 ++ scan refs (step refs s c rest).2.1 (step refs s c rest).2.2 := by
  have hread := (fits_step refs s c rest).1
  rw [← run_eq_scan hread]
  rfl

/-- **The tokens of a text are no longer than the text** and what was read before it. -/
theorem weight_scan_le (refs : References) (s : State) (text : List Char) :
    weight (scan refs s text) ≤ s.pending + text.length := by
  induction hn : text.length using Nat.strong_induction_on generalizing s text with
  | _ n ih =>
      cases text with
      | nil => exact (weight_finish_le s).trans (Nat.le_add_right _ _)
      | cons c rest =>
          obtain ⟨hread, hweight⟩ := fits_step refs s c rest
          rw [List.length_cons] at hn
          have hrest := ih _ (by omega) (step refs s c rest).2.1 (step refs s c rest).2.2 rfl
          rw [scan_cons, weight_append]
          omega

end Html
