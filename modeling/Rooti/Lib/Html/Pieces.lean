import Rooti.Lib.Html.Text

/-!
# Documents that are written in pieces

A template puts text, tags and elements with text in them one after another.  A
plain piece is read as the tokens it was written for, whatever follows it, and a
bare one, without attributes, takes no more characters than its tokens do.

## Main definitions

* `Piece` — text, tags, elements with text, and document types
* `Piece.write`, `Piece.tokens` — how a piece is written, and what it is to be read as
* `Piece.Plain`, `Piece.Bare` — pieces that are read so, and that waste nothing

## Main results

* `scan_pieces` — plain pieces are read as their tokens
* `weight_pieces` — the tokens of bare pieces are as long as they

## What carries the proof

There is one lemma for each state the scanner passes through while it reads a piece: it
reads the letters of a name, of a value or of a text up to the delimiter and then is in
the next state. They are inductions over the letters, generalised over what has been
read so far. A piece is then a chain of such lemmas, and since each of them leaves the
rest of the text as a variable, pieces can be put one after another without looking at
what follows (`scan_pieces`).
-/

namespace Html

variable {refs : References} {name text key value u : List Char}

/-! ## Tags -/

/-- The name of a tag: letters and digits in lower case, a letter first. -/
def IsTagName (name : List Char) : Prop :=
  name.head?.any Char.isAlpha ∧ ∀ c ∈ name, ¬isWhite c ∧ c ≠ '/' ∧ c ≠ '>' ∧ lowered c = c

instance (name : List Char) : Decidable (IsTagName name) :=
  @instDecidableAnd _ _ _ (List.decidableBAll _ _)

/-- A name starts with a letter, by which the scanner recognises a tag. -/
theorem IsTagName.exists_cons (h : IsTagName name) :
    ∃ d rest, name = d :: rest ∧ d.isAlpha := by
  obtain ⟨hhead, -⟩ := h
  cases name with
  | nil => cases hhead
  | cons d rest => exact ⟨d, rest, rfl, hhead⟩

/-- The name of an attribute. -/
def IsAttribute (name : List Char) : Prop :=
  name ≠ [] ∧ ∀ c ∈ name, ¬isWhite c ∧ c ≠ '/' ∧ c ≠ '>' ∧ c ≠ '=' ∧ lowered c = c

instance (name : List Char) : Decidable (IsAttribute name) :=
  @instDecidableAnd _ _ _ (List.decidableBAll _ _)

/-- The name of a tag that is being read. -/
theorem scan_tagName {tag : Tag} {c : Char} (hname : ∀ c ∈ name, ¬isWhite c ∧ c ≠ '/' ∧ c ≠ '>' ∧
    lowered c = c) :
    scan refs (.tagName tag) (name ++ c :: u) =
      scan refs (.tagName { tag with name := tag.name ++ name }) (c :: u) := by
  induction name generalizing tag with
  | nil => rw [List.append_nil]; rfl
  | cons d name ih =>
      obtain ⟨⟨hwhite, hslash, hgt, hlower⟩, hrest⟩ := List.forall_mem_cons.mp hname
      have hstep : step refs (.tagName tag) d (name ++ c :: u) =
          ([], .tagName { tag with name := tag.name ++ [d] }, name ++ c :: u) := by
        simp only [step, tagNameStep, if_neg hwhite, if_neg hslash, if_neg hgt, hlower]
      rw [List.cons_append, scan_cons, hstep, List.nil_append, ih hrest, List.append_assoc]
      rfl

/-- The end of a tag. -/
theorem scan_emit {tag : Tag} :
    scan refs (.tagName tag) ('>' :: u) =
      (emit tag false u).1 ++ scan refs (emit tag false u).2.1 (emit tag false u).2.2 := by
  rw [scan_cons]
  rfl

/-- The name of an attribute that is being read. -/
theorem scan_attributeName {tag : Tag} {read : List Char}
    (hname : ∀ c ∈ name, ¬isWhite c ∧ c ≠ '/' ∧ c ≠ '>' ∧ c ≠ '=' ∧ lowered c = c) :
    scan refs (.attributeName tag read) (name ++ '=' :: u) =
      scan refs (.beforeAttributeValue tag (read ++ name)) u := by
  induction name generalizing read with
  | nil =>
      rw [List.nil_append, scan_cons, List.append_nil]
      rfl
  | cons d name ih =>
      obtain ⟨⟨hwhite, hslash, hgt, heq, hlower⟩, hrest⟩ := List.forall_mem_cons.mp hname
      have hstep : step refs (.attributeName tag read) d (name ++ '=' :: u) =
          ([], .attributeName tag (read ++ [d]), name ++ '=' :: u) := by
        simp only [step, attributeNameStep, if_neg hwhite, if_neg hslash, if_neg hgt, if_neg heq,
          hlower]
      rw [List.cons_append, scan_cons, hstep, List.nil_append, ih hrest, List.append_assoc]
      rfl

/-- The value of an attribute that is being read. -/
theorem scan_quoted {tag : Tag} {read : List Char}
    (hvalue : ∀ c ∈ value, c ≠ '"' ∧ c ≠ '&' ∧ cleaned c = c) :
    scan refs (.quoted '"' tag key read) (value ++ '"' :: u) =
      scan refs (.beforeAttributeName (tag.add key (read ++ value))) u := by
  induction value generalizing read with
  | nil =>
      rw [List.nil_append, scan_cons, List.append_nil]
      rfl
  | cons d value ih =>
      obtain ⟨⟨hquote, hamp, hclean⟩, hrest⟩ := List.forall_mem_cons.mp hvalue
      have hstep : step refs (.quoted '"' tag key read) d (value ++ '"' :: u) =
          ([], .quoted '"' tag key (read ++ [d]), value ++ '"' :: u) := by
        simp only [step, quotedStep, if_neg hquote, if_neg hamp, hclean]
      rw [List.cons_append, scan_cons, hstep, List.nil_append, ih hrest, List.append_assoc]
      rfl

/-- An attribute, written with its blank. -/
def writeAttribute (a : List Char × List Char) : List Char :=
  ' ' :: a.1 ++ '=' :: '"' :: a.2 ++ ['"']

/-- An attribute in front of other text. -/
theorem writeAttribute_append (a : List Char × List Char) (u : List Char) :
    writeAttribute a ++ u = ' ' :: (a.1 ++ '=' :: '"' :: (a.2 ++ '"' :: u)) := by
  simp [writeAttribute]

/-- An attribute that is read as it is written. -/
def PlainAttribute (a : List Char × List Char) : Prop :=
  IsAttribute a.1 ∧ ∀ c ∈ a.2, c ≠ '"' ∧ c ≠ '&' ∧ cleaned c = c

instance (a : List Char × List Char) : Decidable (PlainAttribute a) :=
  @instDecidableAnd _ _ _ (List.decidableBAll _ _)

/-- The part of an attribute after its blank. -/
theorem scan_attribute {tag : Tag} {a : List Char × List Char} (ha : PlainAttribute a) :
    scan refs (.beforeAttributeName tag) (a.1 ++ '=' :: '"' :: (a.2 ++ '"' :: u)) =
      scan refs (.beforeAttributeName (tag.add a.1 a.2)) u := by
  obtain ⟨⟨hne, hkey⟩, hvalue⟩ := ha
  obtain ⟨key, value⟩ := a
  obtain ⟨d, rest, rfl⟩ := List.exists_cons_of_ne_nil hne
  obtain ⟨⟨hwhite, hslash, hgt, -, hlower⟩, hrest⟩ := List.forall_mem_cons.mp hkey
  have hstep : ∀ t, step refs (.beforeAttributeName tag) d t = ([], .attributeName tag [d], t) := by
    intro t
    simp only [step, beforeAttributeNameStep, if_neg hwhite, if_neg hslash, if_neg hgt, hlower]
  have hquote : ∀ t, scan refs (.beforeAttributeValue tag (d :: rest)) ('"' :: t) =
      scan refs (.quoted '"' tag (d :: rest) []) t := by
    intro t
    rw [scan_cons]
    rfl
  dsimp only
  rw [List.cons_append, scan_cons, hstep, List.nil_append, scan_attributeName hrest,
    List.singleton_append, hquote, scan_quoted hvalue]
  rfl

/-- The tag with more attributes. -/
def Tag.with (tag : Tag) (attributes : Attributes) : Tag :=
  { tag with attributes := tag.attributes ++ attributes }

/-- A tag without further attributes. -/
theorem Tag.with_nil (tag : Tag) : tag.with [] = tag := by
  rw [Tag.with, List.append_nil]

/-- Attributes are added in the order in which they are written, unless one comes twice.
-/
theorem Tag.with_cons {tag : Tag} {a : List Char × List Char} {attributes : Attributes}
    (ha : a.1 ∉ tag.attributes.map Prod.fst) :
    tag.with (a :: attributes) = (tag.add a.1 a.2).with attributes := by
  rw [Tag.add, if_neg ha, Tag.with, Tag.with, List.append_assoc]
  rfl

/-- **The attributes of a tag and its end.** -/
theorem scan_attributes {tag : Tag} {attributes : Attributes}
    (hplain : ∀ a ∈ attributes, PlainAttribute a)
    (hkeys : ((tag.attributes ++ attributes).map Prod.fst).Nodup) :
    scan refs (.beforeAttributeName tag) (attributes.flatMap writeAttribute ++ '>' :: u) =
      (emit (tag.with attributes) false u).1 ++
        scan refs (emit (tag.with attributes) false u).2.1 (emit (tag.with attributes) false u).2.2
    := by
  induction attributes generalizing tag with
  | nil =>
      rw [Tag.with_nil, List.flatMap_nil, List.nil_append, scan_cons]
      rfl
  | cons a attributes ih =>
      obtain ⟨ha, hrest⟩ := List.forall_mem_cons.mp hplain
      have hnew : a.1 ∉ tag.attributes.map Prod.fst := by
        intro hmem
        rw [List.map_append, List.nodup_append] at hkeys
        exact hkeys.2.2 _ hmem _ List.mem_cons_self rfl
      have hblank : ∀ t, scan refs (.beforeAttributeName tag) (' ' :: t) =
          scan refs (.beforeAttributeName tag) t := by
        intro t
        rw [scan_cons]
        rfl
      have hadd : (tag.add a.1 a.2).attributes = tag.attributes ++ [a] := by
        rw [Tag.add, if_neg hnew]
      rw [Tag.with_cons hnew, List.flatMap_cons, List.append_assoc, writeAttribute_append, hblank,
        scan_attribute ha]
      exact ih hrest (by rwa [hadd, List.append_assoc])

/-- What follows the name of a tag. -/
theorem scan_tagEnd {tag : Tag} {attributes : Attributes}
    (hplain : ∀ a ∈ attributes, PlainAttribute a)
    (hkeys : ((tag.attributes ++ attributes).map Prod.fst).Nodup) :
    scan refs (.tagName tag) (attributes.flatMap writeAttribute ++ '>' :: u) =
      (emit (tag.with attributes) false u).1 ++
        scan refs (emit (tag.with attributes) false u).2.1 (emit (tag.with attributes) false u).2.2
    := by
  cases attributes with
  | nil =>
      rw [Tag.with_nil]
      exact scan_emit
  | cons a attributes =>
      -- the blank ends the name
      rw [← scan_attributes hplain hkeys, List.flatMap_cons, List.append_assoc,
        writeAttribute_append, scan_cons, scan_cons]
      rfl

/-- A letter is none of the signs. -/
theorem alpha_ne {c d : Char} (hc : c.isAlpha) (hd : ¬d.isAlpha) : c ≠ d := by
  rintro rfl
  exact hd hc

/-- **A start tag.** -/
theorem scan_startTag {attributes : Attributes} (hname : IsTagName name)
    (hplain : ∀ a ∈ attributes, PlainAttribute a) (hkeys : (attributes.map Prod.fst).Nodup) :
    scan refs .data ('<' :: name ++ (attributes.flatMap writeAttribute ++ '>' :: u)) =
      .startTag name attributes false :: scan refs (content name) u := by
  obtain ⟨d, rest, rfl, halpha⟩ := hname.exists_cons
  obtain ⟨-, hall⟩ := hname
  have hopen : ∀ t, tagOpen (d :: t) = ([], .tagName ⟨false, [], []⟩, d :: t) := by
    intro t
    rw [tagOpen, if_neg (alpha_ne halpha (by decide)), if_neg (alpha_ne halpha (by decide)),
      if_neg (alpha_ne halpha (by decide)), if_pos halpha]
  have hstep : ∀ t, step refs .data '<' (d :: t) = ([], .tagName ⟨false, [], []⟩, d :: t) := hopen
  obtain ⟨c, after, hafter⟩ :
      ∃ c after, attributes.flatMap writeAttribute ++ '>' :: u = c :: after := by
    cases attributes with
    | nil => exact ⟨_, _, rfl⟩
    | cons a attributes => exact ⟨_, _, rfl⟩
  rw [List.cons_append, List.cons_append, scan_cons, hstep, List.nil_append, ← List.cons_append,
    hafter, scan_tagName hall, ← hafter]
  exact @scan_tagEnd refs u ⟨false, d :: rest, []⟩ attributes hplain hkeys

/-- **An end tag.** -/
theorem scan_endTag (hname : IsTagName name) :
    scan refs .data ('<' :: '/' :: name ++ '>' :: u) = .endTag name :: scan refs .data u := by
  obtain ⟨d, rest, rfl, halpha⟩ := hname.exists_cons
  obtain ⟨-, hall⟩ := hname
  have hopen : ∀ t, endTagOpen (d :: t) = ([], .tagName ⟨true, [], []⟩, d :: t) := by
    intro t
    rw [endTagOpen, if_neg (alpha_ne halpha (by decide)), if_pos halpha]
  have hstep : ∀ t, step refs .data '<' ('/' :: d :: t) =
      ([], .tagName ⟨true, [], []⟩, d :: t) := hopen
  rw [List.cons_append, List.cons_append, List.cons_append, scan_cons, hstep, List.nil_append,
    ← List.cons_append, scan_tagName hall, scan_emit]
  rfl

/-! ## Elements with text -/

/-- The end tag of an element whose content is text. -/
theorem onlyEndTag_name {s : State} (hname : IsTagName name) :
    onlyEndTag name s ('/' :: name ++ '>' :: u) = ([], .tagName ⟨true, name, []⟩, '>' :: u) := by
  have hlower : name.map lowered = name :=
    (List.map_congr_left fun c hc => (hname.2 c hc).2.2.2).trans (List.map_id name)
  have hends : Names name (name ++ '>' :: u) := by
    refine ⟨by rw [List.take_left, hlower], ?_⟩
    rw [List.drop_left]
    rfl
  rw [onlyEndTag, List.cons_append, if_pos ⟨rfl, hends⟩, List.tail_cons, List.drop_left]

/-- In text with references only the end tag of its own element is a tag. -/
theorem scan_rcdata_end (hname : IsTagName name) :
    scan refs (.rcdata name) ('<' :: '/' :: name ++ '>' :: u) =
      .endTag name :: scan refs .data u := by
  have hstep : ∀ t, step refs (.rcdata name) '<' t = onlyEndTag name (.rcdata name) t :=
    fun _ => rfl
  rw [List.cons_append, scan_cons, hstep, onlyEndTag_name hname, List.nil_append, scan_emit]
  rfl

/-- Text without markup in an element such as `style`. -/
theorem scan_rawtext (hname : IsTagName name) (htext : ∀ c ∈ text, c ≠ '<' ∧ cleaned c = c) :
    scan refs (.rawtext name) (text ++ '<' :: '/' :: name ++ '>' :: u) =
      text.map .char ++ .endTag name :: scan refs .data u := by
  induction text with
  | nil =>
      have hstep : ∀ t, step refs (.rawtext name) '<' t = onlyEndTag name (.rawtext name) t :=
        fun _ => rfl
      rw [List.nil_append, List.cons_append, scan_cons, hstep, onlyEndTag_name hname,
        List.nil_append, scan_emit]
      rfl
  | cons c text ih =>
      obtain ⟨⟨hlt, hclean⟩, hrest⟩ := List.forall_mem_cons.mp htext
      have hstep : ∀ t, step refs (.rawtext name) c t = ([.char c], .rawtext name, t) := by
        intro t
        simp only [step, rawtextStep, if_neg hlt, hclean]
      rw [List.cons_append, List.cons_append, scan_cons, hstep, ih hrest]
      rfl

/-! ## Pieces -/

/-- What a template puts one after another. -/
inductive Piece
  | text (s : List Char)
  | startTag (name : List Char) (attributes : Attributes)
  | endTag (name : List Char)
  | rawElement (name text : List Char)
  | doctype (text : List Char)

namespace Piece

/-- The word of a document type. -/
def doctypeWord : List Char := ['d', 'o', 'c', 't', 'y', 'p', 'e']

/-- How the piece is written. -/
def write : Piece → List Char
  | .text s => s
  | .startTag name attributes => '<' :: name ++ (attributes.flatMap writeAttribute ++ ['>'])
  | .endTag name => '<' :: '/' :: name ++ ['>']
  | .rawElement name text => '<' :: name ++ '>' :: (text ++ '<' :: '/' :: name ++ ['>'])
  | .doctype text => '<' :: '!' :: doctypeWord ++ (text ++ ['>'])

/-- What it is to be read as. -/
def tokens : Piece → List Token
  | .text s => s.map .char
  | .startTag name attributes => [.startTag name attributes false]
  | .endTag name => [.endTag name]
  | .rawElement name text => .startTag name [] false :: (text.map .char ++ [.endTag name])
  | .doctype text => [.doctype text]

/-- **A plain piece** is read as it is written. -/
def Plain : Piece → Prop
  | .text s => ∀ c ∈ s, c ≠ '<' ∧ c ≠ '&'
  | .startTag name attributes => IsTagName name ∧ content name = .data ∧
      (∀ a ∈ attributes, PlainAttribute a) ∧ (attributes.map Prod.fst).Nodup
  | .endTag name => IsTagName name
  | .rawElement name text => IsTagName name ∧ content name = .rawtext name ∧
      ∀ c ∈ text, c ≠ '<' ∧ cleaned c = c
  | .doctype text => ∀ c ∈ text, c ≠ '>' ∧ cleaned c = c

instance : DecidablePred Plain
  | .text s => List.decidableBAll _ s
  | .startTag .. => inferInstanceAs (Decidable (_ ∧ _ ∧ _ ∧ _))
  | .endTag name => inferInstanceAs (Decidable (IsTagName name))
  | .rawElement _ text => @instDecidableAnd _ _ _ (@instDecidableAnd _ _ _ (List.decidableBAll _ text))
  | .doctype text => List.decidableBAll _ text

/-- **A bare piece** wastes no characters: it has no attributes, and is no document type. -/
def Bare : Piece → Prop
  | .text _ | .endTag _ | .rawElement .. => True
  | .startTag _ attributes => attributes = []
  | .doctype _ => False

instance : DecidablePred Bare
  | .text _ | .endTag _ | .rawElement .. => isTrue trivial
  | .startTag _ attributes => inferInstanceAs (Decidable (attributes = []))
  | .doctype _ => isFalse id

end Piece

/-- A text in which nothing can begin. -/
theorem scan_plainText (h : ∀ c ∈ text, c ≠ '<' ∧ c ≠ '&') :
    scan refs .data (text ++ u) = text.map .char ++ scan refs .data u := by
  have hscan := (readsText_data refs).scan_append (n := text) (u := u)
    fun t hne hsuffix hbegins => by
      obtain ⟨d, t, rfl⟩ := List.exists_cons_of_ne_nil hne
      obtain ⟨hlt, hamp⟩ := h d (hsuffix.subset List.mem_cons_self)
      obtain ⟨hd, -⟩ | ⟨hd, -⟩ := hbegins.1
      · exact hlt (Option.some.inj hd)
      · exact hamp (Option.some.inj hd)
  rwa [List.map_id] at hscan

/-- A document type is recognised by its word. -/
theorem markupDeclaration_doctype (v : List Char) :
    markupDeclaration (Piece.doctypeWord ++ v) = ([], .doctype [], v) := by
  have hdash : ∀ w : List Char, w.head? = some '-' → ¬(w <+: Piece.doctypeWord ++ v) := by
    rintro (_ | ⟨d, w⟩) hd hprefix
    · cases hd
    · cases hd
      obtain ⟨hd, -⟩ := List.cons_prefix_cons.mp hprefix
      revert hd
      decide
  have hword : Piece.doctypeWord.map lowered = "doctype".toList := by decide
  have htake : (Piece.doctypeWord ++ v).take 7 = Piece.doctypeWord := rfl
  rw [markupDeclaration, if_neg (hdash _ rfl), if_neg (hdash _ rfl), if_neg (hdash _ rfl), htake,
    if_pos hword]
  rfl

/-- A document type is read up to its end. -/
theorem scan_doctype (h : ∀ c ∈ text, c ≠ '>' ∧ cleaned c = c) :
    scan refs .data ('<' :: '!' :: Piece.doctypeWord ++ (text ++ '>' :: u)) =
      .doctype text :: scan refs .data u := by
  have hread : ∀ read, scan refs (.doctype read) (text ++ '>' :: u) =
      .doctype (read ++ text) :: scan refs .data u := by
    induction text with
    | nil =>
        intro read
        rw [List.nil_append, scan_cons, List.append_nil]
        rfl
    | cons c text ih =>
        intro read
        obtain ⟨⟨hgt, hclean⟩, hrest⟩ := List.forall_mem_cons.mp h
        have hstep : ∀ t, step refs (.doctype read) c t = ([], .doctype (read ++ [c]), t) := by
          intro t
          simp only [step, doctypeStep, if_neg hgt, hclean]
        rw [List.cons_append, scan_cons, hstep, List.nil_append, ih hrest, List.append_assoc]
        rfl
  have hstep : ∀ v, step refs .data '<' ('!' :: Piece.doctypeWord ++ v) =
      ([], .doctype [], v) := markupDeclaration_doctype
  rw [List.cons_append, scan_cons, hstep, List.nil_append, hread]
  rfl

/-- **A plain piece** is read as it is written, whatever follows. -/
theorem scan_piece {p : Piece} (hp : p.Plain) :
    scan refs .data (p.write ++ u) = p.tokens ++ scan refs .data u := by
  cases p with
  | text s => exact scan_plainText hp
  | startTag name attributes =>
      obtain ⟨hname, hcontent, hplain, hkeys⟩ := hp
      rw [Piece.write, List.append_assoc, List.append_assoc, List.singleton_append,
        scan_startTag hname hplain hkeys, hcontent]
      rfl
  | endTag name =>
      rw [Piece.write, List.append_assoc, List.singleton_append, scan_endTag hp]
      rfl
  | rawElement name text =>
      obtain ⟨hname, hcontent, htext⟩ := hp
      have hstart := @scan_startTag refs name (text ++ '<' :: '/' :: name ++ '>' :: u) [] hname
        nofun List.nodup_nil
      rw [hcontent, scan_rawtext hname htext] at hstart
      simpa [Piece.write, Piece.tokens] using hstart
  | doctype text =>
      rw [Piece.write, List.append_assoc, List.append_assoc, List.singleton_append, scan_doctype hp]
      rfl

/-- **Plain pieces are read as their tokens.** -/
theorem scan_pieces {ps : List Piece} (h : ∀ p ∈ ps, p.Plain) :
    scan refs .data (ps.flatMap Piece.write ++ u) =
      ps.flatMap Piece.tokens ++ scan refs .data u := by
  induction ps with
  | nil => rfl
  | cons p ps ih =>
      obtain ⟨hp, hps⟩ := List.forall_mem_cons.mp h
      rw [List.flatMap_cons, List.flatMap_cons, List.append_assoc, scan_piece hp, ih hps,
        List.append_assoc]

/-- **The tokens of bare pieces** are as long as what is written. -/
theorem weight_pieces {ps : List Piece} (h : ∀ p ∈ ps, p.Bare) :
    weight (ps.flatMap Piece.tokens) = (ps.flatMap Piece.write).length := by
  induction ps with
  | nil => rfl
  | cons p ps ih =>
      obtain ⟨hp, hps⟩ := List.forall_mem_cons.mp h
      have hpiece : weight p.tokens = p.write.length := by
        cases p with
        | text s => exact weight_chars s
        | startTag name attributes =>
            cases hp
            simp [Piece.tokens, Piece.write, Token.weight]
        | endTag name => simp [Piece.tokens, Piece.write, Token.weight]
        | rawElement name text =>
            simp [Piece.tokens, Piece.write, Token.weight]
            omega
        | doctype text => exact hp.elim
      rw [List.flatMap_cons, List.flatMap_cons, weight_append, List.length_append, hpiece, ih hps]

end Html
