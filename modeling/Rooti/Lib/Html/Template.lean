import Rooti.Lib.Html.Pieces

/-!
# A page with a title

A template has two places for a title: the text of the `title` element, and a heading
further down.  Everything else is plain.  The page is read as the template's tokens
around the title, twice, exactly if the title is inert: all that the template wastes
is in front of the title, so no character of the title may be lost either.

## Main definitions

* `Template` — what is around the title
* `Template.write`, `Template.tokens` — the page, and what it is to be read as

## Main results

* `Template.tokenize_write_iff` — when the page is read so
-/

namespace Html

/-- The element of the title. -/
def titleName : List Char := ['t', 'i', 't', 'l', 'e']

/-- **A page around its title**: plain pieces, bare ones after the title. -/
structure Template where
  before : List Piece
  between : List Piece
  heading : List Char
  after : List Piece
  isTagName_heading : IsTagName heading
  content_heading : content heading = .data
  plain : ∀ p ∈ before ++ between ++ after, p.Plain
  bare : ∀ p ∈ between ++ after, p.Bare
  noReturn : '\r' ∉ heading ++ (before ++ between ++ after).flatMap Piece.write

namespace Template

variable (t : Template) (s : List Char)

/-- Up to the title. -/
def front : List Piece := t.before ++ [.startTag titleName []]

/-- From the end tag of the title to the heading. -/
def middle : List Piece := t.between ++ [.startTag t.heading []]

/-- From the end tag of the heading. -/
def rest : List Piece := .endTag t.heading :: t.after

/-- The page. -/
def write : List Char :=
  t.front.flatMap Piece.write ++ (s ++
    ((Piece.endTag titleName).write ++ (t.middle.flatMap Piece.write ++ (s ++
      t.rest.flatMap Piece.write))))

/-- What the page is to be read as: the title is text in both places. -/
def tokens : List Token :=
  t.front.flatMap Piece.tokens ++ (s.map .char ++
    (.endTag titleName :: (t.middle.flatMap Piece.tokens ++ (s.map .char ++
      t.rest.flatMap Piece.tokens))))

/-! ## Its pieces -/

variable {t s} {refs : References}

theorem plain_middle : ∀ p ∈ t.middle, p.Plain := by
  intro p hp
  obtain hp | hp := List.mem_append.mp hp
  · exact t.plain p (List.mem_append_left _ (List.mem_append_right _ hp))
  · rw [List.mem_singleton.mp hp]
    exact ⟨t.isTagName_heading, t.content_heading, nofun, List.nodup_nil⟩

theorem plain_rest : ∀ p ∈ t.rest, p.Plain := by
  intro p hp
  obtain rfl | hp := List.mem_cons.mp hp
  · exact t.isTagName_heading
  · exact t.plain p (List.mem_append_right _ hp)

theorem bare_middle : ∀ p ∈ t.middle, p.Bare := by
  intro p hp
  obtain hp | hp := List.mem_append.mp hp
  · exact t.bare p (List.mem_append_left _ hp)
  · rw [List.mem_singleton.mp hp]
    rfl

theorem bare_rest : ∀ p ∈ t.rest, p.Bare := by
  intro p hp
  obtain rfl | hp := List.mem_cons.mp hp
  · trivial
  · exact t.bare p (List.mem_append_right _ hp)

theorem isTagName_title : IsTagName titleName := by decide

/-- What is in front of the title. -/
theorem scan_before (u : List Char) :
    scan refs .data (t.front.flatMap Piece.write ++ u) =
      t.front.flatMap Piece.tokens ++
        scan refs (.rcdata titleName) u := by
  have hbefore : ∀ p ∈ t.before, p.Plain :=
    fun p hp => t.plain p (List.mem_append_left _ (List.mem_append_left _ hp))
  have hwrite : (Piece.startTag titleName []).write ++ u = '<' :: titleName ++ ([] ++ '>' :: u) :=
    rfl
  have htitle : scan refs .data ('<' :: titleName ++ ([] ++ '>' :: u)) =
      .startTag titleName [] false :: scan refs (.rcdata titleName) u :=
    @scan_startTag refs titleName u [] isTagName_title nofun List.nodup_nil
  rw [front, List.flatMap_append, List.flatMap_append, List.append_assoc, scan_pieces hbefore,
    List.append_assoc, List.flatMap_singleton, List.flatMap_singleton, hwrite, htitle]
  rfl

/-- The end tag of the title. -/
theorem scan_title_end (u : List Char) :
    scan refs (.rcdata titleName) ((Piece.endTag titleName).write ++ u) =
      .endTag titleName :: scan refs .data u := by
  have hwrite : (Piece.endTag titleName).write ++ u = '<' :: '/' :: titleName ++ '>' :: u := rfl
  rw [hwrite]
  exact scan_rcdata_end isTagName_title

/-- What is after the heading. -/
theorem scan_rest :
    scan refs .data (t.rest.flatMap Piece.write) = t.rest.flatMap Piece.tokens := by
  have hscan := @scan_pieces refs [] t.rest plain_rest
  rwa [List.append_nil, scan_nil, show finish .data = [] from rfl, List.append_nil] at hscan

theorem noReturn_flatMap (t : Template) {ps : List Piece}
    (h : ∀ p ∈ ps, p ∈ t.before ++ t.between ++ t.after) :
    '\r' ∉ ps.flatMap Piece.write := by
  intro hmem
  obtain ⟨p, hp, hwrite⟩ := List.mem_flatMap.mp hmem
  exact t.noReturn (List.mem_append_right _ (List.mem_flatMap.mpr ⟨p, h p hp, hwrite⟩))

theorem noReturn_heading : '\r' ∉ t.heading := fun h => t.noReturn (List.mem_append_left _ h)

theorem noReturn_front : '\r' ∉ t.front.flatMap Piece.write := by
  rw [front, List.flatMap_append, List.flatMap_singleton, List.mem_append, not_or]
  exact ⟨t.noReturn_flatMap fun p hp => by simp [hp], by decide⟩

theorem noReturn_middle : '\r' ∉ t.middle.flatMap Piece.write := by
  rw [middle, List.flatMap_append, List.flatMap_singleton, List.mem_append, not_or]
  refine ⟨t.noReturn_flatMap fun p hp => by simp [hp], ?_⟩
  simp [Piece.write, noReturn_heading]

theorem noReturn_rest : '\r' ∉ t.rest.flatMap Piece.write := by
  rw [rest, List.flatMap_cons, List.mem_append, not_or]
  refine ⟨?_, t.noReturn_flatMap fun p hp => by simp [hp]⟩
  simp [Piece.write, noReturn_heading]

/-- **The line ends** of the page are those of the title. -/
theorem normalize_write : normalize (t.write s) = t.write (normalize s) := by
  have htitle : '\r' ∉ (Piece.endTag titleName).write := by decide
  have hrest : normalize (s ++ t.rest.flatMap Piece.write) =
      normalize s ++ t.rest.flatMap Piece.write := by
    have hsplit : normalize (s ++ t.rest.flatMap Piece.write) =
        normalize s ++ normalize (t.rest.flatMap Piece.write) := normalize_append_lt
    rw [hsplit, normalize_of_not_mem noReturn_rest]
  have hmiddle : ∀ u, normalize (s ++ ((Piece.endTag titleName).write ++ u)) =
      normalize s ++ ((Piece.endTag titleName).write ++ normalize u) := by
    intro u
    have hsplit : normalize (s ++ ((Piece.endTag titleName).write ++ u)) =
        normalize s ++ normalize ((Piece.endTag titleName).write ++ u) := normalize_append_lt
    rw [hsplit, normalize_append_of_not_mem htitle]
  rw [write, normalize_append_of_not_mem noReturn_front, hmiddle,
    normalize_append_of_not_mem noReturn_middle, hrest]
  rfl

/-! ## When the page is read as it is written -/

/-- A page with an inert title. -/
theorem tokenize_write (h : Inert refs s) : tokenize refs (t.write s) = t.tokens s := by
  have htitle : ∀ u, scan refs (.rcdata titleName) (s ++ ((Piece.endTag titleName).write ++ u)) =
      s.map .char ++ scan refs (.rcdata titleName) ((Piece.endTag titleName).write ++ u) :=
    fun u => h.scan_rcdata titleName
  have hheading : scan refs .data (s ++ t.rest.flatMap Piece.write) =
      s.map .char ++ scan refs .data (t.rest.flatMap Piece.write) := h.scan_data
  rw [tokenize, normalize_write, normalize_of_not_mem h.1, write, scan_before, htitle,
    scan_title_end, scan_pieces plain_middle, hheading, scan_rest]
  rfl

/-- A page that is read as it was written. -/
theorem inert_of_tokenize (h : tokenize refs (t.write s) = t.tokens s) : Inert refs s := by
  have hshort : (normalize s).length ≤ s.length := length_normalize_le
  have hmiddle : weight (t.middle.flatMap Piece.tokens) = (t.middle.flatMap Piece.write).length :=
    weight_pieces bare_middle
  have hrest : weight (t.rest.flatMap Piece.tokens) = (t.rest.flatMap Piece.write).length :=
    weight_pieces bare_rest
  -- the title
  rw [tokenize, normalize_write, write, scan_before, tokens] at h
  obtain ⟨hmap, hheading, -⟩ := (readsText_rcdata refs titleName).of_scan
    (by
      rw [scan_title_end]
      rintro x ⟨⟩
      exact fun h => by cases h)
    (List.append_cancel_left h) hshort
    (by
      simp only [weight_cons, weight_append, weight_chars, List.length_append, hmiddle, hrest]
      simp only [Token.weight, Piece.write, List.length_append, List.length_cons, List.length_nil]
      omega)
  -- it has no character that is read as another one
  have hreturn : '\r' ∉ s := by
    rw [← hmap]
    intro hmem
    obtain ⟨c, hc, hclean⟩ := List.mem_map.mp hmem
    exact not_mem_normalize (eq_return_of_cleaned hclean ▸ hc)
  have hnull : '\x00' ∉ s := by
    rw [← hmap]
    intro hmem
    obtain ⟨c, -, hclean⟩ := List.mem_map.mp hmem
    exact cleaned_ne_null c hclean
  -- the heading
  rw [normalize_of_not_mem hreturn, scan_title_end, scan_pieces plain_middle] at hheading
  obtain ⟨-, -, hbegins⟩ := (readsText_data refs).of_scan
    (by
      rw [scan_rest]
      rintro x ⟨⟩
      exact fun h => by cases h)
    (List.append_cancel_left (List.cons.inj hheading).2) le_rfl
    (by rw [hrest])
  refine ⟨hreturn, hnull, fun u hu hbegin => ?_⟩
  have hne : u ≠ [] := by
    rintro rfl
    obtain ⟨h, -⟩ | ⟨h, -⟩ := hbegin <;> cases h
  refine hbegins u hne hu ⟨(begins_append_iff hne).mpr hbegin, fun heq => ?_⟩
  have hlength := congrArg List.length heq
  simp [rest, Piece.write] at hlength
  omega

/-- **The page is read as it is written** exactly if its title is inert. -/
theorem tokenize_write_iff : tokenize refs (t.write s) = t.tokens s ↔ Inert refs s :=
  ⟨inert_of_tokenize, tokenize_write⟩

end Template

end Html
