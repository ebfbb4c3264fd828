import Rooti.Lib.Html.Template
import Rooti.Services.WorkJournal

/-!
# The markup of a journal

A journal is a page with a title, the same title as heading, and a table of the
records.  The title has the name of the job standard in it, as it is.

## Main definitions

* `journalTitle` — the title of a journal
* `journalPage` — what is around the title
* `journalHtml_tokens_iff` — when the page is read as the template with the title
* `journalHtml_injected` — a name with a tag in it

## What carries the proof

The page is put together from pieces of `Lib.Html.Pieces`, and printing them gives what
the source prints character by character (`toList_journalHtml`). The cells of a row are
made of digits, signs and the names of types, so they are plain text whatever the record
is (`IsPlainText.ofRecord`). What is left is the title, which comes twice; when it is
read as text there is a question about the name alone (`inert_journalTitle`), answered
in `Lib.Html.Template` for any template.
-/

namespace Rooti

open Html

/-- The title `render` gives a journal. -/
def journalTitle (scheduleId : ℤ) (name : String) : String :=
  "근무일지 - schedule=" ++ toString scheduleId ++ " - " ++ name

section Passed

variable {V D : Type} {r r' : Renderers} {scheduleId : ℤ} {scope : CompanyScopeValue}

open WorkJournalRenderService in
/-- **What is passed to `html_to_pdf`**: the page of records with such a title, and nothing
else. -/
theorem render_pdf_congr
    (h : ∀ (name : String) (records : List WorkRecord),
      r.htmlToPdf (journalHtml (journalTitle scheduleId name) (records.map JournalRow.ofRecord)) =
        r'.htmlToPdf (journalHtml (journalTitle scheduleId name)
          (records.map JournalRow.ofRecord))) :
    (render r scheduleId .pdf scope : Async V D Bytes) = render r' scheduleId .pdf scope := by
  have hdocument : ∀ (name : String) (records : List WorkRecord),
      (document r .pdf (journalTitle scheduleId name) (records.map JournalRow.ofRecord) :
        Async V D Bytes) =
      document r' .pdf (journalTitle scheduleId name) (records.map JournalRow.ofRecord) := by
    intro name records
    simp only [document, renderPdf, h]
  unfold render
  refine congrArg (bind _) (funext fun found => ?_)
  refine congrArg (bind _) (funext fun schedule => ?_)
  refine congrArg (bind _) (funext fun _ => ?_)
  refine congrArg (bind _) (funext fun standard => ?_)
  refine congrArg (bind _) (funext fun records => ?_)
  exact hdocument _ records

end Passed

/-! ## Text without markup -/

/-- Text in which nothing can begin. -/
def IsPlainText (s : List Char) : Prop := ∀ c ∈ s, c ≠ '<' ∧ c ≠ '&' ∧ c ≠ '\r' ∧ c ≠ '\x00'

instance (s : List Char) : Decidable (IsPlainText s) := List.decidableBAll _ s

namespace IsPlainText

variable {s t : List Char}

/-- Two texts without markup. -/
theorem append (hs : IsPlainText s) (ht : IsPlainText t) : IsPlainText (s ++ t) := by
  intro c hc
  obtain hc | hc := List.mem_append.mp hc
  · exact hs c hc
  · exact ht c hc

/-- Digits are text. -/
theorem of_isDigit (h : ∀ c ∈ s, c.isDigit) : IsPlainText s := by
  intro c hc
  have hdigit := h c hc
  refine ⟨?_, ?_, ?_, ?_⟩ <;> rintro rfl <;> exact absurd hdigit (by decide)

/-- So is a natural number. -/
theorem repr (n : ℕ) : IsPlainText n.repr.toList := by
  rw [Nat.toList_repr]
  exact of_isDigit fun c hc => Nat.isDigit_of_mem_toDigits (by decide) (by decide) hc

/-- A number. -/
theorem int (n : ℤ) : IsPlainText (toString n).toList := by
  have hrepr : toString n = n.repr := rfl
  rw [hrepr, Int.repr_eq_if]
  split_ifs
  · exact repr _
  · rw [String.toList_append]
    exact append (by decide) (repr _)

/-- And one with leading zeros. -/
theorem padded (width : ℕ) (n : ℤ) : IsPlainText (padded width n).toList := by
  unfold Rooti.padded
  rw [String.toList_ofList]
  refine append (of_isDigit fun c hc => ?_) (int n)
  rw [List.eq_of_mem_replicate hc]
  rfl

/-- A date is text. -/
theorem date (d : Date) : IsPlainText d.isoformat.toList := by
  unfold Date.isoformat
  simp only [String.toList_append]
  exact ((((padded _ _).append (by decide)).append (padded _ _)).append (by decide)).append
    (padded _ _)

/-- **The text of an instant.** -/
theorem dateTime (t : DateTime) : IsPlainText t.isoformat.toList := by
  have hfrac : ∀ n : ℤ, IsPlainText (if n = 0 then "" else "." ++ Rooti.padded 6 n).toList := by
    intro n
    split_ifs
    · exact nofun
    · rw [String.toList_append]
      exact append (by decide) (padded _ _)
  unfold DateTime.isoformat
  simp only [String.toList_append]
  exact ((((((date _).append (by decide)).append (padded _ _)).append (by decide)).append
    (padded _ _)).append (by decide)).append (padded _ _) |>.append (hfrac _)

/-- The cells of a record. -/
theorem ofRecord (r : WorkRecord) :
    IsPlainText (JournalRow.ofRecord r).type.toList ∧
      IsPlainText (JournalRow.ofRecord r).startAt.toList ∧
      IsPlainText (JournalRow.ofRecord r).endAt.toList := by
  refine ⟨?_, dateTime r.startAt, ?_⟩
  · have htype : ∀ k : WorkRecordType, IsPlainText k.value.toList := by
      intro k
      cases k <;> decide
    exact htype r.type
  · unfold JournalRow.ofRecord
    dsimp only
    cases r.endAt with
    | none => exact nofun
    | some t => exact dateTime t

end IsPlainText

/-! ## The page -/

/-- A cell of the table. -/
def cell (text : String) : List Piece :=
  [.startTag "td".toList [], .text text.toList, .endTag "td".toList]

/-- **A row of the table**: three cells. -/
def JournalRow.pieces (r : JournalRow) : List Piece :=
  .startTag "tr".toList [] :: (cell r.type ++ cell r.startAt ++ cell r.endAt ++
    [.endTag "tr".toList])

/-- A piece that is read as it is written, wastes nothing and has no carriage return. -/
def Simple (p : Piece) : Prop := p.Plain ∧ p.Bare ∧ '\r' ∉ p.write

instance : DecidablePred Simple := fun _ => inferInstanceAs (Decidable (_ ∧ _))

/-- A text without markup is a simple piece. -/
theorem simple_text {text : String} (h : IsPlainText text.toList) : Simple (.text text.toList) :=
  ⟨fun c hc => ⟨(h c hc).1, (h c hc).2.1⟩, trivial, fun hr => (h _ hr).2.2.1 rfl⟩

/-- A cell is made of simple pieces. -/
theorem simple_cell {text : String} (h : IsPlainText text.toList) : ∀ p ∈ cell text, Simple p := by
  intro p hp
  simp only [cell, List.mem_cons, List.not_mem_nil, or_false] at hp
  obtain rfl | rfl | rfl := hp
  · decide
  · exact simple_text h
  · decide

/-- A row is made of simple pieces, whatever the record is. -/
theorem simple_row (r : WorkRecord) : ∀ p ∈ (JournalRow.ofRecord r).pieces, Simple p := by
  obtain ⟨htype, hstart, hend⟩ := IsPlainText.ofRecord r
  intro p hp
  simp only [JournalRow.pieces, List.mem_cons, List.mem_append, List.not_mem_nil, or_false] at hp
  obtain rfl | ((hp | hp) | hp) | rfl := hp
  · decide
  · exact simple_cell htype p hp
  · exact simple_cell hstart p hp
  · exact simple_cell hend p hp
  · decide

/-- Up to the title. -/
def pageBefore : List Piece :=
  [.text "\n        ".toList, .doctype " html".toList, .text "\n        ".toList,
    .startTag "html".toList [("lang".toList, "ko".toList)], .text "\n        ".toList,
    .startTag "head".toList [], .startTag "meta".toList [("charset".toList, "utf-8".toList)]]

/-- The style sheet. -/
def pageStyle : List Char :=
  ("body\x7bfont-family:sans-serif\x7dtable\x7bborder-collapse:collapse;width:100%\x7d" ++
    "\n        th,td\x7bborder:1px solid #999;padding:6px\x7d").toList

/-- Between the title and the heading. -/
def pageBetween : List Piece :=
  [.text "\n        ".toList, .rawElement "style".toList pageStyle, .endTag "head".toList,
    .text "\n        ".toList, .startTag "body".toList []]

/-- From the heading to the rows. -/
def tableHead : List Piece :=
  [.text "\n        ".toList, .startTag "table".toList [], .startTag "thead".toList [],
    .startTag "tr".toList [], .startTag "th".toList [], .text "type".toList,
    .endTag "th".toList, .startTag "th".toList [], .text "start".toList, .endTag "th".toList,
    .startTag "th".toList [], .text "end".toList, .endTag "th".toList, .endTag "tr".toList,
    .endTag "thead".toList, .text "\n        ".toList, .startTag "tbody".toList []]

/-- After the rows. -/
def pageEnd : List Piece :=
  [.endTag "tbody".toList, .endTag "table".toList, .endTag "body".toList, .endTag "html".toList,
    .text "\n        ".toList]

/-- The rows of the records. -/
def recordRows (records : List WorkRecord) : List Piece :=
  (records.map JournalRow.ofRecord).flatMap JournalRow.pieces

/-- So are all rows. -/
theorem simple_recordRows (records : List WorkRecord) : ∀ p ∈ recordRows records, Simple p := by
  intro p hp
  obtain ⟨row, hrow, hp⟩ := List.mem_flatMap.mp hp
  obtain ⟨r, -, rfl⟩ := List.mem_map.mp hrow
  exact simple_row r p hp

/-- What stands in front of the title. -/
theorem plain_before : ∀ p ∈ pageBefore, p.Plain ∧ '\r' ∉ p.write := by decide +kernel

/-- The fixed pieces behind the title are simple. -/
theorem simple_fixed : ∀ p ∈ pageBetween ++ tableHead ++ pageEnd, Simple p := by decide +kernel

/-- What stands between the title and the heading. -/
theorem simple_between : ∀ p ∈ pageBetween, Simple p := fun p hp =>
  simple_fixed p (List.mem_append_left _ (List.mem_append_left _ hp))

/-- What stands behind the heading. -/
theorem simple_after (records : List WorkRecord) :
    ∀ p ∈ tableHead ++ recordRows records ++ pageEnd, Simple p := by
  intro p hp
  obtain hp | hp := List.mem_append.mp hp
  · obtain hp | hp := List.mem_append.mp hp
    · exact simple_fixed p (List.mem_append_left _ (List.mem_append_right _ hp))
    · exact simple_recordRows records p hp
  · exact simple_fixed p (List.mem_append_right _ hp)

/-- **The template of a journal**: its elements, and one row of three cells for each record. -/
def journalPage (records : List WorkRecord) : Template where
  before := pageBefore
  between := pageBetween
  heading := "h1".toList
  after := tableHead ++ recordRows records ++ pageEnd
  isTagName_heading := by decide
  content_heading := by decide
  plain := by
    intro p hp
    obtain hp | hp := List.mem_append.mp hp
    · obtain hp | hp := List.mem_append.mp hp
      · exact (plain_before p hp).1
      · exact (simple_between p hp).1
    · exact (simple_after records p hp).1
  bare := by
    intro p hp
    obtain hp | hp := List.mem_append.mp hp
    · exact (simple_between p hp).2.1
    · exact (simple_after records p hp).2.1
  noReturn := by
    intro hmem
    obtain hmem | hmem := List.mem_append.mp hmem
    · revert hmem
      decide
    · obtain ⟨p, hp, hwrite⟩ := List.mem_flatMap.mp hmem
      obtain hp | hp := List.mem_append.mp hp
      · obtain hp | hp := List.mem_append.mp hp
        · exact (plain_before p hp).2 hwrite
        · exact (simple_between p hp).2.2 hwrite
      · exact (simple_after records p hp).2.2 hwrite

/-- What the fixed pieces print: before the title, up to the heading, the head of the table and
the end. -/
theorem write_fixed :
    ((pageBefore ++ [Piece.startTag titleName []]).flatMap Piece.write =
      "\n        <!doctype html>\n        <html lang=\"ko\">\n        ".toList ++
        "<head><meta charset=\"utf-8\"><title>".toList) ∧
    ((Piece.endTag titleName).write ++
        (pageBetween ++ [Piece.startTag "h1".toList []]).flatMap Piece.write =
      "</title>\n        ".toList ++
        "<style>body\x7bfont-family:sans-serif\x7dtable\x7bborder-collapse:collapse;width:100%\x7d".toList ++
        "\n        th,td\x7bborder:1px solid #999;padding:6px\x7d</style></head>\n        ".toList ++
        "<body><h1>".toList) ∧
    ((Piece.endTag "h1".toList).write ++ tableHead.flatMap Piece.write =
      "</h1>\n        ".toList ++
        "<table><thead><tr><th>type</th><th>start</th><th>end</th></tr></thead>\n        ".toList ++
        "<tbody>".toList) ∧
    pageEnd.flatMap Piece.write = "</tbody></table></body></html>\n        ".toList := by
  decide +kernel

/-- A row as `_render_pdf` prints it. -/
theorem toList_row (r : JournalRow) :
    ("<tr><td>" ++ r.type ++ "</td><td>" ++ r.startAt ++ "</td><td>" ++ r.endAt ++
      "</td></tr>").toList = r.pieces.flatMap Piece.write := by
  have hfirst : "<tr><td>".toList = (Piece.startTag "tr".toList []).write ++
      (Piece.startTag "td".toList []).write := by decide
  have hnext : "</td><td>".toList = (Piece.endTag "td".toList).write ++
      (Piece.startTag "td".toList []).write := by decide
  have hlast : "</td></tr>".toList = (Piece.endTag "td".toList).write ++
      (Piece.endTag "tr".toList).write := by decide
  have htext : ∀ s, (Piece.text s).write = s := fun _ => rfl
  simp only [String.toList_append, hfirst, hnext, hlast, JournalRow.pieces, cell, htext,
    List.flatMap_cons, List.flatMap_append, List.flatMap_nil, List.append_assoc, List.append_nil]

/-- **The page `_render_pdf` prints** is the template around the title. -/
theorem toList_journalHtml (title : String) (records : List WorkRecord) :
    (WorkJournalRenderService.journalHtml title (records.map JournalRow.ofRecord)).toList =
      (journalPage records).write title.toList := by
  have hrows : (String.join ((records.map JournalRow.ofRecord).map fun r =>
      "<tr><td>" ++ r.type ++ "</td><td>" ++ r.startAt ++ "</td><td>" ++ r.endAt ++
        "</td></tr>")).toList = (recordRows records).flatMap Piece.write := by
    rw [String.toList_join, List.flatMap_map, recordRows, List.flatMap_assoc]
    exact congrArg (fun f => List.flatMap f _) (funext toList_row)
  obtain ⟨hfront, hmiddle, htable, hend⟩ := write_fixed
  have hbefore : (journalPage records).front.flatMap Piece.write = _ := hfront
  have hbetween : (Piece.endTag titleName).write ++
      (journalPage records).middle.flatMap Piece.write = _ := hmiddle
  have hafter : (journalPage records).rest.flatMap Piece.write =
      (Piece.endTag "h1".toList).write ++ tableHead.flatMap Piece.write ++
        (recordRows records).flatMap Piece.write ++ pageEnd.flatMap Piece.write := by
    simp only [Template.rest, journalPage, List.flatMap_cons, List.flatMap_append,
      List.append_assoc]
  unfold WorkJournalRenderService.journalHtml
  dsimp only
  rw [Template.write, hbefore, hafter, htable, hend,
    ← List.append_assoc (Piece.write _), hbetween]
  simp only [String.toList_append, hrows, List.append_assoc]

/-! ## When the title is text -/

/-- What stands in front of the name cannot make it markup. -/
theorem inert_journalTitle {refs : References} (scheduleId : ℤ) (name : String) :
    Inert refs (journalTitle scheduleId name).toList ↔ Inert refs name.toList := by
  have hlabel : IsPlainText "근무일지 - schedule=".toList := by decide +kernel
  have hdash : IsPlainText " - ".toList := by decide
  unfold journalTitle
  generalize "근무일지 - schedule=" = label at hlabel ⊢
  generalize " - " = dash at hdash ⊢
  rw [String.toList_append, String.toList_append, String.toList_append]
  exact inert_append_iff ((hlabel.append (.int scheduleId)).append hdash)

/-- **The page of a journal** has exactly the tags of the template, one row of three cells for
each record, and the title as the text of `title` and `h1`, if and only if the name of the
standard is inert: it has no carriage return and no null character, no `<` in it opens markup
and no `&` begins a character reference. -/
theorem journalHtml_tokens_iff {refs : References} {scheduleId : ℤ} {name : String}
    {records : List WorkRecord} :
    tokenize refs (WorkJournalRenderService.journalHtml (journalTitle scheduleId name)
        (records.map JournalRow.ofRecord)).toList =
      (journalPage records).tokens (journalTitle scheduleId name).toList ↔
    Inert refs name.toList := by
  rw [toList_journalHtml, Template.tokenize_write_iff]
  exact inert_journalTitle scheduleId name

/-- **A name with an image in it**: the page refers to a file of the server. -/
theorem journalHtml_injected :
    .startTag "img".toList [("src".toList, "file:///etc/hosts".toList)] false ∈
        tokenize .basic (WorkJournalRenderService.journalHtml
          (journalTitle 7 "<img src='file:///etc/hosts'>") []).toList ∧
      tokenize .basic (WorkJournalRenderService.journalHtml
          (journalTitle 7 "<img src='file:///etc/hosts'>") []).toList ≠
        (journalPage []).tokens (journalTitle 7 "<img src='file:///etc/hosts'>").toList := by
  have hpage : ∀ title, (WorkJournalRenderService.journalHtml title []).toList =
      (journalPage []).write title.toList := fun title => toList_journalHtml title []
  rw [hpage]
  have himage : .startTag "img".toList [("src".toList, "file:///etc/hosts".toList)] false ∈
      tokenize .basic ((journalPage []).write
        (journalTitle 7 "<img src='file:///etc/hosts'>").toList) := by decide +kernel
  refine ⟨himage, fun h => ?_⟩
  rw [h] at himage
  revert himage
  decide +kernel

end Rooti
