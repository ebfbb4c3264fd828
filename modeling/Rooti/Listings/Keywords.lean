import Rooti.Lib.Like
import Rooti.Listings.Pages

/-!
# Keywords

Workers, companies, kiosks and accounts are searched for a keyword with `ILIKE`, between
two `%`.  The keyword is put into the pattern as it is.  Its `%`, `_` and `\` keep their
meaning there, so a keyword with one of them finds rows that do not contain it.

## Main definitions

* `Lowering.ilike` — PostgreSQL's `ILIKE` under a lower-casing of characters
* `Searched` — what is searched, by which columns
* `Searched.Literal` — a keyword is looked for as it is
* `keywords_literal_iff` — which keywords are

## What carries the proof

Without metacharacters the pattern is the keyword between two `%`, and what matches
contains it. With one of them there is always a text that matches and does not contain
the keyword, the shortest one (`not_contains_keywordText`), so the search is wrong as
soon as some row can have it. That is the only way out: a column that is too narrow for
any text that matches. Then nothing is found, and nothing contains the keyword either,
which is no shorter (`keywordRoom_le_strip`).

To have such a row for each of the searches, `exists_row` builds a database around a
text of the right length. The searches themselves are put in one form, `TextSearch`, so
that this argument is made once.
-/

namespace Rooti

open Relational Like

/-! ## `ILIKE` -/

/-- The metacharacters of `LIKE`. -/
def likeMetas : Metas Char where
  anyText := '%'
  anyChar := '_'
  escape := '\\'
  anyChar_ne := by decide
  escape_ne := by decide
  escape_ne_anyChar := by decide

/-- The lower-casing of a locale, which leaves the metacharacters alone. -/
structure Lowering where
  lower : Char → Char
  fixed : likeMetas.Fixed lower

/-- A locale without upper case. -/
def Lowering.plain : Lowering where
  lower := id
  fixed _ _ _ := Iff.rfl

/-- **`s ILIKE pattern`**: both sides are lowered, and the result is matched. -/
def Lowering.ilike (l : Lowering) (s pattern : String) : Bool :=
  like likeMetas (s.toList.map l.lower) (pattern.toList.map l.lower)

/-- `s` contains `k`, whatever the case of the letters. -/
def Lowering.Contains (l : Lowering) (k s : String) : Prop :=
  k.toList.map l.lower <:+: s.toList.map l.lower

/-- One of the columns contains the keyword, stripped. -/
def Lowering.Finds (l : Lowering) (keyword : String) (columns : List (Option String)) : Prop :=
  ∃ s, some s ∈ columns ∧ l.Contains (Py.strip keyword) s

/-- The tokens of the pattern that a keyword is put into. -/
def keywordTokens (keyword : String) : List (Token Char) :=
  (tokens likeMetas (keywordPattern keyword).toList).getD []

/-- How many characters a text has at least that the search for the keyword finds. -/
def keywordRoom (keyword : String) : ℕ := room (keywordTokens keyword)

/-- The shortest text that the search for the keyword finds. -/
def keywordText (keyword : String) : String := String.ofList (shortest 'a' (keywordTokens keyword))

section Pattern

variable {l : Lowering} {k s : String}

/-- The keyword, stripped, between two percent signs. -/
theorem toList_keywordPattern :
    (keywordPattern k).toList = '%' :: ((Py.strip k).toList ++ ['%']) := by
  rw [keywordPattern, String.toList_append, String.toList_append]
  rfl

/-- The pattern has tokens: it cannot end in the middle of an escape, as a percent sign
ends it. -/
theorem keywordTokens_spec :
    ∃ p, tokens likeMetas (keywordPattern k).toList = some (.anyText :: p) ∧
      keywordTokens k = .anyText :: p ∧ Found likeMetas 'a' (Py.strip k).toList p := by
  obtain ⟨⟨p, hp, hfound⟩, -⟩ :=
    exists_tokens (m := likeMetas) (a := 'a') (by decide) (Py.strip k).toList
  have htokens : tokens likeMetas (keywordPattern k).toList = some (.anyText :: p) := by
    rw [toList_keywordPattern]
    refine (tokens_anyText (m := likeMetas)).trans ?_
    rw [show ['%'] = [likeMetas.anyText] from rfl, hp]
    rfl
  exact ⟨p, htokens, by rw [keywordTokens, htokens]; rfl, hfound⟩

/-- The pattern, matched. -/
theorem ilike_keywordPattern :
    l.ilike s (keywordPattern k) = matchesTokens ((keywordTokens k).map (Token.map l.lower))
      (s.toList.map l.lower) := by
  obtain ⟨p, hp, hk, -⟩ := keywordTokens_spec (k := k)
  rw [Lowering.ilike, like, tokens, tokensAfter_map l.fixed]
  rw [tokens] at hp
  rw [hp, hk]
  rfl

/-- What is found has room. -/
theorem keywordRoom_le (h : l.ilike s (keywordPattern k)) : keywordRoom k ≤ s.toList.length := by
  rw [ilike_keywordPattern] at h
  have hroom := room_le h
  rwa [room_map, List.length_map] at hroom

/-- What is found may be shorter than the keyword, but need not be longer. -/
theorem keywordRoom_le_strip : keywordRoom k ≤ (Py.strip k).toList.length := by
  obtain ⟨p, -, hk, hfound⟩ := keywordTokens_spec (k := k)
  rw [keywordRoom, hk]
  exact hfound.room_le

/-- A text is no shorter than what it contains. -/
theorem Lowering.Contains.length_le (h : l.Contains k s) : k.toList.length ≤ s.toList.length := by
  have hlength := List.IsInfix.length_le h
  rwa [List.length_map, List.length_map] at hlength

/-- **A keyword without metacharacters is looked for as it is.** -/
theorem ilike_iff_contains (hk : ∀ c ∈ (Py.strip k).toList, ¬likeMetas.Mem c) :
    l.ilike s (keywordPattern k) ↔ l.Contains (Py.strip k) s := by
  rw [Lowering.ilike, toList_keywordPattern, List.map_cons, List.map_append]
  have hpercent : l.lower '%' = likeMetas.anyText := (l.fixed '%' (.inl rfl) '%').mpr rfl
  rw [List.map_cons, List.map_nil, hpercent]
  refine like_containing_iff fun c hc => ?_
  obtain ⟨d, hd, rfl⟩ := List.mem_map.mp hc
  rw [l.fixed.mem_iff]
  exact hk d hd

/-- The shortest text is found. -/
theorem ilike_keywordText : l.ilike (keywordText k) (keywordPattern k) := by
  rw [ilike_keywordPattern, keywordText, String.toList_ofList, ← shortest_map]
  exact matchesTokens_shortest _

/-- The shortest text needs no more room than that. -/
theorem length_keywordText : (keywordText k).toList.length = keywordRoom k := by
  rw [keywordText, String.toList_ofList, length_shortest]
  rfl

variable (l k) in
/-- The tokens of the lowered pattern. -/
theorem found_lower : ∃ p, keywordTokens k = .anyText :: p ∧
    Found likeMetas (l.lower 'a') ((Py.strip k).toList.map l.lower)
      (p.map (Token.map l.lower)) := by
  obtain ⟨p, htokens, hk, -⟩ := keywordTokens_spec (k := k)
  have ha : l.lower 'a' ≠ likeMetas.anyChar := fun h =>
    absurd ((l.fixed '_' (.inr (.inl rfl)) 'a').mp h) (by decide)
  obtain ⟨⟨p', hp', hfound⟩, -⟩ := exists_tokens ha ((Py.strip k).toList.map l.lower)
  have hpercent : l.lower '%' = likeMetas.anyText := (l.fixed '%' (.inl rfl) '%').mpr rfl
  have hpattern : (keywordPattern k).toList.map l.lower =
      likeMetas.anyText :: ((Py.strip k).toList.map l.lower ++ [likeMetas.anyText]) := by
    rw [toList_keywordPattern, List.map_cons, List.map_append, List.map_cons, List.map_nil,
      hpercent]
  have hlowered : tokens likeMetas ((keywordPattern k).toList.map l.lower) =
      some ((.anyText :: p).map (Token.map l.lower)) := by
    rw [tokens] at htokens ⊢
    rw [tokensAfter_map l.fixed, htokens]
    rfl
  rw [hpattern, tokens_anyText, hp'] at hlowered
  obtain rfl := (List.cons.inj (Option.some.inj hlowered)).2
  exact ⟨p, hk, hfound⟩

/-- **A keyword with metacharacters is not looked for as it is**: the shortest text that is
found does not contain it. -/
theorem not_contains_keywordText (hk : ∃ c ∈ (Py.strip k).toList, likeMetas.Mem c) :
    ¬l.Contains (Py.strip k) (keywordText k) := by
  obtain ⟨p, hp, hfound⟩ := found_lower l k
  obtain ⟨c, hc, hmem⟩ := hk
  rw [Lowering.Contains, keywordText, String.toList_ofList, hp, ← shortest_map]
  exact hfound.not_infix ⟨l.lower c, List.mem_map_of_mem hc, (l.fixed.mem_iff c).mpr hmem⟩

/-- The shortest text can be stored if the keyword can. -/
theorem text_keywordText (hk : text (Py.strip k)) : text (keywordText k) := by
  obtain ⟨p, -, hp, hfound⟩ := keywordTokens_spec (k := k)
  rw [text, List.all_eq_true] at hk ⊢
  rw [keywordText, String.toList_ofList, hp]
  intro c hc
  obtain rfl | rfl | hc := hfound.mem c hc
  · decide
  · decide
  · exact hk c hc

end Pattern

/-! ## What is searched -/

/-- The searches. -/
inductive Searched
  | workers | companies | kiosks | users

/-- **What a search looks at**: the rows, its other filters, and the columns searched, of
which the widest has so many characters. -/
structure TextSearch where
  Item : Type
  Filter : Type
  rows : Db → List Item
  ok : Filter → Item → Bool
  columns : Item → List (Option String)
  width : ℕ

namespace Searched

/-- The rows and columns of a search. -/
def search : Searched → TextSearch
  | workers => {
      Item := ChallengedWorker × User
      Filter := Option String
      rows := fun db => (db.rows .challengedWorker).filterMap (WorkerService.withUser db)
      ok := fun employmentStatus row => WorkerService.employmentMatches employmentStatus row.1
      columns := fun row => [some row.2.username, some row.2.name, row.2.email]
      width := 255 }
  | companies => {
      Item := Company
      Filter := Unit
      rows := fun db => db.rows .company
      ok := fun _ company => company.useFlag
      columns := fun company => [some company.name, company.location]
      width := 500 }
  | kiosks => {
      Item := CompanyKiosk × String
      Filter := Option ℤ × Option String
      rows := fun db => (db.rows .companyKiosk).filterMap (KioskService.withCompany db)
      ok := fun filter row =>
        filter.1.all (row.1.companyId = ·) && KioskService.statusMatches filter.2 row.1
      columns := fun row => [row.1.name, some row.1.kioskId, some row.2]
      width := 200 }
  | users => {
      Item := User
      Filter := Option UserRole
      rows := fun db => db.rows .user
      ok := fun role user => role.all (user.role = ·)
      columns := fun user => [some user.name, some user.username, user.email]
      width := 255 }

/-- What the services find. -/
def found (ilike : String → String → Bool) (keyword : String) :
    (kind : Searched) → kind.search.Filter → Db → List kind.search.Item
  | workers => fun employmentStatus =>
      WorkerService.searchRows ilike (some keyword) employmentStatus
  | companies => fun _ => CompanyService.searchRows ilike (some keyword)
  | kiosks => fun filter => KioskService.searchRows ilike (some keyword) filter.1 filter.2
  | users => fun role => UserService.searchRows ilike (some keyword) role

/-- **A keyword is looked for as it is**: the database takes the pattern, and finds the rows
with a column that contains the keyword. -/
def Literal (l : Lowering) (keyword : String) (kind : Searched) : Prop :=
  (keywordBinds (some keyword)).all Bind.fits ∧
    ∀ (filter : kind.search.Filter) (db : Db) (row : kind.search.Item),
      row ∈ kind.found l.ilike keyword filter db ↔
        row ∈ kind.search.rows db ∧ kind.search.ok filter row ∧
          l.Finds keyword (kind.search.columns row)

section Rows

variable {l : Lowering} {k : String} {kind : Searched}

/-- What the services find, in one form. -/
theorem mem_found {ilike : String → String → Bool} {filter : kind.search.Filter} {db : Db}
    {row : kind.search.Item} : row ∈ kind.found ilike k filter db ↔
      row ∈ kind.search.rows db ∧ kind.search.ok filter row ∧
        keywordMatches ilike (some k) (kind.search.columns row) := by
  cases kind with
  | workers =>
      refine List.mem_filter.trans (and_congr_right fun _ => ?_)
      rw [Bool.and_eq_true, and_comm]
      rfl
  | companies | kiosks | users =>
      refine List.mem_filter.trans (and_congr_right fun _ => ?_)
      rw [Bool.and_eq_true]
      rfl

/-- A column holds no longer texts. -/
theorem length_of_varchar {n : ℕ} {s : String} (h : varchar n s) : s.toList.length ≤ n := by
  rw [varchar, Bool.and_eq_true, decide_eq_true_eq] at h
  rw [String.length_toList]
  exact h.2

/-- A user's columns. -/
theorem length_le_of_user {db : Db} {user : User} (h : user ∈ db.rows .user) {s : String}
    (hs : s = user.username ∨ s = user.name ∨ some s = user.email) : s.toList.length ≤ 255 := by
  have hcheck := Table.check_of_mem h
  simp only [schema, shape, Bool.and_eq_true, and_assoc] at hcheck
  obtain ⟨-, husername, hemail, -, hname, -⟩ := hcheck
  obtain rfl | rfl | hs := hs
  · exact (length_of_varchar husername).trans (by decide)
  · exact (length_of_varchar hname).trans (by decide)
  · rw [← hs, Option.all_some] at hemail
    exact length_of_varchar hemail

/-- A company's columns. -/
theorem length_le_of_company {db : Db} {company : Company} (h : company ∈ db.rows .company) :
    company.name.toList.length ≤ 200 ∧ ∀ s ∈ company.location, s.toList.length ≤ 500 := by
  have hcheck := Table.check_of_mem h
  simp only [schema, shape, Bool.and_eq_true, and_assoc] at hcheck
  obtain ⟨-, hname, hlocation, -⟩ := hcheck
  refine ⟨length_of_varchar hname, fun s hs => ?_⟩
  rw [Option.mem_def.mp hs, Option.all_some] at hlocation
  exact length_of_varchar hlocation

/-- **The columns hold no longer texts.** -/
theorem length_le_width {db : Db} {row : kind.search.Item} (hrow : row ∈ kind.search.rows db)
    {s : String} (hs : some s ∈ kind.search.columns row) :
    s.toList.length ≤ kind.search.width := by
  cases kind with
  | workers =>
      obtain ⟨worker, -, hjoined⟩ := List.mem_filterMap.mp hrow
      obtain ⟨user, huser, rfl⟩ := Option.map_eq_some_iff.mp hjoined
      refine length_le_of_user (Table.find?_mem huser) ?_
      simpa [search] using hs
  | companies =>
      obtain ⟨hname, hlocation⟩ := length_le_of_company hrow
      have hcolumns : s = row.name ∨ some s = row.location := by simpa [search] using hs
      obtain rfl | hs := hcolumns
      · exact hname.trans (by decide)
      · exact hlocation s (Option.mem_def.mpr hs.symm)
  | kiosks =>
      obtain ⟨kiosk, hkiosk, hjoined⟩ := List.mem_filterMap.mp hrow
      obtain ⟨company, hcompany, rfl⟩ := Option.map_eq_some_iff.mp hjoined
      have hcheck := Table.check_of_mem hkiosk
      simp only [schema, shape, Bool.and_eq_true, and_assoc] at hcheck
      obtain ⟨-, -, hkioskId, hkioskName, -⟩ := hcheck
      have hcolumns : some s = kiosk.name ∨ s = kiosk.kioskId ∨ s = company.name := by
        simpa [search] using hs
      obtain hs | rfl | rfl := hcolumns
      · rw [← hs, Option.all_some] at hkioskName
        exact length_of_varchar hkioskName
      · exact (length_of_varchar hkioskId).trans (by decide)
      · exact (length_le_of_company (Table.find?_mem hcompany)).1
  | users =>
      refine length_le_of_user hrow ?_
      have hcolumns : s = row.name ∨ s = row.username ∨ some s = row.email := by
        simpa [search] using hs
      tauto

/-- A text that fits can be stored. -/
theorem varchar_of_length {n : ℕ} {s : String} (htext : text s) (h : s.toList.length ≤ n) :
    varchar n s := by
  rw [varchar, htext, Bool.true_and, decide_eq_true_eq, ← String.length_toList]
  exact h

/-- An account with an address, and no name. -/
def userWith (s : String) : User := ⟨1, "", some s, "", "", none, .worker, true, none⟩

/-- A database with this account. -/
def ofUser (s : String) (h : varchar 255 s) : Db :=
  (Database.empty schema).set .user
    { rows := [userWith s]
      valid := by
        refine ⟨List.pairwise_singleton _ _, List.forall_mem_singleton.mpr ?_⟩
        show (bigint 1 && varchar 150 "" && varchar 255 s && varchar 255 "" && varchar 100 "" &&
          true && true) = true
        rw [h]
        decide }

/-- With a worker of the account. -/
def ofWorker (s : String) (h : varchar 255 s) : Db :=
  (ofUser s h).set .challengedWorker
    { rows := [⟨1, 1, none, none⟩]
      valid := ⟨List.pairwise_singleton _ _, by decide⟩ }

/-- A company with a location, and no name. -/
def companyAt (location : Option String) : Company :=
  ⟨1, "", location, true, none, none, none, none, none⟩

/-- A database with this company. -/
def ofCompany (location : Option String) (h : location.all (varchar 500)) : Db :=
  (Database.empty schema).set .company
    { rows := [companyAt location]
      valid := by
        refine ⟨List.pairwise_singleton _ _, List.forall_mem_singleton.mpr ?_⟩
        show (bigint 1 && varchar 200 "" && location.all (varchar 500) && true && true && true &&
          true && true) = true
        rw [h]
        decide }

/-- A kiosk of company 1 with a name. -/
def kioskNamed (s : String) : CompanyKiosk :=
  ⟨1, 1, "", some s, none, 0, 0, .inUse, none, none⟩

/-- A company with a kiosk. -/
def ofKiosk (s : String) (h : varchar 200 s) : Db :=
  (ofCompany none rfl).set .companyKiosk
    { rows := [kioskNamed s]
      valid := by
        refine ⟨List.pairwise_singleton _ _, List.forall_mem_singleton.mpr ?_⟩
        show (bigint 1 && bigint 1 && varchar 100 "" && varchar 200 s && true && integer 0 &&
          integer 0 && true && true) = true
        rw [h]
        decide }

variable (kind) in
/-- **A column may hold any text of its width**, and the others nothing. -/
theorem exists_row {s : String} (htext : text s) (hs : s.toList.length ≤ kind.search.width) :
    ∃ db filter, ∃ row ∈ kind.search.rows db, kind.search.ok filter row ∧
      some s ∈ kind.search.columns row ∧
      ∀ s', some s' ∈ kind.search.columns row → s' = s ∨ s' = "" := by
  have hfits := varchar_of_length htext hs
  cases kind with
  | workers =>
      refine ⟨ofWorker s hfits, none, (⟨1, 1, none, none⟩, userWith s), ?_, rfl, ?_, ?_⟩
      · refine List.mem_filterMap.mpr ⟨⟨1, 1, none, none⟩, ?_, ?_⟩
        · simp [ofWorker, Database.rows]
        · rfl
      · simp [search, userWith]
      · intro s' hs'
        simp [search, userWith] at hs'
        tauto
  | companies =>
      refine ⟨ofCompany (some s) hfits, (), companyAt (some s), ?_, rfl, ?_, ?_⟩
      · show companyAt (some s) ∈ (ofCompany (some s) hfits).rows .company
        simp [ofCompany, Database.rows]
      · simp [search, companyAt]
      · intro s' hs'
        simp [search, companyAt] at hs'
        tauto
  | kiosks =>
      refine ⟨ofKiosk s hfits, (none, none), (kioskNamed s, ""), ?_, rfl, ?_, ?_⟩
      · refine List.mem_filterMap.mpr ⟨kioskNamed s, ?_, ?_⟩
        · simp [ofKiosk, Database.rows]
        · rfl
      · simp [search, kioskNamed]
      · intro s' hs'
        simp [search, kioskNamed] at hs'
        tauto
  | users =>
      refine ⟨ofUser s hfits, none, userWith s, ?_, rfl, ?_, ?_⟩
      · show userWith s ∈ (ofUser s hfits).rows .user
        simp [ofUser, Database.rows]
      · simp [search, userWith]
      · intro s' hs'
        simp [search, userWith] at hs'
        tauto

end Rows

end Searched

/-! ## Which keywords are looked for as they are -/

section Literal

variable {l : Lowering} {k : String}

/-- A keyword that is not blank is searched for. -/
theorem keywordMatches_iff {ilike : String → String → Bool} {columns : List (Option String)}
    (hk : Py.strip k ≠ "") : keywordMatches ilike (some k) columns ↔
      ∃ s, some s ∈ columns ∧ ilike s (keywordPattern k) := by
  have htruthy : Py.truthy (some k) := by
    have hne : k ≠ "" := by
      rintro rfl
      exact hk (by decide)
    simpa [Py.truthy] using hne
  rw [keywordMatches, if_pos htruthy]
  simp only [Option.any_some, List.any_eq_true, Option.any_eq_true]
  constructor
  · rintro ⟨_, hmem, s, rfl, hs⟩
    exact ⟨s, hmem, hs⟩
  · rintro ⟨s, hmem, hs⟩
    exact ⟨some s, hmem, s, rfl, hs⟩

/-- The driver takes the pattern of a keyword that can be stored. -/
theorem fits_keywordBinds (hk : Py.strip k ≠ "") :
    (keywordBinds (some k)).all Bind.fits ↔ text (Py.strip k) := by
  have htruthy : Py.truthy (some k) := by
    have hne : k ≠ "" := by
      rintro rfl
      exact hk (by decide)
    simpa [Py.truthy] using hne
  rw [keywordBinds, if_pos htruthy]
  show (text (keywordPattern k) && true) = true ↔ _
  rw [Bool.and_true, text, toList_keywordPattern, List.all_cons, List.all_append, text]
  simp

end Literal

/-- **Which keywords are looked for as they are**: those that the database can store, if
they have no metacharacter, or if no column is wide enough for what their pattern finds. -/
theorem keywords_literal_iff (l : Lowering) (k : String) (hk : Py.strip k ≠ "")
    (kind : Searched) :
    kind.Literal l k ↔ text (Py.strip k) ∧
      ((∀ c ∈ (Py.strip k).toList, ¬likeMetas.Mem c) ∨ kind.search.width < keywordRoom k) := by
  rw [Searched.Literal, fits_keywordBinds hk]
  refine and_congr_right fun htext => ?_
  constructor
  · intro h
    by_contra hnot
    push Not at hnot
    obtain ⟨hmeta, hwidth⟩ := hnot
    obtain ⟨db, filter, row, hrow, hok, hcolumn, hothers⟩ := Searched.exists_row kind
      (text_keywordText htext) (length_keywordText.trans_le hwidth)
    have hfound := (h filter db row).mp (Searched.mem_found.mpr ⟨hrow, hok,
      (keywordMatches_iff hk).mpr ⟨_, hcolumn, ilike_keywordText⟩⟩)
    obtain ⟨-, -, s, hs, hcontains⟩ := hfound
    obtain rfl | rfl := hothers s hs
    · exact not_contains_keywordText hmeta hcontains
    · -- no keyword is in an empty column
      have hlength := hcontains.length_le
      exact hk (String.toList_eq_nil_iff.mp (List.eq_nil_of_length_eq_zero (by simpa using hlength)))
  · intro h filter db row
    rw [Searched.mem_found, keywordMatches_iff hk]
    refine and_congr_right fun hrow => and_congr_right fun _ => ?_
    refine exists_congr fun s => and_congr_right fun hs => ?_
    obtain hplain | hwidth := h
    · exact ilike_iff_contains hplain
    · -- neither fits into the column
      have hlength := Searched.length_le_width hrow hs
      refine iff_of_false (fun hfound => ?_) fun hcontains => ?_
      · exact absurd ((keywordRoom_le hfound).trans hlength) (not_le.mpr hwidth)
      · exact absurd ((keywordRoom_le_strip.trans hcontains.length_le).trans hlength)
          (not_le.mpr hwidth)

/-- A word of letters. -/
theorem keywords_literal_kim : Searched.workers.Literal .plain "kim" := by
  have hletters : (Py.strip "kim").toList.all fun c => decide (¬likeMetas.Mem c) := by decide
  exact (keywords_literal_iff .plain "kim" (by decide) .workers).mpr
    ⟨by decide, .inl fun c hc => of_decide_eq_true (List.all_eq_true.mp hletters c hc)⟩

/-- **The keyword `_` finds an account that does not contain it.** -/
theorem keyword_underscore : ¬Searched.users.Literal .plain "_" := by
  intro h
  have hfound := (h.2 none Db.branches
    ⟨1, "kim", some "kim@rooti", "", "Kim", none, .worker, true, none⟩).mp (by
      show _ ∈ UserService.searchRows Lowering.plain.ilike (some "_") none _
      decide +kernel)
  obtain ⟨-, -, s, hs, hcontains⟩ := hfound
  have hcolumns : s = "kim" ∨ s = "kim@rooti" ∨ s = "Kim" := by
    simp [Searched.search] at hs
    tauto
  obtain rfl | rfl | rfl := hcolumns <;>
    exact absurd hcontains (by unfold Lowering.Contains; decide +kernel)

end Rooti
