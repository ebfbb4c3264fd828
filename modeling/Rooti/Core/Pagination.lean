import Rooti.Core.Database

/-!
# Pages

A listing counts the rows that match, and fetches those of one page in its order.

## Main definitions

* `PageParams` — the page asked for
* `Page.build` — the page that is answered
* `listPage` — how the services list
-/

namespace Rooti

open Program

variable {V D α β γ : Type}

/-- `PageParams`: pages are numbered from 0 and have 1 to 100 rows. -/
structure PageParams where
  page : ℕ := 0
  size : ℕ := 20
  size_pos : 1 ≤ size := by decide
  size_le : size ≤ 100 := by decide

namespace PageParams

/-- `offset`. -/
def offset (params : PageParams) : ℕ := params.page * params.size

/-- `limit`. -/
def limit (params : PageParams) : ℕ := params.size

end PageParams

/-- `Page`. -/
structure Page (α : Type) where
  content : List α
  page : ℕ
  size : ℕ
  totalElements : ℕ
  totalPages : ℕ
  hasNext : Bool
  hasPrevious : Bool

/-- The number of pages of `total` rows; there is always a first one. -/
def pageCount (total size : ℕ) : ℕ := max 1 ((total + size - 1) / size)

theorem pageCount_pos (total size : ℕ) : 0 < pageCount total size :=
  Nat.lt_of_lt_of_le Nat.one_pos (Nat.le_max_left _ _)

/-- More rows need no fewer pages. -/
theorem pageCount_mono {total total' : ℕ} (h : total ≤ total') (size : ℕ) :
    pageCount total size ≤ pageCount total' size :=
  Nat.max_le.mpr ⟨Nat.le_max_left _ _,
    Nat.le_trans (Nat.div_le_div_right (by omega)) (Nat.le_max_right _ _)⟩

/-- The pages have room for all rows. -/
theorem le_pageCount_mul (total : ℕ) {size : ℕ} (hsize : 0 < size) :
    total ≤ pageCount total size * size := by
  have hdiv := Nat.div_add_mod (total + size - 1) size
  have hmod := Nat.mod_lt (total + size - 1) hsize
  have hle : (total + size - 1) / size * size ≤ pageCount total size * size :=
    Nat.mul_le_mul_right _ (Nat.le_max_right _ _)
  rw [Nat.mul_comm] at hdiv
  omega

/-- There is a page after `page` if not all rows come before it. -/
theorem lt_pageCount_iff {total size page : ℕ} (hsize : 0 < size) :
    page + 1 < pageCount total size ↔ (page + 1) * size < total := by
  have hroom : page + 1 < (total + size - 1) / size ↔ (page + 2) * size ≤ total + size - 1 :=
    Nat.le_div_iff_mul_le hsize
  have hnext : (page + 2) * size = (page + 1) * size + size := Nat.succ_mul (page + 1) size
  rw [pageCount]
  omega

/-- `Page.build`. -/
def Page.build (content : List α) (params : PageParams) (total : ℕ) : Page α where
  content := content
  page := params.page
  size := params.size
  totalElements := total
  totalPages := pageCount total params.size
  hasNext := params.page + 1 < pageCount total params.size
  hasPrevious := 0 < params.page

/-- The rows of a page. -/
def PageParams.slice (params : PageParams) (rows : List α) : List α :=
  (rows.drop params.offset).take params.limit

/-- **How the services list**: the matching rows are counted, then those of the page are
fetched in the listing's order. -/
def listPage (binds : List Bind) (matching : Db → List α) (order : RowOrder → List α → List α)
    (respond : α → Except Err β) (params : PageParams) : Async V D (Page β) := do
  let total ← select binds fun _ db => (matching db).length
  let rows ← select (binds ++ [.int params.limit, .int params.offset]) fun o db =>
    params.slice (order o (matching db))
  let content ← Prog.ofExcept (rows.mapM respond)
  return Page.build content params total

/-! ## Responses, one after another -/

/-- **All rows are shown, or none.** -/
theorem mapM_eq_ok_iff {f : α → Except Err β} {l : List α} {bs : List β} :
    l.mapM f = .ok bs ↔
      (∀ a ∈ l, ∃ b, f a = .ok b) ∧ bs = l.filterMap fun a => (f a).toOption := by
  induction l generalizing bs with
  | nil =>
      rw [List.mapM_nil]
      constructor
      · intro h
        exact ⟨fun a ha => absurd ha List.not_mem_nil, (Except.ok.inj h).symm⟩
      · rintro ⟨-, rfl⟩
        rfl
  | cons a rest ih =>
      rw [List.mapM_cons]
      cases ha : f a with
      | error e =>
          refine iff_of_false (fun h => by cases h) fun h => ?_
          obtain ⟨b, hb⟩ := h.1 a List.mem_cons_self
          cases ha.symm.trans hb
      | ok b =>
          have hfirst : (f a).toOption = some b := congrArg Except.toOption ha
          rw [List.filterMap_cons_some (f := fun a => (f a).toOption) hfirst,
            List.forall_mem_cons]
          cases hrest : rest.mapM f with
          | error e =>
              refine iff_of_false (fun h => by cases h) fun h => ?_
              cases hrest.symm.trans (ih.mpr ⟨h.1.2, rfl⟩)
          | ok others =>
              obtain ⟨hothers, rfl⟩ := ih.mp hrest
              constructor
              · intro h
                exact ⟨⟨⟨b, ha⟩, hothers⟩, (Except.ok.inj h).symm⟩
              · rintro ⟨-, rfl⟩
                rfl

/-- What the responses show of their rows. -/
theorem map_of_mapM {f : α → Except Err β} {g : β → γ} {g' : α → γ}
    (hg : ∀ a b, f a = .ok b → g b = g' a) {l : List α} {bs : List β}
    (h : l.mapM f = .ok bs) : bs.map g = l.map g' := by
  obtain ⟨hall, rfl⟩ := mapM_eq_ok_iff.mp h
  clear h
  induction l with
  | nil => rfl
  | cons a rest ih =>
      obtain ⟨⟨b, hb⟩, hrest⟩ := List.forall_mem_cons.mp hall
      have hfirst : (f a).toOption = some b := congrArg Except.toOption hb
      rw [List.filterMap_cons_some (f := fun a => (f a).toOption) hfirst, List.map_cons,
        List.map_cons, ih hrest, hg a b hb]

/-! ## Keywords -/

/-- `f"%{keyword.strip()}%"`. -/
def keywordPattern (keyword : String) : String := "%" ++ Py.strip keyword ++ "%"

/-- The parameters of a search for a keyword. -/
def keywordBinds (keyword : Option String) : List Bind :=
  if Py.truthy keyword then keyword.toList.map fun k => .text (keywordPattern k) else []

/-- One of the columns contains the keyword, by PostgreSQL's `ILIKE`; without a keyword
every row matches. -/
def keywordMatches (ilike : String → String → Bool) (keyword : Option String)
    (columns : List (Option String)) : Bool :=
  if Py.truthy keyword then
    keyword.any fun k => columns.any fun column => column.any (ilike · (keywordPattern k))
  else true

end Rooti
