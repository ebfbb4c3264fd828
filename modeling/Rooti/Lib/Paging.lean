import Mathlib.Data.List.Nodup
import Mathlib.Data.List.Perm.Basic

/-!
# Pages of a sorted listing

A listing is sorted anew for every page, and rows that the order does not tell apart may
come in another order each time.  If no page ends between two such rows, the pages show
every row once, however they were sorted.  If one does, these two rows can change places
between two pages, and then one of them is shown twice.

## Main definitions

* `Sorts` — an answer that the order allows
* `pages` — the first pages, each cut from a sorting of its own
* `Follows` — the pages that are visited one after another
* `SplitsTie` — a page ends between two rows that are tied
* `pages_perm` — without a tie that is split, the pages show every row once
* `exists_repeated` — with one, they may show a row twice

## What carries the proof

For a row `r`, the rows before it in the order and those up to it are sets that do not
depend on the sorting, and in each sorting they come first (`filter_eq_take`). If no
page ends strictly between the two numbers for any row, then each boundary is the end of
such a set, so the rows before it are the same in all sortings (`take_perm_take`), and
pages cut from different sortings fit together.

If a page does end there, the rows on both sides of the boundary are tied in whatever
sorting (`exists_tied`). They are swapped between the two pages, and the one that is
pushed over the boundary is shown again.
-/

namespace Paging

open scoped List

variable {α : Type*} {le : α → α → Bool} {rows l l' : List α} {size n : ℕ}

/-- **A sorting** of the rows. -/
def Sorts (le : α → α → Bool) (rows l : List α) : Prop :=
  l.Perm rows ∧ l.Pairwise fun a b => le a b

/-- The page `i` of a listing. -/
def page (size i : ℕ) (l : List α) : List α := (l.drop (i * size)).take size

/-- The first `n` pages, each cut from a sorting of its own. -/
def pages (size : ℕ) (sorting : ℕ → List α) (n : ℕ) : List α :=
  (List.range n).flatMap fun i => page size i (sorting i)

/-- **A page ends between two tied rows**: fewer rows than it ends at come before `r`, and
more of them do not come after `r`. -/
def SplitsTie (le : α → α → Bool) (size : ℕ) (rows : List α) : Prop :=
  ∃ i, ∃ r ∈ rows, rows.countP (fun x => !le r x) < i * size ∧
    i * size < rows.countP fun x => le x r

/-! ## Turning the pages -/

/-- **The pages that are visited** from `i` on by turning to the next page while there is
one. -/
inductive Follows (hasNext : ℕ → Bool) : ℕ → List ℕ → Prop
  | last {i : ℕ} (h : hasNext i = false) : Follows hasNext i [i]
  | next {i : ℕ} {visited : List ℕ} (h : hasNext i = true) (hrest : Follows hasNext (i + 1) visited) :
      Follows hasNext i (i :: visited)

section Follows

variable {hasNext : ℕ → Bool} {count i : ℕ} {visited : List ℕ}

/-- Only one list of pages can be visited. -/
theorem Follows.unique {visited' : List ℕ} (h : Follows hasNext i visited)
    (h' : Follows hasNext i visited') : visited = visited' := by
  induction h generalizing visited' with
  | last hlast =>
      cases h' with
      | last _ => rfl
      | next hnext _ => cases hlast.symm.trans hnext
  | next hnext _ ih =>
      cases h' with
      | last hlast => cases hlast.symm.trans hnext
      | next _ hrest => rw [ih hrest]

/-- From page `i` on, all pages up to the last are visited. -/
theorem follows_range' (hnext : ∀ i, hasNext i = true ↔ i + 1 < count) {k : ℕ}
    (hi : i + (k + 1) = count) : Follows hasNext i (List.range' i (k + 1)) := by
  induction k generalizing i with
  | zero =>
      refine .last (Bool.eq_false_iff.mpr fun h => ?_)
      have := (hnext i).mp h
      omega
  | succ k ih =>
      have hmore : i + 1 < count := by omega
      exact .next ((hnext i).mpr hmore) (ih (by omega))

/-- **All pages are visited**, in order, and then it ends. -/
theorem follows_iff (hnext : ∀ i, hasNext i = true ↔ i + 1 < count) (hcount : 0 < count) :
    Follows hasNext 0 visited ↔ visited = List.range count := by
  obtain ⟨k, rfl⟩ := Nat.exists_eq_succ_of_ne_zero (Nat.ne_of_gt hcount)
  have hall : Follows hasNext 0 (List.range (k + 1)) := by
    rw [List.range_eq_range']
    exact follows_range' hnext (Nat.zero_add _)
  exact ⟨fun h => h.unique hall, fun h => h ▸ hall⟩

end Follows

/-! ## The rows up to a place -/

section Downward

variable {p : α → Bool}

/-- In a sorted list the rows of a downward closed set come first. -/
theorem apply_getElem_iff (hdown : ∀ a b, le a b → p b → p a)
    (hl : l.Pairwise fun a b => le a b) {j : ℕ} (hj : j < l.length) :
    p l[j] ↔ j < l.countP p := by
  induction l generalizing j with
  | nil => exact absurd hj (Nat.not_lt_zero j)
  | cons a rest ih =>
      obtain ⟨hfirst, hrest⟩ := List.pairwise_cons.mp hl
      by_cases ha : p a
      · rw [List.countP_cons_of_pos ha]
        cases j with
        | zero => exact iff_of_true ha (Nat.succ_pos _)
        | succ j =>
            rw [List.getElem_cons_succ, ih hrest, Nat.succ_lt_succ_iff]
      · -- nothing after `a` is in the set either
        have hnone : ∀ x ∈ a :: rest, ¬p x := by
          intro x hx hpx
          obtain rfl | hx := List.mem_cons.mp hx
          · exact ha hpx
          · exact ha (hdown a x (hfirst x hx) hpx)
        rw [List.countP_eq_zero.mpr hnone]
        exact iff_of_false (hnone _ (List.getElem_mem hj)) (Nat.not_lt_zero j)

/-- They come first. -/
theorem filter_eq_take (hdown : ∀ a b, le a b → p b → p a)
    (hl : l.Pairwise fun a b => le a b) : l.filter p = l.take (l.countP p) := by
  induction l with
  | nil => rfl
  | cons a rest ih =>
      obtain ⟨hfirst, hrest⟩ := List.pairwise_cons.mp hl
      by_cases ha : p a
      · rw [List.filter_cons_of_pos ha, List.countP_cons_of_pos ha, List.take_succ_cons,
          ih hrest]
      · have hnone : ∀ x ∈ rest, ¬p x := fun x hx hpx => ha (hdown a x (hfirst x hx) hpx)
        rw [List.filter_cons_of_neg ha, List.countP_cons_of_neg ha,
          List.filter_eq_nil_iff.mpr hnone, List.countP_eq_zero.mpr hnone, List.take_zero]

end Downward

section Order

variable (htrans : ∀ a b c, le a b → le b c → le a c) (htotal : ∀ a b, le a b || le b a)

include htotal in
/-- A row is not after itself. -/
theorem le_self (a : α) : le a a := by simpa using htotal a a

include htrans in
/-- The place of a row that is not after `r`. -/
theorem le_getElem_iff (hl : Sorts le rows l) (r : α) {j : ℕ} (hj : j < l.length) :
    le l[j] r ↔ j < rows.countP fun x => le x r := by
  rw [← hl.1.countP_eq]
  exact apply_getElem_iff (p := fun x => le x r) (fun a b hab hb => htrans a b r hab hb) hl.2 hj

include htrans in
/-- The place of a row that is not before `r`. -/
theorem getElem_le_iff (hl : Sorts le rows l) (r : α) {j : ℕ} (hj : j < l.length) :
    le r l[j] ↔ rows.countP (fun x => !le r x) ≤ j := by
  have hdown : ∀ a b, le a b → (!le r b) = true → (!le r a) = true := by
    intro a b hab hb
    rw [Bool.not_eq_true'] at hb ⊢
    by_contra ha
    rw [htrans r a b (by simpa using ha) hab] at hb
    cases hb
  have hplace := apply_getElem_iff (p := fun x => !le r x) hdown hl.2 hj
  rw [hl.1.countP_eq, Bool.not_eq_true'] at hplace
  rw [← Nat.not_lt, ← hplace, Bool.not_eq_false]

/-! ## Pages that end between groups -/

include htrans htotal in
/-- **Where no page splits a tie, the pages before a boundary are the same rows** in
every sorting. -/
theorem take_perm_take (hsplit : ¬SplitsTie le size rows) (hl : Sorts le rows l)
    (hl' : Sorts le rows l') (i : ℕ) : (l.take (i * size)).Perm (l'.take (i * size)) := by
  by_cases hlength : rows.length ≤ i * size
  · rw [List.take_of_length_le (hl.1.length_eq ▸ hlength),
      List.take_of_length_le (hl'.1.length_eq ▸ hlength)]
    exact hl.1.trans hl'.1.symm
  by_cases hzero : i * size = 0
  · rw [hzero, List.take_zero, List.take_zero]
  -- the last row before the boundary
  have hlast : i * size - 1 < l.length := by
    rw [hl.1.length_eq]
    omega
  have hmem : l[i * size - 1] ∈ rows := hl.1.mem_iff.mp (List.getElem_mem hlast)
  have hself := le_self htotal l[i * size - 1]
  have hbefore := (getElem_le_iff htrans hl _ hlast).mp hself
  have hupto := (le_getElem_iff htrans hl _ hlast).mp hself
  have hexact : rows.countP (fun x => le x l[i * size - 1]) = i * size := by
    by_contra hne
    exact hsplit ⟨i, _, hmem, by omega, by omega⟩
  have hdown : ∀ a b, le a b → le b l[i * size - 1] → le a l[i * size - 1] :=
    fun a b hab hb => htrans a b _ hab hb
  have htake : ∀ {m : List α}, Sorts le rows m →
      m.take (i * size) = m.filter fun x => le x l[i * size - 1] := by
    intro m hm
    have hcount : m.countP (fun x => le x l[i * size - 1]) = i * size :=
      (hm.1.countP_eq _).trans hexact
    rw [filter_eq_take hdown hm.2, hcount]
  rw [htake hl, htake hl']
  exact (hl.1.trans hl'.1.symm).filter _

/-- One page more. -/
theorem pages_succ (size : ℕ) (sorting : ℕ → List α) (n : ℕ) :
    pages size sorting (n + 1) = pages size sorting n ++ page size n (sorting n) := by
  rw [pages, pages, List.range_succ, List.flatMap_append, List.flatMap_singleton]

/-- The first pages of one sorting are its first rows. -/
theorem pages_const (size : ℕ) (l : List α) (n : ℕ) :
    pages size (fun _ => l) n = l.take (n * size) := by
  induction n with
  | zero => simp [pages]
  | succ n ih =>
      rw [pages_succ, ih, Nat.succ_mul, List.take_add]
      rfl

include htrans htotal in
/-- The first pages show the first rows. -/
theorem pages_perm_take (hsplit : ¬SplitsTie le size rows) {sorting : ℕ → List α}
    (hsorting : ∀ i, Sorts le rows (sorting i)) (n : ℕ) (hl : Sorts le rows l) :
    (pages size sorting n).Perm (l.take (n * size)) := by
  induction n generalizing l with
  | zero => simp [pages]
  | succ n ih =>
      have hcut : (sorting n).take ((n + 1) * size) =
          (sorting n).take (n * size) ++ page size n (sorting n) := by
        rw [Nat.succ_mul, List.take_add]
        rfl
      calc pages size sorting (n + 1)
          = pages size sorting n ++ page size n (sorting n) := pages_succ ..
        _ ~ (sorting n).take (n * size) ++ page size n (sorting n) :=
            (ih (hsorting n)).append_right _
        _ ~ l.take ((n + 1) * size) := by
            rw [← hcut]
            exact take_perm_take htrans htotal hsplit (hsorting n) hl (n + 1)

include htrans htotal in
/-- **Where no page splits a tie, the pages show every row once.** -/
theorem pages_perm (hsplit : ¬SplitsTie le size rows) {sorting : ℕ → List α}
    (hsorting : ∀ i, Sorts le rows (sorting i)) (hn : rows.length ≤ n * size) :
    (pages size sorting n).Perm rows := by
  have hfirst := pages_perm_take htrans htotal hsplit hsorting n (hsorting 0)
  rw [List.take_of_length_le ((hsorting 0).1.length_eq ▸ hn)] at hfirst
  exact hfirst.trans (hsorting 0).1

/-! ## Pages that end between tied rows -/

include htrans in
/-- **The two rows at a split**: they are neighbours in every sorting, and tied. -/
theorem exists_tied {i : ℕ} {r : α} (hl : Sorts le rows l)
    (hbefore : rows.countP (fun x => !le r x) < i * size)
    (hupto : i * size < rows.countP fun x => le x r) :
    ∃ pre x y post, l = pre ++ x :: y :: post ∧ pre.length + 1 = i * size ∧ le y x := by
  have hlength : i * size < l.length := by
    rw [hl.1.length_eq]
    exact Nat.lt_of_lt_of_le hupto List.countP_le_length
  have hprevious : i * size - 1 < l.length := Nat.lt_of_le_of_lt (Nat.sub_le _ 1) hlength
  have hx : le r l[i * size - 1] := (getElem_le_iff htrans hl r hprevious).mpr (by omega)
  have hy : le l[i * size] r := (le_getElem_iff htrans hl r hlength).mpr hupto
  refine ⟨l.take (i * size - 1), l[i * size - 1], l[i * size], l.drop (i * size + 1), ?_, ?_,
    htrans _ _ _ hy hx⟩
  · have hnext : i * size - 1 + 1 = i * size := by omega
    have hdrop : l.drop (i * size - 1) = l[i * size - 1] :: l.drop (i * size - 1 + 1) :=
      List.drop_eq_getElem_cons hprevious
    rw [hnext, List.drop_eq_getElem_cons hlength] at hdrop
    rw [← hdrop, List.take_append_drop]
  · rw [List.length_take]
    omega

/-- Tied neighbours may change places. -/
theorem Sorts.swap {pre post : List α} {x y : α} (h : Sorts le rows (pre ++ x :: y :: post))
    (htied : le y x) : Sorts le rows (pre ++ y :: x :: post) := by
  refine ⟨(List.Perm.append_left pre (List.Perm.swap x y post)).trans h.1, ?_⟩
  obtain ⟨hpre, hrest, hcross⟩ := List.pairwise_append.mp h.2
  obtain ⟨hx, hrest⟩ := List.pairwise_cons.mp hrest
  obtain ⟨hy, hpost⟩ := List.pairwise_cons.mp hrest
  refine List.pairwise_append.mpr ⟨hpre, List.pairwise_cons.mpr ⟨?_, List.pairwise_cons.mpr
    ⟨fun b hb => hx b (List.mem_cons_of_mem _ hb), hpost⟩⟩, fun a ha b hb => ?_⟩
  · intro b hb
    obtain rfl | hb := List.mem_cons.mp hb
    · exact htied
    · exact hy b hb
  · refine hcross a ha b ?_
    simp only [List.mem_cons] at hb ⊢
    tauto

/-- What stands at a place is on the page of that place. -/
theorem mem_page {i j : ℕ} {x : α} (h : l[j]? = some x) (hlo : i * size ≤ j)
    (hhi : j < i * size + size) : x ∈ page size i l := by
  refine List.mem_iff_getElem?.mpr ⟨j - i * size, ?_⟩
  rw [page, List.getElem?_take, if_pos (by omega), List.getElem?_drop]
  rw [Nat.add_sub_cancel' hlo, h]

include htrans htotal in
/-- **Where a page splits a tie**, some sortings show a row twice. -/
theorem exists_repeated (hsplit : SplitsTie le size rows) (hn : rows.length ≤ n * size) :
    ∃ sorting : ℕ → List α, (∀ i, Sorts le rows (sorting i)) ∧ ¬(pages size sorting n).Nodup := by
  obtain ⟨i, r, -, hbefore, hupto⟩ := hsplit
  have hl : Sorts le rows (rows.mergeSort le) :=
    ⟨List.mergeSort_perm rows le, List.pairwise_mergeSort htrans htotal rows⟩
  obtain ⟨pre, x, y, post, hcut, hlength, htied⟩ := exists_tied htrans hl hbefore hupto
  rw [hcut] at hl
  have hpositive : 0 < i * size := Nat.zero_lt_of_lt hbefore
  have hi : 0 < i := Nat.pos_of_mul_pos_right hpositive
  have hsize : 0 < size := Nat.pos_of_mul_pos_left hpositive
  have hin : i < n :=
    Nat.lt_of_mul_lt_mul_right
      (Nat.lt_of_lt_of_le (Nat.lt_of_lt_of_le hupto List.countP_le_length) hn)
  -- the rows change places after the page that ends between them
  refine ⟨fun j => if j < i then pre ++ x :: y :: post else pre ++ y :: x :: post,
    fun j => ?_, fun hnodup => ?_⟩
  · dsimp only
    split
    · exact hl
    · exact hl.swap htied
  · have hprevious : (i - 1) * size + size = i * size := by
      rw [← Nat.succ_mul, Nat.succ_eq_add_one, Nat.sub_add_cancel hi]
    have hfirst : x ∈ page size (i - 1) (pre ++ x :: y :: post) :=
      mem_page (j := pre.length) (by simp) (by omega) (by omega)
    have hagain : x ∈ page size i (pre ++ y :: x :: post) :=
      mem_page (j := pre.length + 1) (by simp) (by omega) (by omega)
    have hdisjoint := (List.nodup_flatMap.mp hnodup).2
    have hpair := List.pairwise_iff_getElem.mp hdisjoint (i - 1) i (by simp; omega)
      (by simpa using hin) (by omega)
    simp only [Function.onFun, List.getElem_range, if_pos (Nat.sub_lt hi Nat.one_pos),
      if_neg (Nat.lt_irrefl i)] at hpair
    exact hpair hfirst hagain

include htrans htotal in
/-- An order that tells all rows apart leaves no tie to split. -/
theorem not_splitsTie (hnodup : rows.Nodup)
    (hanti : ∀ a ∈ rows, ∀ b ∈ rows, le a b → le b a → a = b) : ¬SplitsTie le size rows := by
  rintro ⟨i, r, -, hbefore, hupto⟩
  have hl : Sorts le rows (rows.mergeSort le) :=
    ⟨List.mergeSort_perm rows le, List.pairwise_mergeSort htrans htotal rows⟩
  obtain ⟨pre, x, y, post, hcut, -, htied⟩ := exists_tied htrans hl hbefore hupto
  rw [hcut] at hl
  have hmem : ∀ z ∈ x :: y :: post, z ∈ rows :=
    fun z hz => hl.1.mem_iff.mp (List.mem_append_right pre hz)
  obtain ⟨hx, -⟩ := List.pairwise_cons.mp (List.pairwise_append.mp hl.2).2.1
  obtain ⟨hne, -⟩ := List.nodup_cons.mp (List.nodup_append.mp (hl.1.nodup_iff.mpr hnodup)).2.1
  have hsame : x = y := hanti x (hmem x (by simp)) y (hmem y (by simp)) (hx y (by simp)) htied
  exact hne (hsame ▸ List.mem_cons_self)

end Order

end Paging
