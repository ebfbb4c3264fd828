import Rooti.Core.Response
import Rooti.Lib.Paging

/-!
# Turning the pages of a listing

A client begins with the first page and asks for the next one while it is told that there is
one.  It comes to the last page and stops there, and what it has seen are all the elements, in
their order.  The metadata of a page are computed twice, by the service and by the router, and
agree.

## Main definitions

* `PageParams.goto` — another page of the same size
* `page_metadata` — the metadata, and where they lead

## What carries the proof

There are `⌈total / size⌉` pages and at least one, and page `i` has a next one exactly
if something is left after it (`lt_pageCount_iff`). A client that follows these answers
visits the numbers below the count in their order (`follows_iff`), and the slices of
these numbers, one after the other, are the list (`flatMap_slice`). The last page is
shorter, or empty where there are no elements at all.
-/

namespace Rooti

open Paging

variable {α : Type}

/-- Another page of the same size. -/
def PageParams.goto (params : PageParams) (page : ℕ) : PageParams := { params with page := page }

/-- The two quotients. -/
theorem countPages_eq (total : ℕ) {size : ℕ} (hsize : 0 < size) :
    PageResponse.countPages total size = pageCount total size := by
  have hceil : Py.ceilDiv total size = ((total + size - 1) / size : ℕ) := by
    have hdiv := Nat.div_add_mod (total + size - 1) size
    have hmod := Nat.mod_lt (total + size - 1) hsize
    have hquot : -(total : ℤ) / size = -((total + size - 1) / size : ℕ) := by
      generalize (total + size - 1) / size = q at hdiv ⊢
      have hcast : (size : ℤ) * q = (size * q : ℕ) := (Int.natCast_mul size q).symm
      refine ((Int.ediv_emod_unique (r := (size : ℤ) * q - total) (by omega)).mpr ⟨?_, ?_, ?_⟩).1
      · rw [Int.mul_neg]
        omega
      · omega
      · omega
    rw [Py.ceilDiv, hquot, Int.neg_neg]
  rw [PageResponse.countPages, if_pos (Int.natCast_pos.mpr hsize), hceil, pageCount]
  generalize (total + size - 1) / size = q
  omega

/-- **The router answers the metadata the service has computed.** -/
theorem toResponse_metadata (content : List α) (params : PageParams) (total : ℕ) :
    (Page.build content params total).toResponse.totalPages =
        (Page.build content params total).totalPages ∧
      (Page.build content params total).toResponse.hasNext =
        (Page.build content params total).hasNext ∧
      (Page.build content params total).toResponse.hasPrevious =
        (Page.build content params total).hasPrevious := by
  have hcount : PageResponse.countPages total params.size = pageCount total params.size :=
    countPages_eq total params.size_pos
  refine ⟨hcount, ?_, ?_⟩
  · show decide (((params.page : ℕ) : ℤ) + 1 < PageResponse.countPages total params.size) = _
    rw [hcount]
    exact decide_eq_decide.mpr (by omega)
  · show decide (((params.page : ℕ) : ℤ) > 0) = decide (params.page > 0)
    exact decide_eq_decide.mpr (by omega)

/-- The pages of a list, one after another, are the list. -/
theorem flatMap_slice (params : PageParams) (l : List α) :
    (List.range (pageCount l.length params.size)).flatMap (fun i => (params.goto i).slice l) =
      l := by
  have hpages := pages_const params.size l (pageCount l.length params.size)
  rw [List.take_of_length_le (le_pageCount_mul l.length params.size_pos)] at hpages
  exact hpages

/-- **The metadata of a page, and where they lead.**

The service and the router compute the same three metadata; there is a next page exactly
if elements are left after this one; a client that starts at page 0 and goes on while
there is a next page visits all pages and stops; and what it has seen then is the whole
list in its order. -/
theorem page_metadata (params : PageParams) (content : List α) (total : ℕ) :
    ((PageResponse.of content params.page params.size total).totalPages =
        (Page.build content params total).totalPages ∧
      (PageResponse.of content params.page params.size total).hasNext =
        (Page.build content params total).hasNext ∧
      (PageResponse.of content params.page params.size total).hasPrevious =
        (Page.build content params total).hasPrevious) ∧
    ((Page.build content params total).hasNext = true ↔ (params.page + 1) * params.size < total) ∧
    (∀ (contents : ℕ → List α) (visited : List ℕ),
      Follows (fun i => (Page.build (contents i) (params.goto i) total).hasNext) 0 visited ↔
        visited = List.range (Page.build content params total).totalPages) ∧
    ∀ l : List α, l.length = total →
      (List.range (Page.build content params total).totalPages).flatMap
        (fun i => (params.goto i).slice l) = l := by
  refine ⟨toResponse_metadata content params total, ?_, fun contents visited => ?_, ?_⟩
  · exact decide_eq_true_iff.trans (lt_pageCount_iff params.size_pos)
  · exact follows_iff (fun i => decide_eq_true_iff) (pageCount_pos total params.size)
  · rintro l rfl
    exact flatMap_slice params l

end Rooti
