import Mathlib.Algebra.Order.BigOperators.Group.List
import Mathlib.Algebra.Order.Group.Nat
import Mathlib.Algebra.Ring.Nat
import Mathlib.Data.List.Basic

/-!
# Joined texts

Parts joined with a separator read the same exactly when they are the same after
each has been cut at the separators it has itself.

## Main results

* `splitOn_intercalate_eq` — what a joined text is cut into
* `intercalate_eq_iff` — when two joined texts are the same
* `length_intercalate_filter_lt` — parts that are left out shorten the text
-/

namespace Joined

variable {α : Type*} {sep : α} {cs ds : List (List α)}

theorem intercalate_cons_of_ne_nil (c : List α) (h : cs ≠ []) :
    [sep].intercalate (c :: cs) = c ++ sep :: [sep].intercalate cs := by
  obtain ⟨d, ds, rfl⟩ := List.exists_cons_of_ne_nil h
  rw [List.intercalate_cons_cons]
  simp

theorem length_intercalate (h : cs ≠ []) :
    ([sep].intercalate cs).length + 1 = (cs.map fun c => c.length + 1).sum := by
  induction cs with
  | nil => exact absurd rfl h
  | cons c cs ih =>
      by_cases hcs : cs = []
      · simp [hcs]
      · rw [intercalate_cons_of_ne_nil c hcs, List.length_append, List.length_cons, ih hcs,
          List.map_cons, List.sum_cons]
        omega

theorem intercalate_eq_nil_iff (h : cs ≠ []) : [sep].intercalate cs = [] ↔ cs = [[]] := by
  obtain ⟨c, rest, rfl⟩ := List.exists_cons_of_ne_nil h
  by_cases hrest : rest = []
  · simp [hrest]
  · rw [intercalate_cons_of_ne_nil c hrest]
    simp [hrest]

/-- **Parts that are left out** shorten the text, unless they are all empty. -/
theorem length_intercalate_filter_lt {ι : Type*} {xs : List ι} (f : ι → List α) {p : ι → Bool}
    {x : ι} (hx : x ∈ xs) (hp : ¬p x) (hne : f x ≠ []) :
    ([sep].intercalate ((xs.filter p).map f)).length < ([sep].intercalate (xs.map f)).length := by
  have hxs : xs.map f ≠ [] := List.ne_nil_of_mem (List.mem_map_of_mem hx)
  have hlength := @length_intercalate α sep _ hxs
  have hpos : 0 < (f x).length := List.length_pos_of_ne_nil hne
  -- the letters of a part and its separator
  have hsum : (((xs.filter p).map f).map fun c => c.length + 1).sum + ((f x).length + 1) ≤
      ((xs.map f).map fun c => c.length + 1).sum := by
    rw [List.map_map, List.map_map]
    have hperm := ((List.filter_append_perm p xs).map fun y => (f y).length + 1).sum_eq
    have hmem : (f x).length + 1 ∈ (xs.filter fun y => !p y).map fun y => (f y).length + 1 :=
      List.mem_map.mpr ⟨x, List.mem_filter.mpr ⟨hx, by simpa using hp⟩, rfl⟩
    have hle := List.le_sum_of_mem hmem
    rw [List.map_append, List.sum_append] at hperm
    simp only [Function.comp_def]
    omega
  by_cases hfilter : (xs.filter p).map f = []
  · rw [hfilter, List.map_nil, List.sum_nil] at hsum
    rw [hfilter, List.intercalate_nil, List.length_nil]
    omega
  · have hshort := @length_intercalate α sep _ hfilter
    omega

section Cut

variable [DecidableEq α]

/-- **A joined text is cut** into what its parts are cut into. -/
theorem splitOn_intercalate_eq (h : cs ≠ []) :
    ([sep].intercalate cs).splitOn sep = cs.flatMap fun c => c.splitOn sep := by
  induction cs with
  | nil => exact absurd rfl h
  | cons c cs ih =>
      by_cases hcs : cs = []
      · simp [hcs]
      · rw [intercalate_cons_of_ne_nil c hcs, List.splitOn_append_cons_self, ih hcs,
          List.flatMap_cons]

/-- **Two joined texts are the same** exactly if their parts are, once they are cut. -/
theorem intercalate_eq_iff (hcs : cs ≠ []) (hds : ds ≠ []) :
    [sep].intercalate cs = [sep].intercalate ds ↔
      (cs.flatMap fun c => c.splitOn sep) = ds.flatMap fun c => c.splitOn sep := by
  rw [← splitOn_intercalate_eq hcs, ← splitOn_intercalate_eq hds]
  constructor
  · exact fun h => congrArg _ h
  · intro h
    exact (List.intercalate_splitOn sep).symm.trans
      ((congrArg _ h).trans (List.intercalate_splitOn sep))

end Cut

end Joined
