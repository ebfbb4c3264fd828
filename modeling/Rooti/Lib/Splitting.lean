import Mathlib.Data.List.Basic

/-!
# Splitting texts

A text is cut in front of the first letter that stops it, or behind the last one.  What stands
on both sides of the cut determines it: `cut_eq_some_iff`, `rcut_eq_some_iff`.

## Main definitions

* `cut`, `rcut` — the two sides of the first and of the last stop
* `length_le_of_append_eq` — a part without stops does not reach beyond one
-/

namespace Splitting

variable {α : Type*}

/-- The letters in front of the first one that stops, that one, and those behind it. -/
def cut (stop : α → Bool) : List α → List α × Option (α × List α)
  | [] => ([], none)
  | a :: l => if stop a then ([], some (a, l)) else (a :: (cut stop l).1, (cut stop l).2)

/-- The letters in front of the last one that stops, and those behind it. -/
def rcut (stop : α → Bool) (l : List α) : Option (List α) × List α :=
  ((cut stop l.reverse).2.map fun r => r.2.reverse, (cut stop l.reverse).1.reverse)

variable {stop : α → Bool} {l x y x' t : List α} {c : α}

theorem cut_append (hx : ∀ a ∈ x, ¬stop a) (hc : stop c) :
    cut stop (x ++ c :: y) = (x, some (c, y)) := by
  induction x with
  | nil => exact if_pos hc
  | cons a x ih =>
      rw [List.forall_mem_cons] at hx
      rw [List.cons_append, cut, if_neg hx.1, ih hx.2]

theorem cut_of_forall (hl : ∀ a ∈ l, ¬stop a) : cut stop l = (l, none) := by
  induction l with
  | nil => rfl
  | cons a l ih =>
      rw [List.forall_mem_cons] at hl
      rw [cut, if_neg hl.1, ih hl.2]

/-- **Where a text is cut.** -/
theorem cut_cases (stop : α → Bool) (l : List α) :
    (cut stop l = (l, none) ∧ ∀ a ∈ l, ¬stop a) ∨
      ∃ x c y, cut stop l = (x, some (c, y)) ∧ l = x ++ c :: y ∧ stop c ∧ ∀ a ∈ x, ¬stop a := by
  induction l with
  | nil => exact .inl ⟨rfl, nofun⟩
  | cons a l ih =>
      by_cases ha : stop a
      · exact .inr ⟨[], a, l, if_pos ha, rfl, ha, nofun⟩
      · rw [cut, if_neg ha]
        obtain ⟨hcut, hl⟩ | ⟨x, c, y, hcut, rfl, hc, hx⟩ := ih
        · rw [hcut]
          exact .inl ⟨rfl, List.forall_mem_cons.mpr ⟨ha, hl⟩⟩
        · rw [hcut]
          exact .inr ⟨a :: x, c, y, rfl, rfl, hc, List.forall_mem_cons.mpr ⟨ha, hx⟩⟩

/-- **The cut is at the first stop.** -/
theorem cut_eq_some_iff :
    cut stop l = (x, some (c, y)) ↔ l = x ++ c :: y ∧ stop c ∧ ∀ a ∈ x, ¬stop a := by
  constructor
  · intro h
    obtain ⟨hcut, -⟩ | ⟨x', c', y', hcut, hl, hc, hx⟩ := cut_cases stop l <;> rw [hcut] at h
    · cases h
    · cases h
      exact ⟨hl, hc, hx⟩
  · rintro ⟨rfl, hc, hx⟩
    exact cut_append hx hc

theorem cut_eq_none_iff : cut stop l = (x, none) ↔ x = l ∧ ∀ a ∈ l, ¬stop a := by
  constructor
  · intro h
    obtain ⟨hcut, hl⟩ | ⟨x', c', y', hcut, -⟩ := cut_cases stop l <;> rw [hcut] at h
    · cases h
      exact ⟨rfl, hl⟩
    · cases h
  · rintro ⟨rfl, hl⟩
    exact cut_of_forall hl

/-- Nothing in front of the cut stops. -/
theorem forall_cut (stop : α → Bool) (l : List α) : ∀ a ∈ (cut stop l).1, ¬stop a := by
  obtain ⟨hcut, hfree⟩ | ⟨x, c, y, hcut, -, -, hfree⟩ := cut_cases stop l <;> rw [hcut]
  · exact hfree
  · exact hfree

/-- What stands in front of the cut is a part of the text. -/
theorem exists_append_cut (stop : α → Bool) (l : List α) : ∃ t, l = (cut stop l).1 ++ t := by
  obtain ⟨hcut, -⟩ | ⟨x, c, y, hcut, hl, -⟩ := cut_cases stop l <;> rw [hcut]
  · exact ⟨[], (List.append_nil l).symm⟩
  · exact ⟨c :: y, hl⟩

/-- **The cut is at the last stop.** -/
theorem rcut_eq_some_iff :
    rcut stop l = (some x, y) ↔ ∃ c, l = x ++ c :: y ∧ stop c ∧ ∀ a ∈ y, ¬stop a := by
  constructor
  · intro h
    rcases hcut : cut stop l.reverse with ⟨z, _ | ⟨c, r⟩⟩ <;> rw [rcut, hcut] at h
    · cases h
    · cases h
      obtain ⟨hl, hc, hz⟩ := cut_eq_some_iff.mp hcut
      refine ⟨c, ?_, hc, fun a ha => hz a (List.mem_reverse.mp ha)⟩
      rw [← List.reverse_reverse l, hl]
      simp
  · rintro ⟨c, rfl, hc, hy⟩
    have hcut : cut stop (x ++ c :: y).reverse = (y.reverse, some (c, x.reverse)) := by
      refine cut_eq_some_iff.mpr ⟨by simp, hc, fun a ha => hy a (List.mem_reverse.mp ha)⟩
    rw [rcut, hcut]
    simp

theorem rcut_eq_none_iff : rcut stop l = (none, y) ↔ y = l ∧ ∀ a ∈ l, ¬stop a := by
  constructor
  · intro h
    rcases hcut : cut stop l.reverse with ⟨z, _ | ⟨c, r⟩⟩ <;> rw [rcut, hcut] at h
    · cases h
      obtain ⟨rfl, hl⟩ := cut_eq_none_iff.mp hcut
      exact ⟨List.reverse_reverse l, fun a ha => hl a (List.mem_reverse.mpr ha)⟩
    · cases h
  · rintro ⟨rfl, hl⟩
    have hcut : cut stop y.reverse = (y.reverse, none) :=
      cut_of_forall fun a ha => hl a (List.mem_reverse.mp ha)
    rw [rcut, hcut]
    simp

/-- **A part without stops** does not reach beyond a stop. -/
theorem length_le_of_append_eq (h : x ++ c :: y = x' ++ t) (hx' : ∀ a ∈ x', ¬stop a)
    (hc : stop c) : x'.length ≤ x.length := by
  by_contra hlonger
  have hlt : x.length < x'.length := Nat.not_le.mp hlonger
  have hget := congrArg (·[x.length]?) h
  rw [List.getElem?_append_right (Nat.le_refl _), Nat.sub_self, List.getElem?_cons_zero,
    List.getElem?_append_left hlt] at hget
  exact hx' c (List.mem_of_getElem? hget.symm) hc

/-- **A letter that does not occur behind a cut** is at the cut, or in front of it. -/
theorem append_eq_cases {d : α} (h : x ++ c :: y = x' ++ d :: t) (hd : d ∉ y) :
    (x' = x ∧ d = c ∧ t = y) ∨ ∃ w, x = x' ++ d :: w := by
  obtain ⟨as, rfl, has⟩ | ⟨bs, rfl, hbs⟩ := List.append_eq_append_iff.mp h
  · cases as with
    | nil =>
        obtain ⟨rfl, rfl⟩ := List.cons.inj has
        exact .inl ⟨List.append_nil x, rfl, rfl⟩
    | cons a as =>
        obtain ⟨rfl, rfl⟩ := List.cons.inj has
        exact absurd (List.mem_append_right as List.mem_cons_self) hd
  · cases bs with
    | nil =>
        obtain ⟨rfl, rfl⟩ := List.cons.inj hbs
        exact .inl ⟨(List.append_nil x').symm, rfl, rfl⟩
    | cons b bs =>
        obtain ⟨rfl, -⟩ := List.cons.inj hbs
        exact .inr ⟨bs, rfl⟩

end Splitting
