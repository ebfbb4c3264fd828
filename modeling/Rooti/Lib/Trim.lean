import Mathlib.Data.List.DropRight

/-!
# Trimmed lists

`trim p` removes the letters with `p` from both ends of a list, and no others.

## Main definitions

* `trim`, `Trimmed` — trimming, and the lists it leaves alone

## Main results

* `trim_eq_self_iff`, `trimmed_trim` — trimming twice is trimming once
* `trim_map` — trimming what has been substituted
* `trimmed_take_iff` — a list that is cut short after it was trimmed
-/

namespace Trim

variable {α β : Type*} (p : α → Bool)

/-- The list without the letters with `p` at its ends. -/
def trim (l : List α) : List α := (l.dropWhile p).rdropWhile p

/-- **Neither end** has `p`. -/
def Trimmed (l : List α) : Prop := (∀ a ∈ l.head?, ¬p a) ∧ ∀ a ∈ l.getLast?, ¬p a

instance (l : List α) : Decidable (Trimmed p l) := inferInstanceAs (Decidable (_ ∧ _))

variable {p} {l : List α} {n : ℕ}

theorem dropWhile_eq_self_iff_head? : l.dropWhile p = l ↔ ∀ a ∈ l.head?, ¬p a := by
  cases l with
  | nil => simp
  | cons a l => simp [List.dropWhile_eq_self_iff]

theorem rdropWhile_eq_self_iff_getLast? : l.rdropWhile p = l ↔ ∀ a ∈ l.getLast?, ¬p a := by
  rw [List.rdropWhile, List.reverse_eq_iff, dropWhile_eq_self_iff_head?, List.head?_reverse]

theorem isInfix_trim : trim p l <:+: l :=
  (List.rdropWhile_prefix p _).isInfix.trans (List.dropWhile_suffix p).isInfix

theorem trimmed_trim : Trimmed p (trim p l) := by
  constructor
  · intro a ha
    -- the second step leaves a beginning of what the first one left
    obtain ⟨rest, hrest⟩ := List.rdropWhile_prefix p (l.dropWhile p)
    have hhead : a ∈ (l.dropWhile p).head? := by
      rw [← hrest, List.head?_append_of_ne_nil]
      · exact ha
      · rintro hnil
        rw [trim, hnil] at ha
        cases ha
    have hnot := List.head?_dropWhile_not p l
    rw [hhead] at hnot
    simpa using hnot
  · exact rdropWhile_eq_self_iff_getLast?.mp (List.rdropWhile_idempotent p _)

/-- **What trimming leaves alone.** -/
theorem trim_eq_self_iff : trim p l = l ↔ Trimmed p l := by
  constructor
  · intro h
    exact h ▸ trimmed_trim
  · rintro ⟨hhead, hlast⟩
    rw [trim, dropWhile_eq_self_iff_head?.mpr hhead, rdropWhile_eq_self_iff_getLast?.mpr hlast]

theorem length_trim_lt (h : ¬Trimmed p l) : (trim p l).length < l.length :=
  lt_of_le_of_ne isInfix_trim.length_le fun heq =>
    h (trim_eq_self_iff.mp (isInfix_trim.eq_of_length heq))

/-- **Trimming after a substitution** trims before it what it would turn into a letter to
remove. -/
theorem trim_map (q : β → Bool) (f : α → β) (l : List α) :
    trim q (l.map f) = (trim (q ∘ f) l).map f := by
  rw [trim, trim, List.rdropWhile, List.rdropWhile, List.dropWhile_map, ← List.map_reverse,
    List.dropWhile_map, List.map_reverse]

theorem trimmed_map (q : β → Bool) (f : α → β) (l : List α) :
    Trimmed q (l.map f) ↔ Trimmed (q ∘ f) l := by
  unfold Trimmed
  rw [List.head?_map, List.getLast?_map]
  simp

/-- **A trimmed list that is cut short** may end anywhere. -/
theorem trimmed_take_iff (h : Trimmed p l) :
    Trimmed p (l.take n) ↔ ∀ a ∈ (l.take n).getLast?, ¬p a := by
  refine ⟨And.right, fun hlast => ⟨fun a ha => h.1 a ?_, hlast⟩⟩
  rw [List.head?_take] at ha
  split at ha
  · cases ha
  · exact ha

end Trim
