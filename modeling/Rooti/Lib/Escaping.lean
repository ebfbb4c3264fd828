import Mathlib.Logic.Function.Iterate

/-!
# Escaping a text character by character

An escape replaces some characters by longer texts and leaves the others alone.  Text without
such characters is left as it is.  If what stands for a character has an escaped character of
its own, any other text grows with every escape.

## Main definitions

* `Escaping.Plain` — a character that stands for itself
* `Escaping.Nests` — what stands for a character is escaped again
* `flatMap_twice_iff` — the texts that a second escape leaves alone
-/

namespace Escaping

variable {α : Type*} {f : α → List α} {l : List α}

/-- The character stands for itself. -/
def Plain (f : α → List α) (c : α) : Prop := f c = [c]

/-- **Escapes grow and nest**: what stands for a character that does not stand for itself is
longer, and has such a character in it. -/
structure Nests (f : α → List α) : Prop where
  grows : ∀ c, Plain f c ∨ 1 < (f c).length
  again : ∀ c, Plain f c ∨ ∃ c' ∈ f c, ¬Plain f c'

theorem flatMap_of_plain (h : ∀ c ∈ l, Plain f c) : l.flatMap f = l := by
  induction l with
  | nil => rfl
  | cons c rest ih =>
      rw [List.forall_mem_cons] at h
      rw [List.flatMap_cons, ih h.2, h.1, List.singleton_append]

/-- An escape makes no text shorter. -/
theorem length_le_flatMap (hf : Nests f) : l.length ≤ (l.flatMap f).length := by
  induction l with
  | nil => exact Nat.zero_le _
  | cons c rest ih =>
      rw [List.flatMap_cons, List.length_append, List.length_cons]
      obtain hc | hc := hf.grows c
      · rw [hc, List.length_singleton]
        omega
      · omega

/-- **A text with a character to escape becomes longer.** -/
theorem length_lt_flatMap (hf : Nests f) (h : ∃ c ∈ l, ¬Plain f c) :
    l.length < (l.flatMap f).length := by
  obtain ⟨c, hc, hplain⟩ := h
  obtain ⟨before, after, rfl⟩ := List.append_of_mem hc
  have hgrows := (hf.grows c).resolve_left hplain
  have hbefore := length_le_flatMap (l := before) hf
  have hafter := length_le_flatMap (l := after) hf
  simp only [List.flatMap_append, List.flatMap_cons, List.length_append, List.length_cons]
  omega

/-- **The texts that an escape leaves alone.** -/
theorem flatMap_eq_self_iff (hf : Nests f) : l.flatMap f = l ↔ ∀ c ∈ l, Plain f c := by
  refine ⟨fun h c hc => by_contra fun hplain => ?_, flatMap_of_plain⟩
  have hlonger := length_lt_flatMap hf ⟨c, hc, hplain⟩
  rw [h] at hlonger
  exact Nat.lt_irrefl _ hlonger

/-- An escape gets rid of no character to escape. -/
theorem forall_plain_flatMap (hf : Nests f) :
    (∀ c ∈ l.flatMap f, Plain f c) ↔ ∀ c ∈ l, Plain f c := by
  constructor
  · intro h c hc
    obtain hplain | ⟨c', hc', hnot⟩ := hf.again c
    · exact hplain
    · exact absurd (h c' (List.mem_flatMap.mpr ⟨c, hc, hc'⟩)) hnot
  · intro h
    rw [flatMap_of_plain h]
    exact h

/-- **The texts that a second escape leaves alone**: those that the first leaves alone. -/
theorem flatMap_twice_iff (hf : Nests f) :
    (l.flatMap f).flatMap f = l.flatMap f ↔ ∀ c ∈ l, Plain f c :=
  (flatMap_eq_self_iff hf).trans (forall_plain_flatMap hf)

end Escaping
