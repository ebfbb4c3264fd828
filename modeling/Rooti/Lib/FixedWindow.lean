import Mathlib.Data.List.Basic
import Mathlib.Logic.Function.Basic

/-!
# Fixed windows

A limiter counts the requests of the current window by their keys.  A request is counted
in any case, and let through while its key has not passed the limit.

## Main definitions

* `FixedWindow.bump`, `FixedWindow.counted` — the counts after requests
* `FixedWindow.run` — which requests are let through
-/

namespace FixedWindow

variable {κ : Type _} [DecidableEq κ]

/-- A request of key `k` is counted. -/
def bump (counts : κ → ℕ) (k : κ) : κ → ℕ := Function.update counts k (counts k + 1)

/-- The counts after requests. -/
def counted (counts : κ → ℕ) : List κ → κ → ℕ
  | [] => counts
  | k :: ks => counted (bump counts k) ks

/-- Which of the requests are let through. -/
def run (limit : ℕ) (counts : κ → ℕ) : List κ → List Bool
  | [] => []
  | k :: ks => decide (counts k + 1 ≤ limit) :: run limit (bump counts k) ks

variable {limit : ℕ} {counts : κ → ℕ} {k : κ} {ks : List κ}

@[simp] theorem bump_self : bump counts k k = counts k + 1 := Function.update_self ..

theorem bump_of_ne {j : κ} (h : j ≠ k) : bump counts k j = counts j :=
  Function.update_of_ne h ..

/-- **Every request is counted for its key** and for no other. -/
theorem counted_apply : counted counts ks k = counts k + ks.count k := by
  induction ks generalizing counts with
  | nil => rfl
  | cons j ks ih =>
      rw [counted, ih, List.count_cons]
      by_cases h : j = k
      · subst h
        simp only [bump_self, beq_self_eq_true, if_true]
        omega
      · rw [bump_of_ne (Ne.symm h), if_neg (by simpa using h), Nat.add_zero]

/-- A window is spared by the requests of other keys. -/
theorem counted_eq_iff : counted counts ks k = counts k ↔ k ∉ ks := by
  rw [counted_apply, ← List.count_eq_zero]
  omega

/-- **Requests of one key**: no more are let through than the limit leaves. -/
theorem count_run_le (h : ∀ j ∈ ks, j = k) :
    (run limit counts ks).count true ≤ limit - counts k := by
  induction ks generalizing counts with
  | nil => exact Nat.zero_le _
  | cons j ks ih =>
      obtain ⟨rfl, hrest⟩ := List.forall_mem_cons.mp h
      have hle := @ih (bump counts j) hrest
      rw [bump_self] at hle
      rw [run, List.count_cons]
      by_cases hlimit : counts j + 1 ≤ limit
      · rw [if_pos (by simpa using hlimit)]
        omega
      · rw [if_neg (by simpa using hlimit)]
        omega

end FixedWindow
