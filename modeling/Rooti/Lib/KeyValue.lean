import Mathlib.Data.Int.Notation
import Mathlib.Logic.Function.Basic

/-!
# Key-value stores with expiry

A store maps a key to a value and the last instant at which the value is still
served.  Reading takes the current instant; writing replaces the entry of one
key.

## Main definitions

* `Entry`, `Store` — entries and stores
* `Store.get`, `Store.set`, `Store.del` — the commands
-/

namespace KeyValue

/-- A stored value and the last instant it is served at. -/
structure Entry (V : Type*) where
  value : V
  expires : ℤ
  deriving DecidableEq

/-- A store: at most one entry per key. -/
def Store (K V : Type*) := K → Option (Entry V)

namespace Store

variable {K V : Type*}

/-- The store without entries. -/
def empty : Store K V := fun _ => none

/-- The value served for a key at instant `t`. -/
def get (s : Store K V) (t : ℤ) (k : K) : Option V :=
  match s k with
  | some e => if t ≤ e.expires then some e.value else none
  | none => none

theorem get_eq_some {s : Store K V} {t : ℤ} {k : K} {v : V} :
    s.get t k = some v ↔ ∃ e, s k = some ⟨v, e⟩ ∧ t ≤ e := by
  unfold get
  constructor
  · intro h
    cases hk : s k with
    | none => simp [hk] at h
    | some entry =>
        simp only [hk, Option.ite_none_right_eq_some, Option.some.injEq] at h
        exact ⟨entry.expires, by rw [← h.2], h.1⟩
  · rintro ⟨e, hk, ht⟩
    simp [hk, ht]

theorem get_eq_none_of_none {s : Store K V} {t : ℤ} {k : K} (h : s k = none) :
    s.get t k = none := by
  simp [get, h]

variable [DecidableEq K]

/-- Store a value until `expires`. -/
def set (s : Store K V) (k : K) (v : V) (expires : ℤ) : Store K V :=
  Function.update s k (some ⟨v, expires⟩)

/-- Remove a key. -/
def del (s : Store K V) (k : K) : Store K V := Function.update s k none

@[simp] theorem set_same (s : Store K V) (k : K) (v : V) (e : ℤ) :
    s.set k v e k = some ⟨v, e⟩ := Function.update_self ..

@[simp] theorem set_of_ne (s : Store K V) {k k' : K} (v : V) (e : ℤ) (h : k' ≠ k) :
    s.set k v e k' = s k' := Function.update_of_ne h ..

@[simp] theorem del_same (s : Store K V) (k : K) : s.del k k = none := Function.update_self ..

@[simp] theorem del_of_ne (s : Store K V) {k k' : K} (h : k' ≠ k) : s.del k k' = s k' :=
  Function.update_of_ne h ..

/-- Removing any key leaves an absent entry absent. -/
theorem del_eq_none {s : Store K V} {k : K} (h : s k = none) (k' : K) : s.del k' k = none := by
  by_cases hk : k = k'
  · subst hk
    exact s.del_same k
  · rw [del_of_ne s hk, h]

end Store

end KeyValue
