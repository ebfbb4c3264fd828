import Mathlib.Data.Int.Notation
import Mathlib.Data.List.Nodup

/-!
# JSON documents

The trees a JSON parser builds, with decidable equality.  A number written
without fraction and exponent is an `int`; any other number is kept in decimal
form, `num m e` standing for `m · 10 ^ e`.
-/

/-- A JSON document. -/
inductive Json
  | null
  | bool (b : Bool)
  | int (n : ℤ)
  | num (mantissa exponent : ℤ)
  | str (s : String)
  | arr (items : List Json)
  | obj (fields : List (String × Json))

namespace Json

instance : Inhabited Json := ⟨null⟩

mutual

/-- Equality of documents, decided along their structure. -/
def decEq : (a b : Json) → Decidable (a = b)
  | null, b => match b with
      | null => isTrue rfl
      | bool _ | int _ | num .. | str _ | arr _ | obj _ => isFalse (by simp)
  | bool x, b => match b with
      | bool y => decidable_of_iff (x = y) (by simp)
      | null | int _ | num .. | str _ | arr _ | obj _ => isFalse (by simp)
  | int x, b => match b with
      | int y => decidable_of_iff (x = y) (by simp)
      | null | bool _ | num .. | str _ | arr _ | obj _ => isFalse (by simp)
  | num m e, b => match b with
      | num m' e' => decidable_of_iff (m = m' ∧ e = e') (by simp)
      | null | bool _ | int _ | str _ | arr _ | obj _ => isFalse (by simp)
  | str x, b => match b with
      | str y => decidable_of_iff (x = y) (by simp)
      | null | bool _ | int _ | num .. | arr _ | obj _ => isFalse (by simp)
  | arr xs, b => match b with
      | arr ys => @decidable_of_iff _ (xs = ys) (by simp) (decEqItems xs ys)
      | null | bool _ | int _ | num .. | str _ | obj _ => isFalse (by simp)
  | obj xs, b => match b with
      | obj ys => @decidable_of_iff _ (xs = ys) (by simp) (decEqFields xs ys)
      | null | bool _ | int _ | num .. | str _ | arr _ => isFalse (by simp)

/-- Equality of array items. -/
def decEqItems : (xs ys : List Json) → Decidable (xs = ys)
  | [], [] => isTrue rfl
  | [], _ :: _ => isFalse (by simp)
  | _ :: _, [] => isFalse (by simp)
  | x :: xs, y :: ys =>
      match decEq x y, decEqItems xs ys with
      | isTrue h, isTrue hs => isTrue (by rw [h, hs])
      | isFalse h, _ => isFalse fun e => h (List.cons.inj e).1
      | _, isFalse hs => isFalse fun e => hs (List.cons.inj e).2

/-- Equality of object fields. -/
def decEqFields : (xs ys : List (String × Json)) → Decidable (xs = ys)
  | [], [] => isTrue rfl
  | [], _ :: _ => isFalse (by simp)
  | _ :: _, [] => isFalse (by simp)
  | (k, x) :: xs, (k', y) :: ys =>
      match decEq x y, decEqFields xs ys with
      | isTrue h, isTrue hs =>
          decidable_of_iff (k = k') (by simp [h, hs])
      | isFalse h, _ => isFalse fun e => h (Prod.mk.inj (List.cons.inj e).1).2
      | _, isFalse hs => isFalse fun e => hs (List.cons.inj e).2

end

instance : DecidableEq Json := decEq

/-- The value an object holds under a key: the last one, as a parser filling a
dictionary keeps it. -/
def field? (key : String) : Json → Option Json
  | obj fields => (fields.reverse.find? fun f => f.1 = key).map Prod.snd
  | _ => none

theorem field?_eq_none {key : String} {fields : List (String × Json)}
    (h : key ∉ fields.map Prod.fst) : (obj fields).field? key = none := by
  have hnone : fields.reverse.find? (fun f => f.1 = key) = none := by
    rw [List.find?_eq_none]
    intro f hf hk
    exact h (List.mem_map.mpr ⟨f, List.mem_reverse.mp hf, by simpa using hk⟩)
  simp [field?, hnone]

/-- The value under a key no other entry has. -/
theorem field?_of_mem {key : String} {j : Json} {fields : List (String × Json)}
    (hnodup : (fields.map Prod.fst).Nodup) (hmem : (key, j) ∈ fields) :
    (obj fields).field? key = some j := by
  have hunique : ∀ f ∈ fields.reverse, f.1 = key → f = (key, j) := fun f hf hk =>
    List.inj_on_of_nodup_map hnodup (List.mem_reverse.mp hf) hmem hk
  rw [field?]
  cases hfind : fields.reverse.find? fun f => f.1 = key with
  | none =>
      have := List.find?_eq_none.mp hfind (key, j) (List.mem_reverse.mpr hmem)
      simp at this
  | some f =>
      rw [hunique f (List.mem_of_find?_eq_some hfind) (by simpa using List.find?_some hfind)]
      rfl

end Json
