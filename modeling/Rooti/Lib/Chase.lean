import Mathlib.Data.Fintype.Card
import Mathlib.Logic.Relation

/-!
# Following links until one repeats

A loop follows the link of each node to the next, looks at every node it comes to,
and stops at the end of the links, at a node it has been to, or at a node it looks
for.  Among finitely many nodes it stops, and stopping at a repeated node loses
none: whatever comes after it has been looked at.

## Main definitions

* `Chase.loop` — the loop, given some number of iterations
* `Chase.Leads` — the nodes the links lead to
* `Chase.loop_of_card_lt` — enough iterations for the answer
-/

namespace Chase

universe u

variable {α : Type u} (next : α → Option α) (hit : α → Bool)

/-- The links lead from a node to another, in any number of steps. -/
def Leads : α → α → Prop := Relation.ReflTransGen fun a b => next a = some b

/-- A node that is looked for comes at or after the node. -/
def Found (a : α) : Prop := ∃ b, Leads next a b ∧ hit b = true

/-- Nothing is looked for among the nodes seen, and their links lead to nodes seen, or to
the one the loop has come to. -/
structure Searched (seen : List α) (current : Option α) : Prop where
  nodup : seen.Nodup
  missed : ∀ a ∈ seen, hit a = false
  closed : ∀ a ∈ seen, ∀ b, next a = some b → b ∈ seen ∨ current = some b

theorem searched_nil (current : Option α) : Searched next hit [] current where
  nodup := List.nodup_nil
  missed := nofun
  closed := nofun

variable {next hit}

/-- The loop looks at a node it has not been to, and goes on. -/
theorem Searched.cons {seen : List α} {a : α}
    (h : Searched next hit seen (some a)) (hnew : a ∉ seen)
    (hmiss : hit a = false) : Searched next hit (a :: seen) (next a) where
  nodup := List.nodup_cons.mpr ⟨hnew, h.nodup⟩
  missed := List.forall_mem_cons.mpr ⟨hmiss, h.missed⟩
  closed := by
    refine List.forall_mem_cons.mpr ⟨fun b hb => .inr hb, fun a' ha' b hb => ?_⟩
    obtain hseen | hcurrent := h.closed a' ha' b hb
    · exact .inl (List.mem_cons_of_mem _ hseen)
    · obtain rfl := Option.some.inj hcurrent
      exact .inl List.mem_cons_self

/-- **A node that repeats loses nothing**: the links lead to nodes seen only. -/
theorem Searched.not_found {seen : List α} {a : α}
    (h : Searched next hit seen (some a)) (hseen : a ∈ seen) :
    ¬Found next hit a := by
  have hall : ∀ b, Leads next a b → b ∈ seen := by
    intro b hleads
    induction hleads with
    | refl => exact hseen
    | tail _ hlink ih =>
        obtain hmem | hcurrent := h.closed _ ih _ hlink
        · exact hmem
        · obtain rfl := Option.some.inj hcurrent
          exact hseen
  rintro ⟨b, hleads, hhit⟩
  rw [h.missed b (hall b hleads)] at hhit
  cases hhit

theorem found_of_hit {a : α} (h : hit a = true) : Found next hit a := ⟨a, .refl, h⟩

/-- A node that is not looked for is passed over. -/
theorem found_iff_of_miss {a : α} (h : hit a = false) :
    Found next hit a ↔ ∃ b, next a = some b ∧ Found next hit b := by
  constructor
  · rintro ⟨c, hleads, hhit⟩
    obtain rfl | ⟨b, hlink, hrest⟩ := Relation.ReflTransGen.cases_head hleads
    · rw [h] at hhit
      cases hhit
    · exact ⟨b, hlink, c, hrest, hhit⟩
  · rintro ⟨b, hlink, c, hrest, hhit⟩
    exact ⟨c, .head hlink hrest, hhit⟩

/-! ## The loop -/

variable [DecidableEq α]

variable (next hit) in
/-- **The loop**: the nodes seen so far, and the one it has come to.  It answers
nothing when it runs out of iterations. -/
def loop : ℕ → List α → Option α → Option Bool
  | 0, _, _ => none
  | _ + 1, _, none => some false
  | fuel + 1, seen, some a =>
      if a ∈ seen then some false
      else if hit a then some true
      else loop fuel (a :: seen) (next a)

/-- What the loop answers, whenever it does. -/
theorem loop_eq_some {fuel : ℕ} {seen : List α} {current : Option α} {answer : Bool}
    (h : Searched next hit seen current)
    (hloop : loop next hit fuel seen current = some answer) :
    answer = true ↔ ∃ a, current = some a ∧ Found next hit a := by
  induction fuel generalizing seen current with
  | zero => cases hloop
  | succ fuel ih =>
      cases current with
      | none =>
          cases hloop
          exact iff_of_false nofun nofun
      | some a =>
          rw [loop] at hloop
          have hcurrent : (∃ b, some a = some b ∧ Found next hit b) ↔ Found next hit a := by
            simp only [Option.some.injEq, exists_eq_left']
          rw [hcurrent]
          by_cases hseen : a ∈ seen
          · rw [if_pos hseen] at hloop
            cases hloop
            exact iff_of_false nofun (h.not_found hseen)
          · rw [if_neg hseen] at hloop
            cases hhit : hit a with
            | true =>
                rw [if_pos hhit] at hloop
                cases hloop
                exact iff_of_true rfl (found_of_hit hhit)
            | false =>
                rw [if_neg (by simp [hhit])] at hloop
                rw [ih (h.cons hseen hhit) hloop, found_iff_of_miss hhit]

/-- Nodes are left to look at as long as the loop goes on. -/
theorem exists_loop [Fintype α] {fuel : ℕ} {seen : List α} {current : Option α}
    (h : Searched next hit seen current)
    (hfuel : Fintype.card α < fuel + seen.length) :
    ∃ answer, loop next hit fuel seen current = some answer := by
  induction fuel generalizing seen current with
  | zero =>
      have hle : seen.length ≤ Fintype.card α := h.nodup.length_le_card
      omega
  | succ fuel ih =>
      cases current with
      | none => exact ⟨false, rfl⟩
      | some a =>
          rw [loop]
          by_cases hseen : a ∈ seen
          · exact ⟨false, if_pos hseen⟩
          · rw [if_neg hseen]
            cases hhit : hit a with
            | true => exact ⟨true, if_pos rfl⟩
            | false =>
                rw [if_neg Bool.false_ne_true]
                refine ih (h.cons hseen hhit) ?_
                rw [List.length_cons]
                omega

variable (next hit) in
/-- **The loop stops, with the answer**: as many iterations as there are nodes, and one
more, are enough. -/
theorem loop_of_card_lt [Fintype α] (a : α) :
    ∃ answer, (∀ fuel, Fintype.card α < fuel → loop next hit fuel [] (some a) = some answer) ∧
      (answer = true ↔ Found next hit a) := by
  classical
  refine ⟨decide (Found next hit a), fun fuel hfuel => ?_, decide_eq_true_iff⟩
  obtain ⟨answer, hanswer⟩ :=
    exists_loop (searched_nil next hit (some a)) (by simpa using hfuel)
  have hiff := loop_eq_some (searched_nil next hit (some a)) hanswer
  rw [hanswer, Option.some.injEq, Bool.eq_iff_iff, hiff, decide_eq_true_iff]
  simp only [Option.some.injEq, exists_eq_left']

end Chase
