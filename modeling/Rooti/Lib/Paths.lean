import Mathlib.Data.List.Infix
import Mathlib.Tactic.Tauto

/-!
# Paths and their texts

A path is a list of names, from the root down.  A text is read as a path by
cutting it at the separators: an empty component and a single dot stay where one
is, two dots go up, every other component goes down.

The text of a path puts a separator before every name.  Texts do not compare as
paths do: the text of one path begins with the text of another when the other is
an initial part of it, but also when the other's last name is only the beginning
of a name.

## Main definitions

* `Name`, `Move`, `walk` — the components of a text and where they lead
* `moves` — the components of a text
* `text` — the text of a path
* `Overhangs` — the paths that only their texts place below another

## Main results

* `moves_append_cons`, `walk_append` — the parts of a text
* `text_prefix_iff` — beginnings of texts against beginnings of paths
-/

namespace Paths

/-! ## Where a text leads -/

/-- One component of a path that has not been normalised. -/
inductive Move (ν : Type*)
  | stay
  | up
  | down (name : ν)

section Walk

variable {ν : Type*}

/-- Where the components lead from `here`; at the root, up stays there. -/
def walk (here : List ν) : List (Move ν) → List ν
  | [] => here
  | .stay :: ms => walk here ms
  | .up :: ms => walk here.dropLast ms
  | .down n :: ms => walk (here ++ [n]) ms

theorem walk_append (here : List ν) (ms ks : List (Move ν)) :
    walk here (ms ++ ks) = walk (walk here ms) ks := by
  induction ms generalizing here with
  | nil => rfl
  | cons m ms ih => cases m <;> exact ih _

/-- **A path without an upward step** stays below where it starts. -/
theorem prefix_walk {here : List ν} {ms : List (Move ν)} (h : .up ∉ ms) :
    here <+: walk here ms := by
  induction ms generalizing here with
  | nil => exact List.prefix_refl here
  | cons m ms ih =>
      have hrest : .up ∉ ms := fun hmem => h (List.mem_cons_of_mem m hmem)
      cases m with
      | stay => exact ih hrest
      | up => exact absurd List.mem_cons_self h
      | down n => exact (List.prefix_append here [n]).trans (ih hrest)

end Walk

variable {α : Type*} [DecidableEq α] (sep dot : α)

/-- A component that names something. -/
def IsName (c : List α) : Prop := c ≠ [] ∧ sep ∉ c ∧ c ≠ [dot] ∧ c ≠ [dot, dot]

instance : DecidablePred (IsName sep dot) := fun _ => inferInstanceAs (Decidable (_ ∧ _))

/-- The names of a path. -/
abbrev Name := {c : List α // IsName sep dot c}

/-- What a component does. -/
def Move.read (c : List α) : Move (Name sep dot) :=
  if h : IsName sep dot c then .down ⟨c, h⟩ else if c = [dot, dot] then .up else .stay

/-- The components of a text. -/
def moves (s : List α) : List (Move (Name sep dot)) := (s.splitOn sep).map (Move.read sep dot)

theorem Move.read_name {c : List α} (h : IsName sep dot c) : Move.read sep dot c = .down ⟨c, h⟩ :=
  dif_pos h

theorem Move.read_stay {c : List α} (h : c = [] ∨ c = [dot]) : Move.read sep dot c = .stay := by
  obtain rfl | rfl := h
  · rw [Move.read, dif_neg fun hname => hname.1 rfl, if_neg (List.cons_ne_nil _ _).symm]
  · rw [Move.read, dif_neg fun hname => hname.2.2.1 rfl, if_neg (by simp)]

theorem Move.read_eq_up {c : List α} (h : Move.read sep dot c = .up) : c = [dot, dot] := by
  unfold Move.read at h
  split_ifs at h with _ hup
  exact hup

theorem moves_append_cons (a b : List α) :
    moves sep dot (a ++ sep :: b) = moves sep dot a ++ moves sep dot b := by
  rw [moves, List.splitOn_append_cons_self, List.map_append]
  rfl

/-- A component is made of the letters of the text. -/
theorem mem_of_mem_splitOn {s c : List α} (hc : c ∈ s.splitOn sep) {x : α} (hx : x ∈ c) :
    x ∈ s := by
  induction s generalizing c with
  | nil =>
      rw [List.splitOn_nil, List.mem_singleton] at hc
      exact hc ▸ hx
  | cons y ys ih =>
      rw [List.splitOn_cons_eq_if_modifyHead] at hc
      obtain ⟨first, others, hsplit⟩ := List.exists_cons_of_ne_nil (List.splitOn_ne_nil sep ys)
      rw [hsplit] at hc ih
      split at hc
      · obtain rfl | hrest := List.mem_cons.mp hc
        · cases hx
        · exact List.mem_cons_of_mem y (ih hrest hx)
      · obtain rfl | hrest := List.mem_cons.mp hc
        · obtain rfl | hfirst := List.mem_cons.mp hx
          · exact List.mem_cons_self
          · exact List.mem_cons_of_mem y (ih List.mem_cons_self hfirst)
        · exact List.mem_cons_of_mem y (ih (List.mem_cons_of_mem first hrest) hx)

/-- No component has a separator. -/
theorem not_mem_of_mem_splitOn {s c : List α} (hc : c ∈ s.splitOn sep) : sep ∉ c := by
  induction s generalizing c with
  | nil =>
      rw [List.splitOn_nil, List.mem_singleton] at hc
      exact hc ▸ List.not_mem_nil
  | cons y ys ih =>
      rw [List.splitOn_cons_eq_if_modifyHead] at hc
      obtain ⟨first, others, hsplit⟩ := List.exists_cons_of_ne_nil (List.splitOn_ne_nil sep ys)
      rw [hsplit] at hc ih
      split at hc
      · obtain rfl | hrest := List.mem_cons.mp hc
        · exact List.not_mem_nil
        · exact ih hrest
      case isFalse hne =>
        obtain rfl | hrest := List.mem_cons.mp hc
        · intro hmem
          obtain rfl | hfirst := List.mem_cons.mp hmem
          · exact hne (beq_self_eq_true _)
          · exact ih List.mem_cons_self hfirst
        · exact ih (List.mem_cons_of_mem first hrest)

/-- Every letter of the text other than a separator is in a component. -/
theorem exists_mem_splitOn {s : List α} {x : α} (hne : x ≠ sep) (hx : x ∈ s) :
    ∃ c ∈ s.splitOn sep, x ∈ c := by
  induction s with
  | nil => cases hx
  | cons y ys ih =>
      rw [List.splitOn_cons_eq_if_modifyHead]
      obtain ⟨first, others, hsplit⟩ := List.exists_cons_of_ne_nil (List.splitOn_ne_nil sep ys)
      rw [hsplit] at ih ⊢
      obtain rfl | hys := List.mem_cons.mp hx
      · rw [if_neg (by simpa using hne)]
        exact ⟨x :: first, List.mem_cons_self, List.mem_cons_self⟩
      · obtain ⟨c, hc, hxc⟩ := ih hys
        split
        · exact ⟨c, List.mem_cons_of_mem _ hc, hxc⟩
        · obtain rfl | hrest := List.mem_cons.mp hc
          · exact ⟨y :: c, List.mem_cons_self, List.mem_cons_of_mem y hxc⟩
          · exact ⟨c, List.mem_cons_of_mem _ hrest, hxc⟩

/-- **Only a dot leads upwards.** -/
theorem up_not_mem_moves {s : List α} (h : dot ∉ s) : .up ∉ moves sep dot s := by
  intro hmem
  obtain ⟨c, hc, hread⟩ := List.mem_map.mp hmem
  refine h (mem_of_mem_splitOn sep hc ?_)
  rw [Move.read_eq_up sep dot hread]
  exact List.mem_cons_self

/-! ## The text of a path -/

/-- A separator before every name. -/
def spelled (p : List (Name sep dot)) : List α := p.flatMap fun n => sep :: n.1

/-- The text of a path; the root is the separator alone. -/
def text (p : List (Name sep dot)) : List α := if p = [] then [sep] else spelled sep dot p

variable {sep dot}

/-- **A path that only its text places below**: at the last name of the first path the
second has a longer name that begins with it. -/
def Overhangs : List (Name sep dot) → List (Name sep dot) → Prop
  | [], _ => False
  | [_], [] => False
  | [a], b :: _ => a ≠ b ∧ a.1 <+: b.1
  | _ :: _ :: _, [] => False
  | a :: a' :: as, b :: bs => a = b ∧ Overhangs (a' :: as) bs

instance : ∀ as bs : List (Name sep dot), Decidable (Overhangs as bs)
  | [], _ => isFalse id
  | [_], [] => isFalse id
  | [a], b :: _ => inferInstanceAs (Decidable (a ≠ b ∧ a.1 <+: b.1))
  | _ :: _ :: _, [] => isFalse id
  | a :: a' :: as, b :: bs =>
      haveI := instDecidableOverhangs (a' :: as) bs
      inferInstanceAs (Decidable (a = b ∧ Overhangs (a' :: as) bs))

omit [DecidableEq α] in
/-- A path that overhangs another does not lead to it. -/
theorem Overhangs.not_prefix {as bs : List (Name sep dot)} (h : Overhangs as bs) : ¬as <+: bs := by
  induction as, bs using Overhangs.induct with
  | case1 | case2 | case4 => exact h.elim
  | case3 a b bs => exact fun hprefix => h.1 (List.cons_prefix_cons.mp hprefix).1
  | case5 a a' as b bs ih => exact fun hprefix => ih h.2 (List.cons_prefix_cons.mp hprefix).2

/-- **Two components and what follows them**: a separator, or nothing. -/
theorem append_prefix_append_iff {x y r s : List α} (hx : sep ∉ x) (hy : sep ∉ y)
    (hr : ∀ c ∈ r.head?, c = sep) (hs : ∀ c ∈ s.head?, c = sep) :
    x ++ r <+: y ++ s ↔ x = y ∧ r <+: s ∨ r = [] ∧ x ≠ y ∧ x <+: y := by
  induction x generalizing y with
  | nil =>
      cases y with
      | nil => simp
      | cons b y =>
          cases r with
          | nil => simp
          | cons c r =>
              -- what follows the first component would have to be the second
              have hc : c = sep := hr c rfl
              have hb : sep ≠ b := fun h => hy (h ▸ List.mem_cons_self)
              simp [hc, hb]
  | cons a x ih =>
      have ha : a ≠ sep := fun h => hx (h ▸ List.mem_cons_self)
      cases y with
      | nil =>
          cases s with
          | nil => simp
          | cons c s =>
              have hc : c = sep := hs c rfl
              simp [hc, ha]
      | cons b y =>
          rw [List.cons_append, List.cons_append, List.cons_prefix_cons, List.cons_prefix_cons,
            ih (fun h => hx (List.mem_cons_of_mem a h)) (fun h => hy (List.mem_cons_of_mem b h)),
            and_or_left, ← and_assoc, List.cons.injEq]
          refine or_congr_right ?_
          by_cases hab : a = b
          · simp [hab]
          · simp [hab]

omit [DecidableEq α] in
theorem head?_spelled (p : List (Name sep dot)) : ∀ c ∈ (spelled sep dot p).head?, c = sep := by
  cases p with
  | nil => nofun
  | cons n p =>
      rintro c hc
      exact (Option.some.inj hc).symm

omit [DecidableEq α] in
theorem spelled_eq_nil_iff {p : List (Name sep dot)} : spelled sep dot p = [] ↔ p = [] := by
  cases p with
  | nil => exact ⟨fun _ => rfl, fun _ => rfl⟩
  | cons n p => exact iff_of_false (List.cons_ne_nil _ _) (List.cons_ne_nil n p)

theorem spelled_prefix_iff (as bs : List (Name sep dot)) :
    spelled sep dot as <+: spelled sep dot bs ↔ as <+: bs ∨ Overhangs as bs := by
  induction as generalizing bs with
  | nil => simp [spelled]
  | cons a as ih =>
      cases bs with
      | nil => cases as <;> simp [spelled, Overhangs]
      | cons b bs =>
          have hcut : spelled sep dot (a :: as) <+: spelled sep dot (b :: bs) ↔
              a.1 ++ spelled sep dot as <+: b.1 ++ spelled sep dot bs := by
            rw [spelled, List.flatMap_cons, spelled, List.flatMap_cons, List.cons_append,
              List.cons_append, List.cons_prefix_cons, and_iff_right rfl]
            rfl
          rw [hcut, append_prefix_append_iff a.2.2.1 b.2.2.1 (head?_spelled as) (head?_spelled bs),
            ih, spelled_eq_nil_iff, List.cons_prefix_cons, ne_eq, ← Subtype.ext_iff]
          cases as with
          | nil => simp [Overhangs]
          | cons a' as =>
              -- more names follow, so the two first names are the same
              simp only [reduceCtorEq, false_and, or_false, Overhangs]
              exact and_or_left

/-- **Texts against paths**: one text begins with another exactly when the paths do, or the
first overhangs the second. -/
theorem text_prefix_iff (as bs : List (Name sep dot)) :
    text sep dot as <+: text sep dot bs ↔ as <+: bs ∨ Overhangs as bs := by
  rw [← spelled_prefix_iff]
  cases as with
  | nil =>
      cases bs with
      | nil => simp [text, spelled]
      | cons b bs => simp [text, spelled]
  | cons a as =>
      cases bs with
      | nil =>
          obtain ⟨c, cs, hname⟩ := List.exists_cons_of_ne_nil a.2.1
          simp [text, spelled, hname]
      | cons b bs => rfl

end Paths
