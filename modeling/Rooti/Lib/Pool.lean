import Rooti.Lib.Program

/-!
# Interleaved programs

A `Pool` holds any number of running scripts, each with a state of its own, over
one shared state.  One step lets one party issue its next command; a schedule is
the list of the parties in the order they move, so "every interleaving" is
"every schedule".  A party that has returned or raised ignores further turns.

One rule carries the proofs.  `Guarded` restricts attention to schedules each of
whose steps meets a condition on the pool it is taken in, and `Guarded.invariant`
is the induction over such a schedule.

## Main definitions

* `Pool`, `Pool.step`, `Pool.play` — states, single steps and schedules
* `Pool.Finished` — a party that has returned or raised
* `Pool.Guarded` — schedules whose steps all meet a condition
-/

namespace Program

variable {C : Type → Type 1} {E L S ι α : Type}

/-- Running scripts over a shared state. -/
structure Pool (C : Type → Type 1) (E L S ι α : Type) where
  prog : ι → Prog C E α
  loc : ι → L
  shared : S

namespace Pool

/-- The party has nothing left to do. -/
def Finished (p : Pool C E L S ι α) (i : ι) : Prop :=
  (∃ a, p.prog i = .ret a) ∨ ∃ e, p.prog i = .raise e

/-- The party has returned `a`. -/
def Returned (p : Pool C E L S ι α) (i : ι) (a : α) : Prop := p.prog i = .ret a

/-- What a party has returned, if anything. -/
def answer? (p : Pool C E L S ι α) (i : ι) : Option α :=
  match p.prog i with
  | .ret a => some a
  | _ => none

theorem returned_of_answer? {p : Pool C E L S ι α} {i : ι} (h : (p.answer? i).isSome) :
    ∃ a, p.Returned i a := by
  unfold answer? at h
  split at h
  · next a ha => exact ⟨a, ha⟩
  · cases h

variable [DecidableEq ι] (m : Machine C E L S)

/-- Party `i` issues its next command. -/
def step (p : Pool C E L S ι α) (i : ι) : Pool C E L S ι α :=
  match p.prog i with
  | .ret _ => p
  | .raise _ => p
  | .call c k =>
      let r := m.exec c (p.loc i) p.shared
      { prog := Function.update p.prog i (k r.1)
        loc := Function.update p.loc i r.2.1
        shared := r.2.2 }

/-- The parties move in the order of the schedule. -/
def play (p : Pool C E L S ι α) : List ι → Pool C E L S ι α
  | [] => p
  | i :: is => play (step m p i) is

/-- Every step of the schedule is taken in a pool that allows it. -/
def Guarded (ok : Pool C E L S ι α → ι → Prop) (p : Pool C E L S ι α) : List ι → Prop
  | [] => True
  | i :: is => ok p i ∧ Guarded ok (step m p i) is

instance decidableGuarded {ok : Pool C E L S ι α → ι → Prop} [∀ p i, Decidable (ok p i)] :
    (p : Pool C E L S ι α) → (is : List ι) → Decidable (Guarded m ok p is)
  | _, [] => isTrue trivial
  | p, i :: is => @instDecidableAnd _ _ _ (decidableGuarded (step m p i) is)

variable {m} {p : Pool C E L S ι α} {i j : ι}

@[simp] theorem play_nil : play m p [] = p := rfl

@[simp] theorem play_cons (is : List ι) : play m p (i :: is) = play m (step m p i) is := rfl

theorem step_of_finished (h : p.Finished i) : step m p i = p := by
  obtain ⟨a, h⟩ | ⟨e, h⟩ := h <;> simp [step, h]

theorem step_call {β : Type} {c : C β} {k : Except E β → Prog C E α}
    (h : p.prog i = .call c k) :
    step m p i =
      { prog := Function.update p.prog i (k (m.exec c (p.loc i) p.shared).1)
        loc := Function.update p.loc i (m.exec c (p.loc i) p.shared).2.1
        shared := (m.exec c (p.loc i) p.shared).2.2 } := by
  simp [step, h]

/-- **Other parties keep their scripts.** -/
theorem step_prog_of_ne (h : j ≠ i) : (step m p i).prog j = p.prog j := by
  unfold step
  split <;> simp [h]

/-- **An invariant of allowed steps holds along every schedule of allowed
steps.** -/
theorem Guarded.invariant {ok : Pool C E L S ι α → ι → Prop}
    {I : Pool C E L S ι α → Prop}
    (hstep : ∀ p i, ok p i → I p → I (step m p i)) (hp : I p) {is : List ι}
    (h : Guarded m ok p is) : I (play m p is) := by
  induction is generalizing p with
  | nil => exact hp
  | cons i is ih => exact ih (hstep p i h.1 hp) h.2

/-- The parties may move as long as an invariant allows them to. -/
theorem Guarded.of_invariant {ok : Pool C E L S ι α → ι → Prop} {I : Pool C E L S ι α → Prop}
    {is : List ι} (hok : ∀ p, I p → ∀ i ∈ is, ok p i)
    (hstep : ∀ p, I p → ∀ i ∈ is, I (step m p i)) (hp : I p) : Guarded m ok p is := by
  induction is generalizing p with
  | nil => trivial
  | cons i is ih =>
      exact ⟨hok p hp i List.mem_cons_self,
        ih (fun q hq j hj => hok q hq j (List.mem_cons_of_mem _ hj))
          (fun q hq j hj => hstep q hq j (List.mem_cons_of_mem _ hj))
          (hstep p hp i List.mem_cons_self)⟩

theorem Guarded.append {ok : Pool C E L S ι α → ι → Prop} {is js : List ι}
    (h : Guarded m ok p is) (h' : Guarded m ok (play m p is) js) : Guarded m ok p (is ++ js) := by
  induction is generalizing p with
  | nil => exact h'
  | cons i is ih => exact ⟨h.1, ih h.2 h'⟩

/-- The guard may know that whoever moves is in the schedule. -/
theorem Guarded.mem {ok : Pool C E L S ι α → ι → Prop} {is : List ι} (h : Guarded m ok p is) :
    Guarded m (fun q i => i ∈ is ∧ ok q i) p is := by
  have hsub : ∀ is' ⊆ is, ∀ p, Guarded m ok p is' →
      Guarded m (fun q i => i ∈ is ∧ ok q i) p is' := by
    intro is' hsub p h
    induction is' generalizing p with
    | nil => trivial
    | cons i is' ih =>
        exact ⟨⟨hsub List.mem_cons_self, h.1⟩,
          ih (fun _ hj => hsub (List.mem_cons_of_mem _ hj)) _ h.2⟩
  exact hsub is (List.Subset.refl is) p h

/-- **What a party has when it moves, and nobody takes from it**, everybody in the schedule has in
the end. -/
theorem Guarded.gather {ok : Pool C E L S ι α → ι → Prop} {I : Pool C E L S ι α → Prop}
    {φ : ι → Pool C E L S ι α → Prop} (hstep : ∀ p i, ok p i → I p → I (step m p i))
    (hnow : ∀ p i, ok p i → I p → φ i p)
    (hkeep : ∀ p i j, ok p i → I p → φ j p → φ j (step m p i)) (hp : I p) {is : List ι}
    (h : Guarded m ok p is) : ∀ i ∈ is, φ i (play m p is) := by
  have hlater : ∀ is p, I p → Guarded m ok p is → ∀ j, φ j p → φ j (play m p is) := by
    intro is
    induction is with
    | nil => exact fun _ _ _ _ => id
    | cons i is ih =>
        exact fun p hp h j hj => ih _ (hstep p i h.1 hp) h.2 j (hkeep p i j h.1 hp hj)
  induction is generalizing p with
  | nil => rintro i ⟨⟩
  | cons j is ih =>
      rintro i hi
      obtain rfl | hi := List.mem_cons.mp hi
      · exact hlater is _ (hstep p i h.1 hp) h.2 i (hkeep p i i h.1 hp (hnow p i h.1 hp))
      · exact ih (hstep p j h.1 hp) h.2 i hi

end Pool

end Program
