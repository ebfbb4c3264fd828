import Rooti.Lib.Interference

/-!
# Invariants of all parties at once

Some invariants relate the own states of several parties, so that no party can be asked to keep
them by itself: that what one party has drawn no other party has drawn, say.  If every command the
parties may ever issue keeps such an invariant, whichever party issues it, then the invariant holds
along every schedule (`Obeys.play`).

## Main definitions

* `Pool.Obeys` — pools whose parties issue only commands of some kind
* `Machine.Upholds` — an invariant of all states that these commands keep
-/

namespace Program

variable {C : Type → Type 1} {E L S ι α : Type}

/-- **An invariant of the states of all parties**, kept by commands of a kind, whoever issues
them. -/
def Machine.Upholds [DecidableEq ι] (m : Machine C E L S) (ok : ∀ {γ : Type}, C γ → Prop)
    (I : (ι → L) → S → Prop) : Prop :=
  ∀ {γ : Type} (c : C γ), ok c → ∀ loc i s, I loc s →
    I (Function.update loc i (m.exec c (loc i) s).2.1) (m.exec c (loc i) s).2.2

namespace Pool

variable {m : Machine C E L S} {ok : ∀ {γ : Type}, C γ → Prop} {p : Pool C E L S ι α}

/-- **The parties issue only commands of a kind.** -/
def Obeys (ok : ∀ {γ : Type}, C γ → Prop) (p : Pool C E L S ι α) : Prop :=
  ∀ i, (p.prog i).Only ok

variable [DecidableEq ι] {I : (ι → L) → S → Prop}

theorem play_append (p : Pool C E L S ι α) (is js : List ι) :
    play m p (is ++ js) = play m (play m p is) js := by
  induction is generalizing p with
  | nil => rfl
  | cons i is ih => exact ih (step m p i)

namespace Obeys

/-- One step of obedient parties. -/
theorem step (hI : m.Upholds ok I) (hp : p.Obeys ok) (h : I p.loc p.shared) (i : ι) :
    (Pool.step m p i).Obeys ok ∧ I (Pool.step m p i).loc (Pool.step m p i).shared := by
  have honly := hp i
  cases hi : p.prog i with
  | ret a =>
      rw [step_of_finished (.inl ⟨a, hi⟩)]
      exact ⟨hp, h⟩
  | raise e =>
      rw [step_of_finished (.inr ⟨e, hi⟩)]
      exact ⟨hp, h⟩
  | call c k =>
      rw [hi] at honly
      rw [step_call hi]
      refine ⟨fun j => ?_, hI c honly.1 p.loc i p.shared h⟩
      by_cases hj : j = i
      · subst hj
        simpa using honly.2 _
      · simpa [hj] using hp j

/-- **What is upheld holds along every schedule.** -/
theorem play (hI : m.Upholds ok I) (hp : p.Obeys ok) (h : I p.loc p.shared) (sched : List ι) :
    (Pool.play m p sched).Obeys ok ∧
      I (Pool.play m p sched).loc (Pool.play m p sched).shared := by
  induction sched generalizing p with
  | nil => exact ⟨hp, h⟩
  | cons i sched ih =>
      obtain ⟨hp', h'⟩ := hp.step hI h i
      exact ih hp' h'

end Obeys

end Pool

end Program
