import Rooti.Lib.Interference
import Rooti.Lib.Protocol

/-!
# Races for a state of affairs

Something may be brought about once: a name is taken, a seat is filled, and from then on it stays
so.  Of parties that report success only if they themselves have brought it about, at most one
reports success, and none if it was so from the beginning.

Whether a party has brought it about is kept next to its own state (`Machine.racing`); keeping it
changes nothing about a run, and the triples of a script say the same of the machine that keeps it
(`Among.beside`).  A party that has won stays the winner, so what remains to be proved of a
contender is that the command which makes it succeed is the one that brings it about.

## Main definitions

* `Machine.racing`, `Pool.racing` — parties that know whether they have won
* `Assertion.beside`, `Assertion.winner` — what is known of their state
* `Pool.Among.one_winner` — at most one of them has
-/

namespace Program

variable {C : Type → Type 1} {E L S ι α : Type}

namespace Machine

variable {m : Machine C E L S} {T : S → Prop}

/-- The machine that keeps for every party whether a command of it has brought `T` about. -/
def racing (m : Machine C E L S) (T : S → Prop) : Machine C E (L × Prop) S where
  exec c l s := ((m.exec c l.1 s).1,
    ((m.exec c l.1 s).2.1, l.2 ∨ ¬T s ∧ T (m.exec c l.1 s).2.2), (m.exec c l.1 s).2.2)

end Machine

namespace Assertion

variable {R : Rely S}

/-- What is known of the own state, whoever has won. -/
def beside (P : Assertion L R) : Assertion (L × Prop) R := ⟨fun l s => P l.1 s, P.stable⟩

/-- The party has won. -/
def winner : Assertion (L × Prop) R := .own fun l => l.2

end Assertion

namespace Machine.Among

variable {m : Machine C E L S} {T : S → Prop} {R G : Rely S} {p : Prog C E α}

/-- **A triple says the same of a party in a race.** -/
theorem beside {P : Assertion L R} {Q : α → Assertion L R} {X : E → Assertion L R}
    (h : m.Among R G P p Q X) :
    (m.racing T).Among R G P.beside p (fun a => (Q a).beside) fun e => (X e).beside := by
  intro l s hP
  have hsafe := h l.1 s hP
  clear h hP
  induction p generalizing l s with
  | ret a => exact hsafe
  | raise e => exact hsafe
  | call c k ih => exact fun s' hs => ⟨(hsafe s' hs).1, ih _ _ _ (hsafe s' hs).2⟩

end Machine.Among

namespace Pool

variable {m : Machine C E L S} {T : S → Prop} {R G : ι → Rely S}
  {Q : ι → Except E α → L × Prop → S → Prop}

/-- Nobody has won yet. -/
def racing (p : Pool C E L S ι α) : Pool C E (L × Prop) S ι α where
  prog := p.prog
  loc i := (p.loc i, False)
  shared := p.shared

/-- The party has won. -/
def Won (p : Pool C E (L × Prop) S ι α) (i : ι) : Prop := (p.loc i).2

variable [DecidableEq ι] {p : Pool C E (L × Prop) S ι α}

theorem forget_step_racing (i : ι) :
    (step (m.racing T) p i).forget = step m p.forget i := by
  unfold step
  simp only [forget]
  split
  · rfl
  · rfl
  · simp only [Machine.racing]
    congr 1
    funext j
    by_cases hj : j = i
    · subst hj
      simp
    · simp [hj]

/-- **The race changes nothing about a run.** -/
theorem forget_play_racing (sched : List ι) :
    (play (m.racing T) p sched).forget = play m p.forget sched := by
  induction sched generalizing p with
  | nil => rfl
  | cons i sched ih => rw [play_cons, play_cons, ih, forget_step_racing]

theorem play_racing (p : Pool C E L S ι α) (sched : List ι) :
    (play (m.racing T) p.racing sched).prog = (play m p sched).prog ∧
      (play (m.racing T) p.racing sched).shared = (play m p sched).shared := by
  have hforget := forget_play_racing (m := m) (T := T) (p := p.racing) sched
  exact ⟨congrArg Pool.prog hforget, congrArg Pool.shared hforget⟩

/-- Who wins by a step brings `T` about. -/
theorem won_step {i j : ι} (h : (step (m.racing T) p i).Won j) :
    p.Won j ∨ j = i ∧ ¬T p.shared ∧ T (step (m.racing T) p i).shared := by
  cases hi : p.prog i with
  | ret a => exact .inl (by rwa [step_of_finished (.inl ⟨a, hi⟩)] at h)
  | raise e => exact .inl (by rwa [step_of_finished (.inr ⟨e, hi⟩)] at h)
  | call c k =>
      rw [step_call hi] at h ⊢
      by_cases hj : j = i
      · subst hj
        simp only [Won, Function.update_self] at h
        exact h.imp_right fun h => ⟨rfl, h⟩
      · simp only [Won, Function.update_of_ne hj] at h
        exact .inl h

/-- What is known of the winners: `T` has been brought about, by one of them at most. -/
structure OneWinner (T : S → Prop) (p : Pool C E (L × Prop) S ι α) : Prop where
  brought : ∀ i, p.Won i → T p.shared
  unique : ∀ i j, p.Won i → p.Won j → i = j

theorem OneWinner.step (h : OneWinner T p) {i : ι}
    (hkeep : T p.shared → T (Pool.step (m.racing T) p i).shared) :
    OneWinner T (Pool.step (m.racing T) p i) where
  brought j hj := by
    obtain hj | ⟨-, -, hT⟩ := won_step hj
    · exact hkeep (h.brought j hj)
    · exact hT
  unique j j' hj hj' := by
    obtain hj | ⟨rfl, hfalse, -⟩ := won_step hj
    · obtain hj' | ⟨-, hfalse, -⟩ := won_step hj'
      · exact h.unique j j' hj hj'
      · exact absurd (h.brought j hj) hfalse
    · obtain hj' | ⟨rfl, -, -⟩ := won_step hj'
      · exact absurd (h.brought j' hj') hfalse
      · rfl

/-- What is kept while the parties move. -/
theorem Among.race {p : Pool C E (L × Prop) S ι α}
    (hG : ∀ i j, i ≠ j → ∀ s s', (G i).may s s' → (R j).may s s')
    (hkeep : ∀ i s s', (G i).may s s' → T s → T s')
    (h : p.Among (m.racing T) R G Q) (hone : OneWinner T p) (sched : List ι) :
    OneWinner T (Pool.play (m.racing T) p sched) ∧
      (T p.shared → (∀ i, ¬p.Won i) → ∀ i, ¬(Pool.play (m.racing T) p sched).Won i) := by
  induction sched generalizing p with
  | nil => exact ⟨hone, fun _ => id⟩
  | cons i sched ih =>
      obtain ⟨hsafe, hstep⟩ := h.step hG i
      have hT := hkeep i _ _ hstep
      obtain ⟨hone', hnone'⟩ := ih hsafe (hone.step hT)
      refine ⟨hone', fun hstart hnone => hnone' (hT hstart) fun j hj => ?_⟩
      obtain hj | ⟨-, hfalse, -⟩ := won_step hj
      · exact hnone j hj
      · exact hfalse hstart

/-- **A race has one winner**, and none if nothing was left to bring about. -/
theorem Among.one_winner {p : Pool C E L S ι α}
    (hG : ∀ i j, i ≠ j → ∀ s s', (G i).may s s' → (R j).may s s')
    (hkeep : ∀ i s s', (G i).may s s' → T s → T s')
    (h : p.racing.Among (m.racing T) R G Q) (sched : List ι) :
    OneWinner T (Pool.play (m.racing T) p.racing sched) ∧
      (T p.shared → ∀ i, ¬(Pool.play (m.racing T) p.racing sched).Won i) := by
  obtain ⟨hone, hnone⟩ := h.race hG hkeep ⟨fun _ h => h.elim, fun _ _ h => h.elim⟩ sched
  exact ⟨hone, fun hT => hnone hT fun _ => id⟩

end Pool

end Program
