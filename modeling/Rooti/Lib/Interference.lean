import Rooti.Lib.Pool

/-!
# Scripts under interference

A script that runs among others finds the shared state, at each of its commands, as the others
have left it.  What they may do to it is a `Rely`, a relation that is closed under doing
nothing and under doing one thing after the other.  An `Assertion` is a property the others
cannot break; it carries the proof of that, so that no rule has a side condition about it.

`m.Among R G P p Q X` is the triple of such a script: from `P` on, whatever the others do
within `R`, its commands stay within `G`, it returns into `Q` and raises into `X`.  The rules
are those of a script that runs by itself.  `Pool.Among.play` brings the triples of many scripts
together: the commands of each have to stay within what the others rely on.

## Main definitions

* `Rely`, `Assertion` — what others may do, and what they cannot break
* `Prog.Returns` — what a script may return
* `Machine.Safe`, `Machine.Among` — a script from a state on, and the triples
* `Pool.Among` — a pool whose parties are all safe
* `Pool.Among.play`, `Pool.Among.total` — safety along every schedule, and what the steps of a
  schedule add up to
* `Pool.Arriving` — parties that are safe once they begin

## Why assertions carry their stability

In the usual rules every precondition has to be shown stable wherever it is used. Here a
property that the others can break cannot be written as an `Assertion` at all, so the
rules for sequences, branches and handlers are those of `Lib.Hoare` and ask for nothing
more. What is true only between two commands of one's own has to be a property of the
own state (`Assertion.own`), or has to be weakened to what survives.

`Machine.Safe` is defined by recursion on the script, with the moves of the others in
front of each command. A script that is safe stays so while the others move
(`Safe.stable`), and this is the whole of the induction along a schedule: the party
whose turn it is takes one command off its script, and the others stay safe because what
it does is among what they rely on.
-/

namespace Program

/-- **What may be done to a shared state**. -/
structure Rely (S : Type) where
  may : S → S → Prop
  refl : ∀ s, may s s
  trans : ∀ {s s' s''}, may s s' → may s' s'' → may s s''

namespace Rely

variable {S : Type}

/-- A property may come to hold; it may not be lost. -/
def keeping (J : S → Prop) : Rely S where
  may s s' := J s → J s'
  refl _ h := h
  trans h h' hs := h' (h hs)

/-- A part of the state stays as it is. -/
def frame {β : Type} (f : S → β) : Rely S where
  may s s' := f s' = f s
  refl _ := rfl
  trans h h' := h'.trans h

/-- What may be done to a part of the state. -/
def comap {T : Type} (f : T → S) (R : Rely S) : Rely T where
  may t t' := R.may (f t) (f t')
  refl t := R.refl (f t)
  trans h h' := R.trans h h'

end Rely

variable {C : Type → Type 1} {E L S α β : Type}

/-- **A property that others cannot break** while they stay within `R`. -/
structure Assertion (L : Type) (R : Rely S) where
  holds : L → S → Prop
  stable : ∀ {l s s'}, R.may s s' → holds l s → holds l s'

namespace Assertion

variable {R : Rely S}

instance : CoeFun (Assertion L R) fun _ => L → S → Prop := ⟨holds⟩

/-- A property of the own state is out of reach. -/
def own (φ : L → Prop) : Assertion L R := ⟨fun l _ => φ l, fun _ h => h⟩

/-- A fact about values alone, next to an assertion. -/
def knowing (φ : Prop) (P : Assertion L R) : Assertion L R :=
  ⟨fun l s => φ ∧ P l s, fun hs h => ⟨h.1, P.stable hs h.2⟩⟩

/-- A property of the shared state that the others keep. -/
def shared (φ : S → Prop) (h : ∀ {s s'}, R.may s s' → φ s → φ s') : Assertion L R :=
  ⟨fun _ => φ, h⟩

/-- Two assertions at once. -/
def both (P P' : Assertion L R) : Assertion L R :=
  ⟨fun l s => P l s ∧ P' l s, fun hs h => ⟨P.stable hs h.1, P'.stable hs h.2⟩⟩

end Assertion

namespace Prog

/-- **Every value a script may return** has the property, whatever the script is answered. -/
def Returns (φ : α → Prop) : Prog C E α → Prop
  | ret a => φ a
  | raise _ => True
  | call _ k => ∀ r, Returns φ (k r)

/-- A script returns what its last part returns, for what the first part may return. -/
theorem Returns.andThen {φ : β → Prop} {ψ : α → Prop} {p : Prog C E α} {f : α → Prog C E β}
    (hp : p.Returns ψ) (hf : ∀ a, ψ a → (f a).Returns φ) : (p.bind f).Returns φ := by
  induction p with
  | ret a => exact hf a hp
  | raise e => trivial
  | call c k ih => exact fun r => ih r (hp r)

/-- Nothing is said about what it returns. -/
theorem Returns.any {p : Prog C E α} : p.Returns fun _ => True := by
  induction p with
  | ret a => trivial
  | raise e => trivial
  | call c k ih => exact ih

/-- What the last part returns, whatever it is given. -/
theorem Returns.bind {φ : β → Prop} {p : Prog C E α} {f : α → Prog C E β}
    (hf : ∀ a, (f a).Returns φ) : (p.bind f).Returns φ := Returns.any.andThen fun a _ => hf a

/-- What is returned has a weaker property, too. -/
theorem Returns.mono {φ ψ : α → Prop} {p : Prog C E α} (hp : p.Returns φ) (h : ∀ a, φ a → ψ a) :
    p.Returns ψ := by
  induction p with
  | ret a => exact h a hp
  | raise e => trivial
  | call c k ih => exact fun r => ih r (hp r)

/-- A script and what handles its exceptions. -/
theorem Returns.handle {φ : α → Prop} {p : Prog C E α} {h : E → Prog C E α} (hp : p.Returns φ)
    (hh : ∀ e, (h e).Returns φ) : (p.handle h).Returns φ := by
  induction p with
  | ret a => exact hp
  | raise e => exact hh e
  | call c k ih => exact fun r => ih r (hp r)

end Prog

namespace Machine

variable {m : Machine C E L S} {R G : Rely S}

/-- **A script from a state on**: whatever the others do within `R` before each of its
commands, these stay within `G`, and its outcome is as `Q` has it. -/
def Safe (m : Machine C E L S) (R G : Rely S) (Q : Except E α → L → S → Prop) :
    Prog C E α → L → S → Prop
  | .ret a, l, s => ∀ s', R.may s s' → Q (.ok a) l s'
  | .raise e, l, s => ∀ s', R.may s s' → Q (.error e) l s'
  | .call c k, l, s => ∀ s', R.may s s' → G.may s' (m.exec c l s').2.2 ∧
      Safe m R G Q (k (m.exec c l s').1) (m.exec c l s').2.1 (m.exec c l s').2.2

/-- A script stays safe while the others move. -/
theorem Safe.stable {Q : Except E α → L → S → Prop} {p : Prog C E α} {l : L} {s s' : S}
    (h : m.Safe R G Q p l s) (hs : R.may s s') : m.Safe R G Q p l s' := by
  cases p with
  | ret a => exact fun s'' hs' => h s'' (R.trans hs hs')
  | raise e => exact fun s'' hs' => h s'' (R.trans hs hs')
  | call c k => exact fun s'' hs' => h s'' (R.trans hs hs')

/-- The outcome of a script that returns into `Q` and raises into `X`. -/
def outcome (Q : α → Assertion L R) (X : E → Assertion L R) : Except E α → L → S → Prop
  | .ok a => Q a
  | .error e => X e

/-- **A triple among others**. -/
def Among (m : Machine C E L S) (R G : Rely S) (P : Assertion L R) (p : Prog C E α)
    (Q : α → Assertion L R) (X : E → Assertion L R) : Prop :=
  ∀ l s, P l s → m.Safe R G (outcome Q X) p l s

namespace Among

variable {P P' : Assertion L R} {Q Q' : α → Assertion L R} {X X' : E → Assertion L R}
  {p : Prog C E α}

/-- Returning. -/
theorem ret {a : α} (h : ∀ l s, P l s → Q a l s) : m.Among R G P (.ret a) Q X :=
  fun l _ hP s' hs => h l s' (P.stable hs hP)

/-- Raising. -/
theorem raise {e : E} (h : ∀ l s, P l s → X e l s) : m.Among R G P (.raise e) Q X :=
  fun l _ hP s' hs => h l s' (P.stable hs hP)

/-- One script after another; in between the others may move. -/
theorem bind {f : α → Prog C E β} {Q' : β → Assertion L R} (hp : m.Among R G P p Q X)
    (hf : ∀ a, m.Among R G (Q a) (f a) Q' X) : m.Among R G P (p.bind f) Q' X := by
  intro l s hP
  have hsafe := hp l s hP
  clear hp hP
  induction p generalizing l s with
  | ret a => exact hf a l s (hsafe s (R.refl s))
  | raise e => exact hsafe
  | call c k ih => exact fun s' hs => ⟨(hsafe s' hs).1, ih _ _ _ (hsafe s' hs).2⟩

/-- A script and what handles its exceptions. -/
theorem handle {h : E → Prog C E α} {M : E → Assertion L R} (hp : m.Among R G P p Q M)
    (hh : ∀ e, m.Among R G (M e) (h e) Q X) : m.Among R G P (p.handle h) Q X := by
  intro l s hP
  have hsafe := hp l s hP
  clear hp hP
  induction p generalizing l s with
  | ret a => exact hsafe
  | raise e => exact hh e l s (hsafe s (R.refl s))
  | call c k ih => exact fun s' hs => ⟨(hsafe s' hs).1, ih _ _ _ (hsafe s' hs).2⟩

/-- **A command**, executed in any state the others may have left. -/
theorem lift {c : C α}
    (h : ∀ l s, P l s → G.may s (m.exec c l s).2.2 ∧
      outcome Q X (m.exec c l s).1 (m.exec c l s).2.1 (m.exec c l s).2.2) :
    m.Among R G P (Prog.lift c) Q X := by
  intro l s hP s' hs
  obtain ⟨hstep, hdone⟩ := h l s' (P.stable hs hP)
  refine ⟨hstep, ?_⟩
  revert hdone
  generalize m.exec c l s' = r
  obtain ⟨e | a, l', s''⟩ := r
  · exact fun hdone s''' hs' => (X e).stable hs' hdone
  · exact fun hdone s''' hs' => (Q a).stable hs' hdone

/-- Either branch. -/
theorem ite {b : Prop} [Decidable b] {p' : Prog C E α} (h : b → m.Among R G P p Q X)
    (h' : ¬b → m.Among R G P p' Q X) : m.Among R G P (if b then p else p') Q X := by
  split
  · next hb => exact h hb
  · next hb => exact h' hb

/-- A value that has to be there. -/
theorem orRaise {e : E} {o : Option α} (h : ∀ a, o = some a → ∀ l s, P l s → Q a l s)
    (h' : ∀ l s, P l s → X e l s) : m.Among R G P (Prog.orRaise e o) Q X := by
  cases o with
  | none => exact raise h'
  | some a => exact ret (h a rfl)

/-- A check. -/
theorem raiseIf {b : Bool} {e : E} {Q : PUnit → Assertion L R}
    (h : b = false → ∀ l s, P l s → Q ⟨⟩ l s) (h' : ∀ l s, P l s → X e l s) :
    m.Among R G P (Prog.raiseIf b e) Q X := by
  cases b
  · exact ret (h rfl)
  · exact raise h'

/-- A computation. -/
theorem ofExcept {r : Except E α} (h : ∀ a, r = .ok a → ∀ l s, P l s → Q a l s)
    (h' : ∀ e, r = .error e → ∀ l s, P l s → X e l s) :
    m.Among R G P (Prog.ofExcept r) Q X := by
  cases r with
  | ok a => exact ret (h a rfl)
  | error e => exact raise (h' e rfl)

/-- A stronger precondition, weaker postconditions. -/
theorem weaken (h : m.Among R G P p Q X) (hP : ∀ l s, P' l s → P l s)
    (hQ : ∀ a l s, Q a l s → Q' a l s) (hX : ∀ e l s, X e l s → X' e l s) :
    m.Among R G P' p Q' X' := by
  intro l s hP'
  have hsafe := h l s (hP l s hP')
  clear h hP'
  induction p generalizing l s with
  | ret a => exact fun s' hs => hQ a l s' (hsafe s' hs)
  | raise e => exact fun s' hs => hX e l s' (hsafe s' hs)
  | call c k ih => exact fun s' hs => ⟨(hsafe s' hs).1, ih _ _ _ (hsafe s' hs).2⟩

/-- Two triples of one script. -/
theorem both (h : m.Among R G P p Q X) (h' : m.Among R G P' p Q' X') :
    m.Among R G (P.both P') p (fun a => (Q a).both (Q' a)) fun e => (X e).both (X' e) := by
  intro l s hP
  have hsafe := h l s hP.1
  have hsafe' := h' l s hP.2
  clear h h' hP
  induction p generalizing l s with
  | ret a => exact fun s' hs => ⟨hsafe s' hs, hsafe' s' hs⟩
  | raise e => exact fun s' hs => ⟨hsafe s' hs, hsafe' s' hs⟩
  | call c k ih =>
      exact fun s' hs => ⟨(hsafe s' hs).1, ih _ _ _ (hsafe s' hs).2 (hsafe' s' hs).2⟩

/-- **What the others keep, a script keeps too** if its commands stay within what they do. -/
theorem frame (h : m.Among R G P p Q X) (hG : ∀ s s', G.may s s' → R.may s s') (φ : S → Prop)
    (hφ : ∀ {s s'}, R.may s s' → φ s → φ s') :
    m.Among R G (P.both (.shared φ hφ)) p (fun a => (Q a).both (.shared φ hφ))
      fun e => (X e).both (.shared φ hφ) := by
  rintro l s ⟨hP, hs₀⟩
  have hsafe := h l s hP
  clear h hP
  induction p generalizing l s with
  | ret a => exact fun s' hs => ⟨hsafe s' hs, hφ hs hs₀⟩
  | raise e => exact fun s' hs => ⟨hsafe s' hs, hφ hs hs₀⟩
  | call c k ih =>
      intro s' hs
      obtain ⟨hstep, hrest⟩ := hsafe s' hs
      exact ⟨hstep, ih _ _ _ (hφ (hG _ _ hstep) (hφ hs hs₀)) hrest⟩

/-- **A property of the own state** that the commands of a script keep. -/
theorem frameOwn {ok : ∀ {γ : Type}, C γ → Prop} {φ : L → Prop} (h : m.Among R G P p Q X)
    (hp : p.Only ok) (hφ : ∀ {γ : Type} (c : C γ), ok c → ∀ l s, φ l → φ (m.exec c l s).2.1) :
    m.Among R G (P.both (.own φ)) p (fun a => (Q a).both (.own φ))
      fun e => (X e).both (.own φ) := by
  rintro l s ⟨hP, hl⟩
  have hsafe := h l s hP
  clear h hP
  induction p generalizing l s with
  | ret a => exact fun s' hs => ⟨hsafe s' hs, hl⟩
  | raise e => exact fun s' hs => ⟨hsafe s' hs, hl⟩
  | call c k ih =>
      intro s' hs
      obtain ⟨hstep, hrest⟩ := hsafe s' hs
      exact ⟨hstep, ih _ (hp.2 _) _ _ (hφ c hp.1 l s' hl) hrest⟩

/-- What is known about values alone may be assumed. -/
theorem of_knowing {φ : Prop} (h : φ → m.Among R G P p Q X) :
    m.Among R G (P.knowing φ) p Q X := fun l s hP => h hP.1 l s hP.2

/-- What a script may return is known of what it has returned. -/
theorem returning {φ : α → Prop} (h : m.Among R G P p Q X) (hp : p.Returns φ) :
    m.Among R G P p (fun a => (Q a).knowing (φ a)) X := by
  intro l s hP
  have hsafe := h l s hP
  clear h hP
  induction p generalizing l s with
  | ret a => exact fun s' hs => ⟨hp, hsafe s' hs⟩
  | raise e => exact hsafe
  | call c k ih => exact fun s' hs => ⟨(hsafe s' hs).1, ih _ (hp _) _ _ (hsafe s' hs).2⟩

/-- **Commands that all keep an assertion** make a script that keeps it. -/
theorem of_only {ok : ∀ {γ : Type}, C γ → Prop} (hp : p.Only ok)
    (h : ∀ {γ : Type} (c : C γ), ok c → ∀ l s, P l s → G.may s (m.exec c l s).2.2 ∧
      P (m.exec c l s).2.1 (m.exec c l s).2.2) :
    m.Among R G P p (fun _ => P) fun _ => P := by
  induction p with
  | ret a => exact ret fun _ _ hP => hP
  | raise e => exact raise fun _ _ hP => hP
  | call c k ih =>
      intro l s hP s' hs
      obtain ⟨hstep, hP'⟩ := h c hp.1 l s' (P.stable hs hP)
      exact ⟨hstep, ih _ (hp.2 _) _ _ hP'⟩

end Among

end Machine

namespace Pool

variable {ι : Type} {m : Machine C E L S} {R G : ι → Rely S}
  {Q : ι → Except E α → L → S → Prop} {p : Pool C E L S ι α}

/-- **Every party is safe** from the state of the pool on. -/
def Among (m : Machine C E L S) (R G : ι → Rely S) (Q : ι → Except E α → L → S → Prop)
    (p : Pool C E L S ι α) : Prop :=
  ∀ i, m.Safe (R i) (G i) (Q i) (p.prog i) (p.loc i) p.shared

/-- The outcome of a party that has returned, whatever came after. -/
theorem Among.returned (h : p.Among m R G Q) {i : ι} {a : α} (hi : p.Returned i a) :
    Q i (.ok a) (p.loc i) p.shared := by
  have hsafe := h i
  rw [show p.prog i = .ret a from hi] at hsafe
  exact hsafe p.shared ((R i).refl p.shared)

variable [DecidableEq ι]

/-- One step of a pool of safe parties. -/
theorem Among.step (hG : ∀ i j, i ≠ j → ∀ s s', (G i).may s s' → (R j).may s s')
    (h : p.Among m R G Q) (i : ι) :
    (step m p i).Among m R G Q ∧ (G i).may p.shared (step m p i).shared := by
  have hsafe := h i
  cases hi : p.prog i with
  | ret a =>
      rw [step_of_finished (.inl ⟨a, hi⟩)]
      exact ⟨h, (G i).refl p.shared⟩
  | raise e =>
      rw [step_of_finished (.inr ⟨e, hi⟩)]
      exact ⟨h, (G i).refl p.shared⟩
  | call c k =>
      rw [hi] at hsafe
      obtain ⟨hstep, hrest⟩ := hsafe p.shared ((R i).refl p.shared)
      rw [step_call hi]
      refine ⟨fun j => ?_, hstep⟩
      by_cases hj : j = i
      · subst hj
        simpa using hrest
      · have hother : m.Safe (R j) (G j) (Q j) (p.prog j) (p.loc j)
            (m.exec c (p.loc i) p.shared).2.2 := (h j).stable (hG i j (Ne.symm hj) _ _ hstep)
        simpa [hj] using hother

/-- **Safe parties stay safe along every schedule.** -/
theorem Among.play (hG : ∀ i j, i ≠ j → ∀ s s', (G i).may s s' → (R j).may s s')
    (h : p.Among m R G Q) (sched : List ι) : (play m p sched).Among m R G Q := by
  induction sched generalizing p with
  | nil => exact h
  | cons i sched ih => exact ih (h.step hG i).1

/-- **What a schedule adds up to**: whatever the commands of every party may do. -/
theorem Among.total (hG : ∀ i j, i ≠ j → ∀ s s', (G i).may s s' → (R j).may s s')
    (h : p.Among m R G Q) {K : Rely S} (hK : ∀ i s s', (G i).may s s' → K.may s s')
    (sched : List ι) : K.may p.shared (Pool.play m p sched).shared := by
  induction sched generalizing p with
  | nil => exact K.refl p.shared
  | cons i sched ih =>
      obtain ⟨hsafe, hstep⟩ := h.step hG i
      exact K.trans (hK i _ _ hstep) (ih hsafe)

/-! ### Parties that arrive -/

/-- **Parties that have not begun are as they were**; those that have are safe. -/
def Arriving (m : Machine C E L S) (R G : ι → Rely S) (Q : ι → Except E α → L → S → Prop)
    (p₀ p : Pool C E L S ι α) : Prop :=
  ∀ i, (p.prog i = p₀.prog i ∧ p.loc i = p₀.loc i) ∨
    m.Safe (R i) (G i) (Q i) (p.prog i) (p.loc i) p.shared

variable {p₀ : Pool C E L S ι α}

/-- One step, where a party that begins is safe. -/
theorem Arriving.step (hG : ∀ i j, i ≠ j → ∀ s s', (G i).may s s' → (R j).may s s')
    (h : Arriving m R G Q p₀ p) {i : ι}
    (hstart : p.prog i = p₀.prog i → p.loc i = p₀.loc i →
      m.Safe (R i) (G i) (Q i) (p₀.prog i) (p₀.loc i) p.shared) :
    Arriving m R G Q p₀ (Pool.step m p i) ∧ (G i).may p.shared (Pool.step m p i).shared := by
  have hsafe : m.Safe (R i) (G i) (Q i) (p.prog i) (p.loc i) p.shared := by
    obtain ⟨hprog, hloc⟩ | hsafe := h i
    · rw [hprog, hloc]
      exact hstart hprog hloc
    · exact hsafe
  cases hi : p.prog i with
  | ret a =>
      rw [step_of_finished (.inl ⟨a, hi⟩)]
      exact ⟨h, (G i).refl p.shared⟩
  | raise e =>
      rw [step_of_finished (.inr ⟨e, hi⟩)]
      exact ⟨h, (G i).refl p.shared⟩
  | call c k =>
      rw [hi] at hsafe
      obtain ⟨hstep, hrest⟩ := hsafe p.shared ((R i).refl p.shared)
      rw [step_call hi]
      refine ⟨fun j => ?_, hstep⟩
      by_cases hj : j = i
      · subst hj
        exact .inr (by simpa using hrest)
      · obtain ⟨hprog, hloc⟩ | hother := h j
        · exact .inl ⟨by simpa [hj] using hprog, by simpa [hj] using hloc⟩
        · have hother := hother.stable (hG i j (Ne.symm hj) _ _ hstep)
          exact .inr (by simpa [hj] using hother)

/-- **A schedule in which whoever begins is safe then**: `ok` is what is known of the pool at
every step, and `K` what the steps add up to. -/
theorem Arriving.play (hG : ∀ i j, i ≠ j → ∀ s s', (G i).may s s' → (R j).may s s') {K : Rely S}
    (hK : ∀ i s s', (G i).may s s' → K.may s s') {ok : Pool C E L S ι α → ι → Prop}
    (hstart : ∀ p i, ok p i → Arriving m R G Q p₀ p → K.may p₀.shared p.shared →
      p.prog i = p₀.prog i → p.loc i = p₀.loc i →
      m.Safe (R i) (G i) (Q i) (p₀.prog i) (p₀.loc i) p.shared)
    {sched : List ι} (hguard : Guarded m ok p₀ sched) :
    Arriving m R G Q p₀ (Pool.play m p₀ sched) ∧
      K.may p₀.shared (Pool.play m p₀ sched).shared := by
  refine hguard.invariant (I := fun p => Arriving m R G Q p₀ p ∧ K.may p₀.shared p.shared)
    (fun p i hok ⟨h, hmay⟩ => ?_) ⟨fun i => .inl ⟨rfl, rfl⟩, K.refl p₀.shared⟩
  obtain ⟨h', hstep⟩ := h.step hG (hstart p i hok h hmay)
  exact ⟨h', K.trans hmay (hK i _ _ hstep)⟩

end Pool

end Program
