import Rooti.Lib.Program

/-!
# Pre- and postconditions of programs

`m.Ensures P p Q R` says that a run of the script `p` on the machine `m` started
in a state satisfying `P` ends in a state satisfying `Q a` when it returns `a`,
and in one satisfying `R` when it raises.  There is one rule for each way a
script is built.  An invariant (`Machine.Keeps`) is the case in which all three
agree.

## Main definitions

* `Machine.Ensures` — the triples
* `Ensures.bind`, `Ensures.lift`, `Ensures.ite`, `Ensures.handle` — the rules
* `Machine.Keeps` — invariants

## Two postconditions

A script that raises leaves a state behind, and what handles the exception goes on from
there, so a triple says what holds then as well. It is one assertion for the whole
script: every command that may raise has to provide it, which is why the rules for
sequences and branches have the same `R` above and below. Most uses take for it that
nothing has been committed yet.

An assertion is a predicate on the private and on the shared state. What is known about
a value a script has returned is passed on by `Ensures.of_and`, and does not have to be
carried along in the assertions.
-/

namespace Program

universe u v w

variable {C : Type u → Type v} {E α β : Type u} {L S : Type w} {m : Machine C E L S}

namespace Machine

/-- **A triple**: from `P`, the script returns into `Q` or raises into `R`. -/
def Ensures (m : Machine C E L S) (P : L → S → Prop) (p : Prog C E α)
    (Q : α → L → S → Prop) (R : L → S → Prop) : Prop :=
  ∀ l s, P l s →
    match m.run p l s with
    | (.ok a, l', s') => Q a l' s'
    | (.error _, l', s') => R l' s'

namespace Ensures

variable {P P' : L → S → Prop} {Q Q' : α → L → S → Prop} {R R' : L → S → Prop}
  {p : Prog C E α}

/-- Returning. -/
theorem ret {a : α} (h : ∀ l s, P l s → Q a l s) : m.Ensures P (.ret a) Q R := h

/-- Raising. -/
theorem raise {e : E} (h : ∀ l s, P l s → R l s) : m.Ensures P (.raise e) Q R := h

/-- One script after another: the first hands over what it returns. -/
theorem bind {f : α → Prog C E β} {Q' : β → L → S → Prop} (hp : m.Ensures P p Q R)
    (hf : ∀ a, m.Ensures (Q a) (f a) Q' R) : m.Ensures P (p.bind f) Q' R := by
  intro l s h
  have hps := hp l s h
  rw [run_bind]
  cases hrun : m.run p l s with
  | mk r rest =>
      obtain ⟨l', s'⟩ := rest
      rw [hrun] at hps
      cases r with
      | ok a => exact hf a l' s' hps
      | error e => exact hps

/-- A single command. -/
theorem lift {c : C α}
    (h : ∀ l s, P l s →
      match m.exec c l s with
      | (.ok a, l', s') => Q a l' s'
      | (.error _, l', s') => R l' s') :
    m.Ensures P (Prog.lift c) Q R := by
  intro l s hP
  rw [run_lift]
  exact h l s hP

/-- Either branch. -/
theorem ite {b : Prop} [Decidable b] {p' : Prog C E α} (h : b → m.Ensures P p Q R)
    (h' : ¬b → m.Ensures P p' Q R) : m.Ensures P (if b then p else p') Q R := by
  split
  · next hb => exact h hb
  · next hb => exact h' hb

/-- A script, and what handles its exceptions. -/
theorem handle {h : E → Prog C E α} {M : L → S → Prop} (hp : m.Ensures P p Q M)
    (hh : ∀ e, m.Ensures M (h e) Q R) : m.Ensures P (p.handle h) Q R := by
  intro l s hP
  have hps := hp l s hP
  rw [run_handle]
  cases hrun : m.run p l s with
  | mk r rest =>
      obtain ⟨l', s'⟩ := rest
      rw [hrun] at hps
      cases r with
      | ok a => exact hps
      | error e => exact hh e l' s' hps

/-- A stronger precondition, weaker postconditions. -/
theorem weaken (h : m.Ensures P p Q R) (hP : ∀ l s, P' l s → P l s)
    (hQ : ∀ a l s, Q a l s → Q' a l s) (hR : ∀ l s, R l s → R' l s) :
    m.Ensures P' p Q' R' := by
  intro l s hP'
  have := h l s (hP l s hP')
  cases hrun : m.run p l s with
  | mk r rest =>
      rw [hrun] at this
      cases r with
      | ok a => exact hQ _ _ _ this
      | error e => exact hR _ _ this

/-- What the precondition says about values alone may be assumed. -/
theorem of_and {φ : Prop} (h : φ → m.Ensures P p Q R) :
    m.Ensures (fun l s => φ ∧ P l s) p Q R := fun l s hP => h hP.1 l s hP.2

/-- A witness of the precondition may be named. -/
theorem of_exists {ι : Sort _} {P : ι → L → S → Prop} (h : ∀ i, m.Ensures (P i) p Q R) :
    m.Ensures (fun l s => ∃ i, P i l s) p Q R := fun l s ⟨i, hP⟩ => h i l s hP

/-- A check. -/
theorem raiseIf {b : Bool} {e : E} {Q : PUnit → L → S → Prop}
    (h : b = false → ∀ l s, P l s → Q ⟨⟩ l s) (h' : b = true → ∀ l s, P l s → R l s) :
    m.Ensures P (Prog.raiseIf b e) Q R := by
  cases b
  · exact h rfl
  · exact h' rfl

/-- A value that has to be there. -/
theorem orRaise {e : E} {o : Option α} (h : ∀ a, o = some a → ∀ l s, P l s → Q a l s)
    (h' : o = none → ∀ l s, P l s → R l s) : m.Ensures P (Prog.orRaise e o) Q R := by
  cases o with
  | none => exact h' rfl
  | some a => exact h a rfl

end Ensures

/-- A triple read at one run. -/
theorem Ensures.run_ok {P : L → S → Prop} {Q : α → L → S → Prop} {R : L → S → Prop}
    {p : Prog C E α} (h : m.Ensures P p Q R) {l l' : L} {s s' : S} {a : α} (hP : P l s)
    (hrun : m.run p l s = (.ok a, l', s')) : Q a l' s' := by
  have := h l s hP
  rwa [hrun] at this

/-- A triple read at a run that raises. -/
theorem Ensures.run_error {P : L → S → Prop} {Q : α → L → S → Prop} {R : L → S → Prop}
    {p : Prog C E α} (h : m.Ensures P p Q R) {l l' : L} {s s' : S} {e : E} (hP : P l s)
    (hrun : m.run p l s = (.error e, l', s')) : R l' s' := by
  have := h l s hP
  rwa [hrun] at this

/-- Either outcome of a run, by a triple. -/
theorem Ensures.run_cases {P : L → S → Prop} {Q : α → L → S → Prop} {R : L → S → Prop}
    {p : Prog C E α} (h : m.Ensures P p Q R) {l : L} {s : S} (hP : P l s) :
    (∃ e l' s', m.run p l s = (.error e, l', s') ∧ R l' s') ∨
      ∃ a l' s', m.run p l s = (.ok a, l', s') ∧ Q a l' s' := by
  rcases hrun : m.run p l s with ⟨e | a, l', s'⟩
  · exact .inl ⟨e, l', s', rfl, h.run_error hP hrun⟩
  · exact .inr ⟨a, l', s', rfl, h.run_ok hP hrun⟩

/-- **An invariant**: the script keeps it, whether it returns or raises. -/
def Keeps (m : Machine C E L S) (I : L → S → Prop) (p : Prog C E α) : Prop :=
  m.Ensures I p (fun _ => I) I

namespace Keeps

variable {I : L → S → Prop} {p : Prog C E α}

/-- Returning keeps everything. -/
theorem ret {a : α} : m.Keeps I (.ret a) := fun _ _ h => h

/-- So does raising. -/
theorem raise {e : E} : m.Keeps I (.raise e : Prog C E α) := fun _ _ h => h

/-- An invariant of both is one of the sequence. -/
theorem bind {f : α → Prog C E β} (hp : m.Keeps I p) (hf : ∀ a, m.Keeps I (f a)) :
    m.Keeps I (p.bind f) := Ensures.bind hp hf

/-- A single command has to keep it. -/
theorem lift {c : C α} (h : ∀ l s, I l s → I (m.exec c l s).2.1 (m.exec c l s).2.2) :
    m.Keeps I (Prog.lift c) := by
  refine Ensures.lift fun l s hI => ?_
  have := h l s hI
  rcases hc : m.exec c l s with ⟨_ | _, l', s'⟩ <;> simpa [hc] using this

/-- An invariant of either branch. -/
theorem ite {b : Prop} [Decidable b] {p' : Prog C E α} (h : b → m.Keeps I p)
    (h' : ¬b → m.Keeps I p') : m.Keeps I (if b then p else p') := Ensures.ite h h'

/-- An invariant of a script and of what handles its exceptions. -/
theorem handle {h : E → Prog C E α} (hp : m.Keeps I p) (hh : ∀ e, m.Keeps I (h e)) :
    m.Keeps I (p.handle h) := Ensures.handle hp hh

/-- A value that has to be there. -/
theorem orRaise {e : E} {o : Option α} : m.Keeps I (Prog.orRaise e o) :=
  Ensures.orRaise (fun _ _ _ _ h => h) fun _ _ _ h => h

/-- A check. -/
theorem raiseIf {b : Bool} {e : E} : m.Keeps I (Prog.raiseIf b e) := by
  cases b
  · exact ret
  · exact raise

/-- A computation. -/
theorem ofExcept {r : Except E α} : m.Keeps I (Prog.ofExcept r) := by
  cases r
  · exact raise
  · exact ret

/-- **An invariant of every command is an invariant of every script.** -/
theorem of_exec
    (h : ∀ {γ : Type u} (c : C γ) l s, I l s → I (m.exec c l s).2.1 (m.exec c l s).2.2)
    (p : Prog C E α) : m.Keeps I p := by
  induction p with
  | ret a => exact ret
  | raise e => exact raise
  | call c k ih => exact fun l s hI => ih _ _ _ (h c l s hI)

/-- An invariant of the commands a script issues is an invariant of the script. -/
theorem of_only {ok : ∀ {γ : Type u}, C γ → Prop} (hp : p.Only ok)
    (h : ∀ {γ : Type u} (c : C γ), ok c →
      ∀ l s, I l s → I (m.exec c l s).2.1 (m.exec c l s).2.2) :
    m.Keeps I p := by
  induction p with
  | ret a => exact ret
  | raise e => exact raise
  | call c k ih => exact fun l s hI => ih _ (hp.2 _) _ _ (h c hp.1 l s hI)

/-- An invariant read at one run. -/
theorem run (h : m.Keeps I p) {l : L} {s : S} (hI : I l s) :
    I (m.run p l s).2.1 (m.run p l s).2.2 := by
  have := h l s hI
  rcases hr : m.run p l s with ⟨_ | _, l', s'⟩ <;> simpa [hr] using this

end Keeps

end Machine

end Program
