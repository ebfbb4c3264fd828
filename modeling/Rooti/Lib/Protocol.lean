import Rooti.Lib.Pool

/-!
# Protocols of commands

A `Protocol` is an automaton over the commands of a script: a stage, the commands
allowed in it, and the stage after a command, given the shared state it met and
its answer.  A script `Follows`
a protocol from a stage when every command it can come to issue is allowed at
that point, whatever the machine answered before; the stages it ends in are part
of the judgement, so that it composes along `bind` and `handle`.

A pool of scripts is read through their protocols by recording every party's
stage next to its own state (`Machine.watch`).  Recording changes nothing about
the run (`play_forget`), and the stages keep describing what is left of every
script (`Follows.step`).  An argument about interleavings is then one about
stages and the shared state.

## Main definitions

* `Protocol`, `Machine.Follows` — protocols and the scripts that follow them
* `Machine.watch`, `Pool.forget` — stages recorded along a run
* `Follows.step` — one step of a pool in terms of its stages
-/

namespace Program

variable {C : Type → Type 1} {E L S Q ι α β : Type}

/-- An automaton over commands and their answers. -/
structure Protocol (C : Type → Type 1) (E S Q : Type) where
  /-- the stage after a command met a shared state and was answered -/
  next : {β : Type} → Q → C β → S → Except E β → Q
  /-- the commands allowed in a stage -/
  allowed : {β : Type} → Q → C β → Prop

namespace Machine

variable {m : Machine C E L S} {P : Protocol C E S Q} {I : Q → L → S → Prop}

/-- **A script follows a protocol** from stage `q` on: while `I` relates its stage,
its own state and the shared state, it issues allowed commands only, and it ends
in a stage and with a result satisfying `done`. -/
def Follows (m : Machine C E L S) (P : Protocol C E S Q) (I : Q → L → S → Prop) :
    Prog C E α → Q → (Q → Except E α → Prop) → Prop
  | .ret a, q, done => done q (.ok a)
  | .raise e, q, done => done q (.error e)
  | .call c k, q, done => P.allowed q c ∧
      ∀ l s, I q l s → Follows m P I (k (m.exec c l s).1) (P.next q c s (m.exec c l s).1) done

namespace Follows

variable {p : Prog C E α} {q : Q} {done done' : Q → Except E α → Prop}

theorem ret {a : α} (h : done q (.ok a)) : m.Follows P I (.ret a) q done := h

theorem raise {e : E} (h : done q (.error e)) : m.Follows P I (.raise e) q done := h

theorem weaken (h : m.Follows P I p q done) (hd : ∀ q r, done q r → done' q r) :
    m.Follows P I p q done' := by
  induction p generalizing q with
  | ret a => exact hd _ _ h
  | raise e => exact hd _ _ h
  | call c k ih => exact ⟨h.1, fun l s hs => ih _ (h.2 l s hs)⟩

theorem bind {f : α → Prog C E β} {done : Q → Except E β → Prop}
    (h : m.Follows P I p q fun q' r =>
      match r with
      | .ok a => m.Follows P I (f a) q' done
      | .error e => done q' (.error e)) :
    m.Follows P I (p.bind f) q done := by
  induction p generalizing q with
  | ret a => exact h
  | raise e => exact h
  | call c k ih => exact ⟨h.1, fun l s hs => ih _ (h.2 l s hs)⟩

theorem handle {h : E → Prog C E α}
    (hp : m.Follows P I p q fun q' r =>
      match r with
      | .ok a => done q' (.ok a)
      | .error e => m.Follows P I (h e) q' done) :
    m.Follows P I (p.handle h) q done := by
  induction p generalizing q with
  | ret a => exact hp
  | raise e => exact hp
  | call c k ih => exact ⟨hp.1, fun l s hs => ih _ (hp.2 l s hs)⟩

theorem lift {c : C α} (h : P.allowed q c)
    (hd : ∀ l s, I q l s → done (P.next q c s (m.exec c l s).1) (m.exec c l s).1) :
    m.Follows P I (Prog.lift c) q done := by
  refine ⟨h, fun l s hs => ?_⟩
  have := hd l s hs
  revert this
  generalize (m.exec c l s).1 = r
  intro this
  cases r <;> exact this

theorem ite {b : Prop} [Decidable b] {p' : Prog C E α} (h : b → m.Follows P I p q done)
    (h' : ¬b → m.Follows P I p' q done) :
    m.Follows P I (if b then p else p') q done := by
  split
  · next hb => exact h hb
  · next hb => exact h' hb

theorem orRaise {e : E} {o : Option α} (h : ∀ a, o = some a → done q (.ok a))
    (h' : o = none → done q (.error e)) : m.Follows P I (Prog.orRaise e o) q done := by
  cases o with
  | none => exact h' rfl
  | some a => exact h a rfl

theorem raiseIf {b : Bool} {e : E} {done : Q → Except E PUnit → Prop}
    (h : b = false → done q (.ok ⟨⟩)) (h' : b = true → done q (.error e)) :
    m.Follows P I (Prog.raiseIf b e) q done := by
  cases b
  · exact h rfl
  · exact h' rfl

end Follows

/-- A script whose commands are all allowed in stage `q` and keep it. -/
theorem Follows.of_only {ok : ∀ {β : Type}, C β → Prop} {p : Prog C E α} (hp : p.Only ok) {q : Q}
    (h : ∀ {β : Type} (c : C β), ok c → P.allowed q c ∧ ∀ s r, P.next q c s r = q) :
    m.Follows P I p q fun q' _ => q' = q := by
  induction p with
  | ret a => exact rfl
  | raise e => exact rfl
  | call c k ih =>
      refine ⟨(h c hp.1).1, fun l s _ => ?_⟩
      rw [(h c hp.1).2]
      exact ih _ (hp.2 _)

/-- The machine that records every party's stage next to its own state. -/
def watch (m : Machine C E L S) (P : Protocol C E S Q) : Machine C E (L × Q) S where
  exec c lq s :=
    ((m.exec c lq.1 s).1, ((m.exec c lq.1 s).2.1, P.next lq.2 c s (m.exec c lq.1 s).1),
      (m.exec c lq.1 s).2.2)

end Machine

namespace Pool

variable {m : Machine C E L S} {P : Protocol C E S Q} {I : Q → L → S → Prop}
  {done : ι → Q → Except E α → Prop} {p : Pool C E (L × Q) S ι α}

/-- A pool of watched scripts, the recorded stages forgotten. -/
def forget (p : Pool C E (L × Q) S ι α) : Pool C E L S ι α where
  prog := p.prog
  loc := fun i => (p.loc i).1
  shared := p.shared

/-- The recorded stage of a party. -/
def stage (p : Pool C E (L × Q) S ι α) (i : ι) : Q := (p.loc i).2

/-- What is left of every script follows the protocol from the recorded stage. -/
def Follows (m : Machine C E L S) (P : Protocol C E S Q) (I : Q → L → S → Prop)
    (done : ι → Q → Except E α → Prop) (p : Pool C E (L × Q) S ι α) : Prop :=
  ∀ i, I (p.stage i) (p.loc i).1 p.shared ∧ m.Follows P I (p.prog i) (p.stage i) (done i)

variable [DecidableEq ι]

theorem step_forget (i : ι) : (step (m.watch P) p i).forget = step m p.forget i := by
  unfold step
  simp only [forget]
  split
  · rfl
  · rfl
  · simp only [Machine.watch]
    congr 1
    funext j
    by_cases hj : j = i
    · subst hj
      simp
    · simp [hj]

/-- **Recording the stages changes nothing about a run.** -/
theorem play_forget (sched : List ι) :
    (play (m.watch P) p sched).forget = play m p.forget sched := by
  induction sched generalizing p with
  | nil => rfl
  | cons i sched ih => rw [play_cons, play_cons, ih, step_forget]

theorem play_watch_prog (sched : List ι) (i : ι) :
    (play (m.watch P) p sched).prog i = (play m p.forget sched).prog i := by
  rw [← play_forget (P := P)]
  rfl

theorem play_watch_shared (sched : List ι) :
    (play (m.watch P) p sched).shared = (play m p.forget sched).shared := by
  rw [← play_forget (P := P)]
  rfl

omit [DecidableEq ι] in
/-- A returned party is in a stage its protocol may end in. -/
theorem Follows.returned (h : p.Follows m P I done) {i : ι} {a : α} (hi : p.prog i = .ret a) :
    done i (p.stage i) (.ok a) := by
  have := (h i).2
  rwa [hi] at this

/-- **A step, in terms of stages**: a finished party does nothing; any other
issues an allowed command, which is executed and moves the party's stage. -/
theorem Follows.step_cases (h : p.Follows m P I done) (i : ι) :
    (p.Finished i ∧ step (m.watch P) p i = p) ∨
      ∃ (β : Type) (c : C β) (k : Except E β → Prog C E α),
        p.prog i = .call c k ∧ P.allowed (p.stage i) c ∧
        (step (m.watch P) p i).shared = (m.exec c (p.loc i).1 p.shared).2.2 ∧
        (∀ j, ((step (m.watch P) p i).loc j).1 =
          if j = i then (m.exec c (p.loc i).1 p.shared).2.1 else (p.loc j).1) ∧
        (step (m.watch P) p i).stage =
          Function.update p.stage i (P.next (p.stage i) c p.shared (m.exec c (p.loc i).1 p.shared).1) := by
  cases hi : p.prog i with
  | ret a => exact .inl ⟨.inl ⟨a, hi⟩, step_of_finished (.inl ⟨a, hi⟩)⟩
  | raise e => exact .inl ⟨.inr ⟨e, hi⟩, step_of_finished (.inr ⟨e, hi⟩)⟩
  | call c k =>
      have hfollows := (h i).2
      rw [hi] at hfollows
      refine .inr ⟨_, c, k, rfl, hfollows.1, by rw [step_call hi]; rfl, fun j => ?_, ?_⟩
      · rw [step_call hi]
        by_cases hj : j = i
        · subst hj
          simp [Machine.watch]
        · simp [hj]
      funext j
      rw [step_call hi]
      by_cases hj : j = i
      · subst hj
        simp [stage, Machine.watch]
      · simp [stage, hj]

/-- **One step keeps the scripts on their protocols.** -/
theorem Follows.step (h : p.Follows m P I done) {i : ι}
    (hI : ∀ j, I ((step (m.watch P) p i).stage j) ((step (m.watch P) p i).loc j).1
      (step (m.watch P) p i).shared) : (step (m.watch P) p i).Follows m P I done := by
  refine fun j => ⟨hI j, ?_⟩
  cases hi : p.prog i with
  | ret a => rw [step_of_finished (.inl ⟨a, hi⟩)]; exact (h j).2
  | raise e => rw [step_of_finished (.inr ⟨e, hi⟩)]; exact (h j).2
  | call c k =>
      rw [step_call hi]
      by_cases hj : j = i
      · subst hj
        have hfollows := (h j).2
        rw [hi] at hfollows
        simpa [stage, Machine.watch] using hfollows.2 (p.loc j).1 p.shared (h j).1
      · simpa [stage, hj] using (h j).2

end Pool

end Program
