import Mathlib.Logic.Function.Basic

/-!
# Programs over a command family

A `Prog C E α` is a finite-branching script of commands: it either returns a
value, raises an error, or issues one command `c : C β` and continues from the
answer.  The answer is an `Except E β`, so a failed command is something the
program sees and may handle, exactly as an exception raised by an awaited call
is.

The meaning of the commands is a `Machine`: one function executing one command
against a local and a shared state.  Running a program to its end on a machine
(`Machine.run`) and interleaving the commands of many programs
(`Lib.Pool`) are two readings of the same script.

## Main definitions

* `Prog` — the scripts, with their monad structure and `Prog.handle`
* `Prog.Only` — scripts that issue commands of one kind only
* `Machine` — the meaning of single commands
* `Machine.run` — a whole run, and the equations that execute it symbolically
-/

namespace Program

universe u v w

/-- A script over the commands `C` with errors `E` and result `α`. -/
inductive Prog (C : Type u → Type v) (E : Type u) (α : Type u) : Type (max (u + 1) v)
  | ret (a : α)
  | raise (e : E)
  | call {β : Type u} (c : C β) (k : Except E β → Prog C E α)

variable {C : Type u → Type v} {E : Type u} {α β : Type u}

namespace Prog

/-- Sequencing: an error of the first script skips the second. -/
def bind : Prog C E α → (α → Prog C E β) → Prog C E β
  | ret a, f => f a
  | raise e, _ => raise e
  | call c k, f => call c fun r => bind (k r) f

/-- Run a script under a handler: `try p except e: h e`. -/
def handle : Prog C E α → (E → Prog C E α) → Prog C E α
  | ret a, _ => ret a
  | raise e, h => h e
  | call c k, h => call c fun r => handle (k r) h

instance : Monad (Prog C E) where
  pure := ret
  bind := bind

/-- The script reading an answer back: its value is returned, its error raised. -/
def ofExcept : Except E α → Prog C E α
  | .ok a => ret a
  | .error e => raise e

/-- Issue one command and hand its answer on. -/
def lift (c : C α) : Prog C E α := call c ofExcept

/-- `if b: raise e`. -/
def raiseIf (b : Bool) (e : E) : Prog C E PUnit := if b then raise e else ret ⟨⟩

/-- The value of an optional result, or the error raised when it is missing. -/
def orRaise (e : E) : Option α → Prog C E α
  | some a => ret a
  | none => raise e

@[simp] theorem pure_eq (a : α) : (pure a : Prog C E α) = ret a := rfl

@[simp] theorem bind_eq (p : Prog C E α) (f : α → Prog C E β) : p >>= f = p.bind f := rfl

@[simp] theorem ret_bind (a : α) (f : α → Prog C E β) : (ret a).bind f = f a := rfl

@[simp] theorem raise_bind (e : E) (f : α → Prog C E β) : (raise e).bind f = raise e := rfl

@[simp] theorem call_bind {γ : Type u} (c : C γ) (k : Except E γ → Prog C E α)
    (f : α → Prog C E β) :
    (call c k).bind f = call c fun r => (k r).bind f := rfl

@[simp] theorem bind_assoc {γ : Type u} (p : Prog C E α) (f : α → Prog C E β)
    (g : β → Prog C E γ) : (p.bind f).bind g = p.bind fun a => (f a).bind g := by
  induction p with
  | ret a => rfl
  | raise e => rfl
  | call c k ih => exact congrArg (call c) (funext fun r => ih r)

theorem bind_ret (p : Prog C E α) : p.bind ret = p := by
  induction p with
  | ret a => rfl
  | raise e => rfl
  | call c k ih => exact congrArg (call c) (funext fun r => ih r)

@[simp] theorem ret_handle (a : α) (h : E → Prog C E α) : (ret a).handle h = ret a := rfl

@[simp] theorem raise_handle (e : E) (h : E → Prog C E α) : (raise e).handle h = h e := rfl

@[simp] theorem call_handle {γ : Type u} (c : C γ) (k : Except E γ → Prog C E α)
    (h : E → Prog C E α) :
    (call c k).handle h = call c fun r => (k r).handle h := rfl

@[simp] theorem raiseIf_true (e : E) : (raiseIf true e : Prog C E PUnit) = raise e := rfl

@[simp] theorem raiseIf_false (e : E) : (raiseIf false e : Prog C E PUnit) = ret ⟨⟩ := rfl

@[simp] theorem orRaise_some (e : E) (a : α) : (orRaise e (some a) : Prog C E α) = ret a := rfl

@[simp] theorem orRaise_none (e : E) : (orRaise e none : Prog C E α) = raise e := rfl

/-- **A script issues only commands in `ok`**, whatever it is answered. -/
def Only (ok : ∀ {β : Type u}, C β → Prop) : Prog C E α → Prop
  | ret _ => True
  | raise _ => True
  | call c k => ok c ∧ ∀ r, Only ok (k r)

namespace Only

variable {ok : ∀ {β : Type u}, C β → Prop} {p : Prog C E α}

theorem ret {a : α} : (ret a : Prog C E α).Only ok := trivial

theorem raise {e : E} : (raise e : Prog C E α).Only ok := trivial

theorem bind {f : α → Prog C E β} (hp : p.Only ok) (hf : ∀ a, (f a).Only ok) :
    (p.bind f).Only ok := by
  induction p with
  | ret a => exact hf a
  | raise e => trivial
  | call c k ih => exact ⟨hp.1, fun r => ih r (hp.2 r)⟩

theorem handle {h : E → Prog C E α} (hp : p.Only ok) (hh : ∀ e, (h e).Only ok) :
    (p.handle h).Only ok := by
  induction p with
  | ret a => trivial
  | raise e => exact hh e
  | call c k ih => exact ⟨hp.1, fun r => ih r (hp.2 r)⟩

theorem ofExcept {r : Except E α} : (ofExcept r : Prog C E α).Only ok := by
  cases r <;> trivial

theorem lift {c : C α} (h : ok c) : (lift c : Prog C E α).Only ok := ⟨h, fun _ => ofExcept⟩

theorem ite {b : Prop} [Decidable b] {p' : Prog C E α} (h : b → p.Only ok)
    (h' : ¬b → p'.Only ok) : (if b then p else p').Only ok := by
  split
  · next hb => exact h hb
  · next hb => exact h' hb

theorem orRaise {e : E} {o : Option α} : (orRaise e o : Prog C E α).Only ok := by
  cases o <;> trivial

theorem raiseIf {b : Bool} {e : E} : (raiseIf b e : Prog C E PUnit).Only ok := by
  cases b <;> trivial

theorem mono {ok' : ∀ {β : Type u}, C β → Prop} (hp : p.Only ok)
    (h : ∀ {β : Type u} (c : C β), ok c → ok' c) : p.Only ok' := by
  induction p with
  | ret a => trivial
  | raise e => trivial
  | call c k ih => exact ⟨h c hp.1, fun r => ih r (hp.2 r)⟩

end Only

end Prog

/-- The meaning of commands: one command, executed on the state `L` of the party
issuing it and the state `S` all parties share. -/
structure Machine (C : Type u → Type v) (E : Type u) (L S : Type w) where
  exec : {β : Type u} → C β → L → S → Except E β × L × S

namespace Machine

variable {L S : Type w} (m : Machine C E L S)

/-- Run a script to its end. -/
def run : Prog C E α → L → S → Except E α × L × S
  | .ret a, l, s => (.ok a, l, s)
  | .raise e, l, s => (.error e, l, s)
  | .call c k, l, s =>
      run (k (m.exec c l s).1) (m.exec c l s).2.1 (m.exec c l s).2.2

@[simp] theorem run_ret (a : α) (l : L) (s : S) :
    m.run (.ret a : Prog C E α) l s = (.ok a, l, s) := rfl

@[simp] theorem run_raise (e : E) (l : L) (s : S) :
    m.run (.raise e : Prog C E α) l s = (.error e, l, s) := rfl

theorem run_call (c : C β) (k : Except E β → Prog C E α) (l : L) (s : S) :
    m.run (.call c k) l s =
      m.run (k (m.exec c l s).1) (m.exec c l s).2.1 (m.exec c l s).2.2 := rfl

@[simp] theorem run_ofExcept (r : Except E α) (l : L) (s : S) :
    m.run (Prog.ofExcept r : Prog C E α) l s = (r, l, s) := by
  cases r <;> rfl

@[simp] theorem run_lift (c : C α) (l : L) (s : S) :
    m.run (Prog.lift c) l s = m.exec c l s := by
  rw [Prog.lift, run_call]
  rcases m.exec c l s with ⟨_ | _, _, _⟩ <;> rfl

/-- A command and what follows its answer. -/
theorem run_lift_bind (c : C α) (k : α → Prog C E β) (l : L) (s : S) :
    m.run ((Prog.lift c).bind k) l s =
      match m.exec c l s with
      | (.ok a, l', s') => m.run (k a) l' s'
      | (.error e, l', s') => (.error e, l', s') := by
  rw [Prog.lift, Prog.call_bind, run_call]
  rcases m.exec c l s with ⟨_ | _, _, _⟩ <;> rfl

/-- A sequenced run: run the first script, then the second from where it stopped. -/
theorem run_bind (p : Prog C E α) (f : α → Prog C E β) (l : L) (s : S) :
    m.run (p.bind f) l s =
      match m.run p l s with
      | (.ok a, l', s') => m.run (f a) l' s'
      | (.error e, l', s') => (.error e, l', s') := by
  induction p generalizing l s with
  | ret a => rfl
  | raise e => rfl
  | call c k ih => exact ih _ _ _

/-- A guarded run: the handler takes over where the script raised. -/
theorem run_handle (p : Prog C E α) (h : E → Prog C E α) (l : L) (s : S) :
    m.run (p.handle h) l s =
      match m.run p l s with
      | (.ok a, l', s') => (.ok a, l', s')
      | (.error e, l', s') => m.run (h e) l' s' := by
  induction p generalizing l s with
  | ret a => rfl
  | raise e => rfl
  | call c k ih => exact ih _ _ _

/-- A run whose outcome is caught: the rest of the script sees a value or an error. -/
theorem run_attempt (p : Prog C E α) (l : L) (s : S) :
    m.run (Prog.handle (p.bind fun a => .ret (Except.ok a)) fun e => .ret (Except.error e)) l s =
      (.ok (m.run p l s).1, (m.run p l s).2) := by
  rw [run_handle, run_bind]
  rcases m.run p l s with ⟨e | a, l', s'⟩ <;> rfl

@[simp] theorem run_ite (b : Prop) [Decidable b] (p q : Prog C E α) (l : L) (s : S) :
    m.run (if b then p else q) l s = if b then m.run p l s else m.run q l s := by
  split <;> rfl

section Inversion

variable {m}

/-- **Peeling a sequenced run**: a returned value comes from both parts returning. -/
theorem run_bind_eq_ok {p : Prog C E α} {f : α → Prog C E β} {l l' : L} {s s' : S} {b : β}
    (h : m.run (p.bind f) l s = (.ok b, l', s')) :
    ∃ a l₁ s₁, m.run p l s = (.ok a, l₁, s₁) ∧ m.run (f a) l₁ s₁ = (.ok b, l', s') := by
  rw [run_bind] at h
  rcases hp : m.run p l s with ⟨e | a, l₁, s₁⟩
  · rw [hp] at h
    cases h
  · rw [hp] at h
    exact ⟨a, l₁, s₁, rfl, h⟩

theorem run_raiseIf_eq_ok {b : Bool} {e : E} {l l' : L} {s s' : S} {u : PUnit}
    (h : m.run (Prog.raiseIf b e) l s = (.ok u, l', s')) : b = false ∧ l' = l ∧ s' = s := by
  cases b
  · cases h
    exact ⟨rfl, rfl, rfl⟩
  · cases h

theorem run_orRaise_eq_ok {o : Option α} {e : E} {l l' : L} {s s' : S} {a : α}
    (h : m.run (Prog.orRaise e o) l s = (.ok a, l', s')) : o = some a ∧ l' = l ∧ s' = s := by
  cases o with
  | none => cases h
  | some a' =>
      cases h
      exact ⟨rfl, rfl, rfl⟩

end Inversion

end Machine

end Program
