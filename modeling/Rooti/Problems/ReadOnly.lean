import Rooti.Core.Exceptions
import Rooti.Lib.Chase

/-!
# Telling a write that read-only mode refused

SQLAlchemy wraps the error of the driver, and the handler of exceptions looks for the
driver's SQLSTATE along the links `orig` and `__cause__`.  The links are attributes of
arbitrary objects: they may form cycles, and `orig` may hold anything.

## Main definitions

* `Exceptions` — exceptions and their attributes
* `Exceptions.isReadOnlyViolation` — what the handler computes
* `Exceptions.Chain` — the exceptions it is meant to look at
* `readOnlyViolation_iff` — it stops, and misses none of them

## What carries the proof

The loop keeps the exceptions it has seen and stops at one it meets again. So every
round takes one more of finitely many, which bounds the rounds, and a chain that comes
back to itself has been seen in full by then (`Chase.loop_of_card_lt`). What the loop
follows are the links of `Chain` (`Exceptions.chain_iff`): an attribute that holds
something else than an exception leads nowhere.
-/

namespace Rooti

universe u

/-- What an attribute of an exception holds. -/
inductive Attribute (N : Type u)
  /-- `None`, or the attribute is missing -/
  | none
  | text (s : String)
  | exception (e : N)
  /-- any other object, and its truth value -/
  | other (truthy : Bool)

/-- **Exceptions `N` and their attributes.** -/
structure Exceptions (N : Type u) where
  /-- the truth value of an exception -/
  truthy : N → Bool
  sqlstate : N → Attribute N
  orig : N → Attribute N
  cause : N → Attribute N

namespace Exceptions

variable {N : Type u} (g : Exceptions N)

/-- `bool(value)`. -/
def truth : Attribute N → Bool
  | .none => false
  | .text s => s ≠ ""
  | .exception e => g.truthy e
  | .other truthy => truthy

/-- `getattr(cur, "orig", None) or getattr(cur, "__cause__", None)`. -/
def link (e : N) : Attribute N := if g.truth (g.orig e) then g.orig e else g.cause e

/-- `nxt if isinstance(nxt, BaseException) else None`. -/
def next (e : N) : Option N :=
  match g.link e with
  | .exception e' => some e'
  | _ => none

/-- `getattr(cur, "sqlstate", None) == "25006"`. -/
def isReadOnly (e : N) : Bool :=
  match g.sqlstate e with
  | .text s => s = "25006"
  | _ => false

/-- `_is_read_only_violation`, in at most `fuel` rounds of its loop. -/
def isReadOnlyViolation [DecidableEq N] (fuel : ℕ) (exc : N) : Option Bool :=
  Chase.loop g.next g.isReadOnly fuel [] (some exc)

/-- **The chain that starts at an exception**: from each to its `orig`, if that is set and
true, else to its `__cause__`, for as long as these are exceptions. -/
inductive Chain (exc : N) : N → Prop
  | start : Chain exc exc
  | orig {e e' : N} (h : Chain exc e) (hset : g.truth (g.orig e) = true)
      (horig : g.orig e = .exception e') : Chain exc e'
  | cause {e e' : N} (h : Chain exc e) (hunset : g.truth (g.orig e) = false)
      (hcause : g.cause e = .exception e') : Chain exc e'

variable {g}

theorem next_eq_some {e e' : N} : g.next e = some e' ↔ g.link e = .exception e' := by
  unfold next
  cases g.link e <;> simp

theorem isReadOnly_iff {e : N} : g.isReadOnly e = true ↔ g.sqlstate e = .text "25006" := by
  unfold isReadOnly
  cases g.sqlstate e <;> simp

/-- The loop follows the chain. -/
theorem chain_iff {exc e : N} : g.Chain exc e ↔ Chase.Leads g.next exc e := by
  constructor
  · intro h
    induction h with
    | start => exact .refl
    | orig _ hset horig ih =>
        refine ih.tail (next_eq_some.mpr ?_)
        rw [link, if_pos hset, horig]
    | cause _ hunset hcause ih =>
        refine ih.tail (next_eq_some.mpr ?_)
        rw [link, if_neg (by simp [hunset]), hcause]
  · intro h
    induction h with
    | refl => exact .start
    | @tail e₁ e₂ _ hlink ih =>
        rw [next_eq_some, link] at hlink
        cases hset : g.truth (g.orig e₁) with
        | true =>
            rw [if_pos hset] at hlink
            exact ih.orig hset hlink
        | false =>
            rw [if_neg (by simp [hset])] at hlink
            exact ih.cause hset hlink

end Exceptions

/-- **The handler stops, and misses no link**: more rounds than there are exceptions are
never needed, and the answer is whether the chain holds the SQLSTATE. -/
theorem readOnlyViolation_iff {N : Type u} [Fintype N] [DecidableEq N] (g : Exceptions N)
    (exc : N) :
    ∃ answer, (∀ fuel, Fintype.card N < fuel → g.isReadOnlyViolation fuel exc = some answer) ∧
      (answer = true ↔ ∃ e, g.Chain exc e ∧ g.sqlstate e = .text "25006") := by
  obtain ⟨answer, hstops, hanswer⟩ := Chase.loop_of_card_lt g.next g.isReadOnly exc
  refine ⟨answer, hstops, hanswer.trans (exists_congr fun e => ?_)⟩
  rw [Exceptions.chain_iff, Exceptions.isReadOnly_iff]

/-! ## The errors of the services -/

/-- The exceptions behind an error: SQLAlchemy's (`true`) holds the driver's (`false`), and
only the driver's has a SQLSTATE. -/
def Err.exceptions (e : Err) : Exceptions Bool where
  truthy _ := true
  sqlstate wrapper :=
    match e, wrapper with
    | .database s, false => .text s
    | _, _ => .none
  orig wrapper :=
    match e, wrapper with
    | .database _, true => .exception false
    | _, _ => .none
  cause wrapper :=
    match e, wrapper with
    | .database _, true => .exception false
    | _, _ => .none

/-- What the handler finds out about an error of the services. -/
theorem Err.isReadOnlyViolation_exceptions (e : Err) {fuel : ℕ} (hfuel : 2 < fuel) :
    e.exceptions.isReadOnlyViolation fuel true = some e.isReadOnlyViolation := by
  obtain ⟨fuel, rfl⟩ : ∃ n, fuel = n + 3 := ⟨fuel - 3, by omega⟩
  cases e with
  | database s =>
      have hwrapper : (Err.database s).exceptions.next true = some false := rfl
      have hdriver : (Err.database s).exceptions.next false = none := rfl
      have hmiss : (Err.database s).exceptions.isReadOnly true = false := rfl
      have hstate : (Err.database s).exceptions.isReadOnly false = decide (s = "25006") := rfl
      simp only [Exceptions.isReadOnlyViolation, Chase.loop, hmiss, hwrapper, hstate, hdriver,
        List.not_mem_nil, if_false, Bool.false_eq_true, List.mem_singleton]
      show (if decide (s = "25006") = true then some true else some false) =
        some (decide (s = "25006"))
      cases decide (s = "25006") <;> rfl
  | business code message => rfl
  | python cls text => rfl

end Rooti
