/-!
# Runs of operations

Operations executed one after another on a state.  An invariant of the single
operations, possibly under a condition each of them meets where it is executed,
is one of whole runs.

## Main definitions

* `Runs.run` — a run
* `Runs.Guarded` — runs whose operations all meet a condition
-/

namespace Runs

variable {ι S : Type _} (step : ι → S → S)

/-- The state after a run. -/
def run : List ι → S → S
  | [], s => s
  | op :: ops, s => run ops (step op s)

/-- Every operation of the run meets `ok` in the state it is executed in. -/
def Guarded (ok : ι → S → Prop) : List ι → S → Prop
  | [], _ => True
  | op :: ops, s => ok op s ∧ Guarded ok ops (step op s)

variable {step} {ok : ι → S → Prop} {I : S → Prop} {ops ops' : List ι} {s : S}

@[simp] theorem run_nil : run step [] s = s := rfl

@[simp] theorem run_cons {op : ι} : run step (op :: ops) s = run step ops (step op s) := rfl

theorem run_append : run step (ops ++ ops') s = run step ops' (run step ops s) := by
  induction ops generalizing s with
  | nil => rfl
  | cons op ops ih => exact ih

/-- **An invariant of the operations is one of the runs.** -/
theorem run_invariant (hstep : ∀ op s, I s → I (step op s)) (h : I s) (ops : List ι) :
    I (run step ops s) := by
  induction ops generalizing s with
  | nil => exact h
  | cons op ops ih => exact ih (hstep op s h)

namespace Guarded

theorem of_append (h : Guarded step ok (ops ++ ops') s) :
    Guarded step ok ops s ∧ Guarded step ok ops' (run step ops s) := by
  induction ops generalizing s with
  | nil => exact ⟨trivial, h⟩
  | cons op ops ih => exact ⟨⟨h.1, (ih h.2).1⟩, (ih h.2).2⟩

/-- **An invariant of the operations that meet the condition** is one of the runs
whose operations all do. -/
theorem invariant (hstep : ∀ op s, ok op s → I s → I (step op s)) (hs : I s)
    (h : Guarded step ok ops s) : I (run step ops s) := by
  induction ops generalizing s with
  | nil => exact hs
  | cons op ops ih => exact ih (hstep op s h.1 hs) h.2

/-- Conditions that agree on every operation agree on every run. -/
theorem congr {ok' : ι → S → Prop} (h : ∀ op s, ok op s ↔ ok' op s) :
    Guarded step ok ops s ↔ Guarded step ok' ops s := by
  induction ops generalizing s with
  | nil => exact Iff.rfl
  | cons op ops ih => exact and_congr (h op s) ih

end Guarded

end Runs
