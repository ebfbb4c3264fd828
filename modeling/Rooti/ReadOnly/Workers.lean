import Rooti.Employment.Assignments
import Rooti.ReadOnly.Outcomes
import Rooti.Services.Auth
import Rooti.Services.Charger
import Rooti.Services.Schedule
import Rooti.Services.Worker

/-!
# Read-only mode and the workers

What the requests on workers, their assignments and their shifts let through in read-only
mode.  Some of them change an object and return; the others ask the database for something
after the change, and are refused unless the change is none.

## Main results

* `letsThrough_fire`, `letsThrough_unassign`, `letsThrough_setEnabled` — changes never sent
* `letsThrough_retire`, `letsThrough_rehire`, `letsThrough_setHired`, `letsThrough_close` —
  changes that are sent
* `letsThrough_assignWorker` — a new assignment is sent, an old one made active is not

Which of the two a service is depends on a single line of it. `fire` answers without a
body and asks for nothing; `retire` flushes, and `set_hired` reads the account and the
company to build its answer. The theorems follow the scripts from the end and show the
difference as a condition: existence alone for the first kind, and for the second that
the row is already as it should be.
-/

namespace Rooti

open Relational Program

variable {V D : Type} {env : Env} {w : World V D}

/-! ## Changes that are never sent -/

/-- Every dismissal of a worker that is there. The answer is a success, and the worker
stays hired. -/
theorem letsThrough_fire (companyWorkerId : ℤ) :
    LetsThrough env (WorkerService.fire companyWorkerId) {} w ↔
      (w.db.find? .companyWorker companyWorkerId).isSome := by
  simp only [WorkerService.fire, Prog.bind_eq]
  exact letsThrough_getOrRaise_isSome fun _ => letsThrough_modify

/-- Every withdrawal of an assignment that is there. -/
theorem letsThrough_unassign (jobWorkerId : ℤ) :
    LetsThrough env (JobWorkerService.unassign jobWorkerId) {} w ↔
      (w.db.find? .jobWorker jobWorkerId).isSome := by
  simp only [JobWorkerService.unassign, Prog.bind_eq]
  exact letsThrough_getOrRaise_isSome fun _ => letsThrough_modify

/-- The response shows the account as it would be, from the object in memory. -/
theorem letsThrough_setEnabled (userId : ℤ) (enabled : Bool) :
    LetsThrough env (UserService.setEnabled userId enabled) {} w ↔
      (w.db.find? .user userId).isSome := by
  simp only [UserService.setEnabled, UserService.getById, Prog.bind_eq, Prog.pure_eq,
    Prog.bind_assoc]
  exact letsThrough_getOrRaise_isSome fun _ =>
    letsThrough_modify_bind.mpr letsThrough_ret

/-! ## Changes that are sent -/

section Sent

variable (hro : env.settings.appReadOnly = true)

include hro

/-- The new row is flushed for its id. -/
theorem not_letsThrough_hire (companyId workerId : ℤ) :
    ¬LetsThrough env (WorkerService.hire companyId workerId) {} w := by
  simp only [WorkerService.hire, WorkerService.getOrThrow, assertSome, Prog.bind_eq,
    Prog.bind_assoc]
  rw [letsThrough_select_bind, letsThrough_raiseIf_bind,
    letsThrough_getOrRaise_bind fun company _ => letsThrough_getOrRaise_bind fun worker _ =>
      letsThrough_getOrRaise_bind fun user _ => iff_false_intro (not_letsThrough_add_flush hro)]
  simp only [and_false, exists_false, not_false_eq_true]

/-- Only a worker who has retired before, whose time stays as it is. -/
theorem letsThrough_retire (workerId : ℤ) :
    LetsThrough env (WorkerService.retire workerId) {} w ↔
      ∃ worker, w.db.find? .challengedWorker workerId = some worker ∧
        ∃ user, w.db.find? .user worker.userId = some user ∧ worker.retiredAt.isSome := by
  simp only [WorkerService.retire, WorkerService.getOrThrow, assertSome, Prog.bind_eq,
    Prog.bind_assoc]
  refine letsThrough_getOrRaise_bind fun worker _ => letsThrough_getOrRaise_bind fun user _ => ?_
  unfold WorkerService.markRetired
  split
  case h_1 t hretired =>
    rw [hretired, Prog.ret_bind, letsThrough_flush_bind]
    exact iff_of_true letsThrough_ret rfl
  case h_2 hactive =>
    simp only [utcNow, Prog.bind_eq, Prog.pure_eq, Prog.bind_assoc, Prog.ret_bind]
    rw [letsThrough_now_bind, letsThrough_assign_flush hro, hactive]
    refine iff_of_false ?_ Bool.false_ne_true
    rintro ⟨hsame, -⟩
    cases (congrArg ChallengedWorker.retiredAt hsame).trans hactive

/-- Only a worker who has not retired. -/
theorem letsThrough_rehire (workerId : ℤ) :
    LetsThrough env (WorkerService.rehire workerId) {} w ↔
      ∃ worker, w.db.find? .challengedWorker workerId = some worker ∧
        ∃ user, w.db.find? .user worker.userId = some user ∧ worker.retiredAt = none := by
  simp only [WorkerService.rehire, WorkerService.getOrThrow, assertSome, Prog.bind_eq,
    Prog.bind_assoc]
  refine letsThrough_getOrRaise_bind fun worker _ => letsThrough_getOrRaise_bind fun user _ => ?_
  rw [letsThrough_assign_flush hro]
  constructor
  · exact fun h => (congrArg ChallengedWorker.retiredAt h.1).symm
  · intro hactive
    refine ⟨?_, letsThrough_ret⟩
    rw [← hactive]

/-- Reading the account sends the change, so the charger has to be as asked for. -/
theorem letsThrough_setHired (chargerId : ℤ) (hired : Bool) :
    LetsThrough env (ChargerService.setHired chargerId hired) {} w ↔
      ∃ cc, w.db.find? .companyCharger chargerId = some cc ∧ cc.isHired = hired ∧
        (w.db.find? .user cc.userId).isSome ∧ (w.db.find? .company cc.companyId).isSome := by
  simp only [ChargerService.setHired, assertSome, Prog.bind_eq]
  refine letsThrough_getOrRaise_bind fun cc _ => ?_
  rw [letsThrough_assign_dbGet hro, letsThrough_dbGet_bind, letsThrough_orRaise_bind]
  simp only [World.tick_db]
  refine and_congr ⟨fun h => (congrArg CompanyCharger.isHired h).symm, fun h => h ▸ rfl⟩ ?_
  rw [Option.isSome_iff_exists, Option.isSome_iff_exists]
  constructor
  · rintro ⟨-, -, user, huser, h⟩
    obtain ⟨company, hcompany, -⟩ := letsThrough_orRaise_bind.mp h
    exact ⟨⟨user, huser⟩, company, hcompany⟩
  · rintro ⟨⟨user, huser⟩, company, hcompany⟩
    exact ⟨bigint_of_find? huser, bigint_of_find? hcompany, user, huser,
      letsThrough_orRaise_bind.mpr ⟨company, hcompany, letsThrough_ret⟩⟩

/-- The moment a shift is closed at. -/
def closingTime (env : Env) (w : World V D) (endAt : Option DateTime) : DateTime :=
  endAt.getD ⟨env.clock (w.ticks + 1) + env.utcOffset, none⟩

/-- The standard is read for the response: the shift has to end at this very instant
already. -/
theorem letsThrough_close (scheduleId : ℤ) (endAt : Option DateTime) :
    LetsThrough env (WorkScheduleService.close env scheduleId endAt) {} w ↔
      ∃ s, w.db.find? .workSchedule scheduleId = some s ∧
        s.endAt = some (closingTime env w endAt) := by
  simp only [WorkScheduleService.close, WorkScheduleService.getOrThrow,
    WorkScheduleService.toResponse, Prog.bind_eq, Prog.pure_eq, Prog.bind_assoc]
  refine letsThrough_getOrRaise_bind fun s hfound => ?_
  have hstandard : bigint s.jobStandardId :=
    bigint_of_ref (Table.find?_mem hfound) (.tail _ (.head _))
  have hclose : ∀ (t : DateTime) (w' : World V D),
      (LetsThrough env ((modify .workSchedule s fun s => { s with endAt := some t }).bind fun _ =>
        (dbGet .jobStandard s.jobStandardId).bind fun standard =>
          (.ret (toScheduleResponse { s with endAt := some t } standard) :
            Async V D ScheduleResponse)) {} w' ↔ s.endAt = some t) := by
    intro t w'
    rw [letsThrough_assign_dbGet hro]
    constructor
    · exact fun h => (congrArg WorkSchedule.endAt h.1).symm
    · intro hend
      refine ⟨?_, hstandard, letsThrough_ret⟩
      rw [← hend]
  cases endAt with
  | none => exact hclose _ w.tick.tick
  | some t => exact hclose t w.tick

/-- An assignment that was withdrawn is made active again in memory and answered,
without a query after it; a new one is flushed. -/
theorem letsThrough_assignWorker (companyWorkerId jobStandardId : ℤ) :
    LetsThrough env (JobWorkerService.assign companyWorkerId jobStandardId) {} w ↔
      (w.db.find? .companyWorker companyWorkerId).isSome ∧
        (w.db.find? .jobStandard jobStandardId).isSome ∧
          ∃ jw ∈ assignments w.db companyWorkerId jobStandardId, jw.useFlag = false := by
  by_cases hfound : (w.db.find? .companyWorker companyWorkerId).isSome ∧
      (w.db.find? .jobStandard jobStandardId).isSome
  · obtain ⟨worker, hworker⟩ := Option.isSome_iff_exists.mp hfound.1
    obtain ⟨standard, hstandard⟩ := Option.isSome_iff_exists.mp hfound.2
    obtain ⟨existing, hrows⟩ := assignments_eq companyWorkerId jobStandardId w.db
    rw [← and_assoc, and_iff_right hfound, hrows]
    unfold LetsThrough
    rw [run_assign env hworker hstandard hrows]
    cases existing with
    | none =>
        refine iff_of_false (not_letsThrough_add_flush (w := w.tick.tick.tick) hro) ?_
        rintro ⟨jw, hjw, -⟩
        cases hjw
    | some jw =>
        refine (letsThrough_raiseIf_bind (w := w.tick.tick.tick)).trans ?_
        simp only [Option.toList_some, List.mem_singleton, exists_eq_left]
        exact and_iff_left (letsThrough_modify_bind.mpr letsThrough_ret)
  · refine iff_of_false ?_ fun h => hfound ⟨h.1, h.2.1⟩
    simp only [JobWorkerService.assign, Prog.bind_eq]
    rw [letsThrough_getOrRaise_bind fun worker _ => letsThrough_getOrRaise_bind fun standard _ =>
      Iff.rfl]
    rintro ⟨worker, hworker, standard, hstandard, -⟩
    exact hfound ⟨Option.isSome_iff_exists.mpr ⟨worker, hworker⟩,
      Option.isSome_iff_exists.mpr ⟨standard, hstandard⟩⟩

end Sent

end Rooti
