import Rooti.Journals.NextRun
import Rooti.ReadOnly.Companies

/-!
# Read-only mode and the schedules of e-mails

An update assigns twice, once before the company it moves to is looked up and once after the
next run is computed, and the query of the company's name sends what is left.

## Main results

* `JournalScheduleUpdateRequest.NextRun` — the next run that an update computes
* `letsThrough_updateSchedule` — an update passes if it changes nothing

Both assignments of an update are recorded before the company's name is read, and this
last query flushes. So the two have to change nothing, each by itself: what the first
leaves pending is flushed by a later query, whatever the second one assigns. The next
run is computed from the clock in between, and an update that sends a time passes only
if it is computed to the instant that is stored.
-/

namespace Rooti

open Relational Program JournalScheduleService

variable {V D : Type} {env : Env} {w : World V D}

/-- The next run that an update computes: that of the time it sets, if it sets one. -/
def JournalScheduleUpdateRequest.NextRun (req : JournalScheduleUpdateRequest) (now : DateTime) :
    Option DateTime → Prop
  | none => req.time = none
  | some next => ∃ time, req.time = some time ∧ IsNextRun now time next

/-- Computing the next run raises on the last day of the calendar, and otherwise goes on
with the one instant it can be. -/
theorem letsThrough_computeNextRun_bind {α : Type} {s : Session} (time : SendTime)
    {k : DateTime → Async V D α} :
    LetsThrough env ((computeNextRun env time).bind k) s w ↔
      ∃ next, IsNextRun (localNow env w) time next ∧ LetsThrough env (k next) s w.tick := by
  obtain ⟨hour, minute, hclock, hhour, hminute⟩ := clockTime_of_pattern time.property
  have hrun := run_computeNextRun hclock hhour hminute env s w
  simp only [isNextRun_iff hclock hhour hminute]
  by_cases hlast : onDayOf (localNow env w) hour minute < (localNow env w).micros ∧
      Date.max.days ≤ (localNow env w).date.days
  · rw [if_pos hlast] at hrun
    have hraise := Machine.run_bind (server env) (computeNextRun env time) k s w
    rw [hrun] at hraise
    exact iff_of_false (not_letsThrough_of_error hraise rfl) fun ⟨_, h, _⟩ => h.2 hlast
  · rw [if_neg hlast] at hrun
    rw [letsThrough_bind_of_run hrun rfl]
    constructor
    · exact fun h => ⟨_, ⟨rfl, hlast⟩, h⟩
    · rintro ⟨_, ⟨rfl, -⟩, h⟩
      exact h

/-- An update that sends no time leaves the next run alone. -/
theorem letsThrough_nextRun_bind {α : Type} {s : Session} {req : JournalScheduleUpdateRequest}
    {k : Option DateTime → Async V D α} {P : Option DateTime → Prop}
    (hk : ∀ n w', w'.db = w.db → (LetsThrough env (k n) s w' ↔ P n)) :
    LetsThrough env ((nextRun env req.time).bind k) s w ↔
      ∃ n, req.NextRun (localNow env w) n ∧ P n := by
  cases htime : req.time with
  | none =>
      rw [show nextRun env none = (.ret none : Async V D (Option DateTime)) from rfl,
        Prog.ret_bind, hk none w rfl]
      constructor
      · exact fun h => ⟨none, htime, h⟩
      · rintro ⟨n | next, hn, h⟩
        · exact h
        · obtain ⟨time, hsome, -⟩ := hn
          cases htime.symm.trans hsome
  | some time =>
      simp only [nextRun, Prog.bind_eq, Prog.pure_eq, Prog.bind_assoc, Prog.ret_bind]
      rw [letsThrough_computeNextRun_bind]
      simp only [hk _ w.tick rfl]
      constructor
      · rintro ⟨next, hnext, h⟩
        exact ⟨some next, ⟨time, htime, hnext⟩, h⟩
      · rintro ⟨n | next, hn, h⟩
        · cases htime.symm.trans hn
        · obtain ⟨time', htime', hnext⟩ := hn
          obtain rfl := Option.some.inj (htime.symm.trans htime')
          exact ⟨next, hnext, h⟩

/-- An update from its next run on: what it assigns is sent by the query of the company. -/
theorem letsThrough_assignments (hro : env.settings.appReadOnly = true) {ps : List Statement}
    (req : JournalScheduleUpdateRequest) {row : JournalEmailSchedule}
    (hcompany : bigint row.companyId) :
    LetsThrough env ((nextRun env req.time).bind fun n =>
        (modify .journalEmailSchedule row fun s => req.assign s n).bind fun _ =>
          (dbGet .company (req.assign row n).companyId).bind fun company =>
            (.ret ((req.assign row n).toResponse (company.map Company.name)) :
              Async V D JournalScheduleResponse)) { pending := ps } w ↔
      ps = [] ∧ ∃ n, req.NextRun (localNow env w) n ∧ req.assign row n = row := by
  by_cases hps : ps = []
  · subst hps
    rw [and_iff_right rfl]
    refine letsThrough_nextRun_bind fun n w' _ => ?_
    rw [letsThrough_assign_dbGet hro]
    refine and_iff_left_of_imp fun hsame => ⟨?_, letsThrough_ret⟩
    rw [hsame]
    exact hcompany
  · refine iff_of_false ?_ fun h => hps h.1
    have hrefused : ∀ n w', w'.db = w.db → (LetsThrough env
        ((modify .journalEmailSchedule row fun s => req.assign s n).bind fun _ =>
          (dbGet .company (req.assign row n).companyId).bind fun company =>
            (.ret ((req.assign row n).toResponse (company.map Company.name)) :
              Async V D JournalScheduleResponse)) { pending := ps } w' ↔ False) :=
      fun n w' _ => iff_false_intro fun h => not_letsThrough_select_bind hro
        (List.append_ne_nil_of_left_ne_nil hps _) (letsThrough_modify_bind.mp h)
    rw [letsThrough_nextRun_bind hrefused]
    rintro ⟨n, -, h⟩
    exact h

/-- A schedule is added and flushed, once its next run is known. -/
theorem not_letsThrough_createSchedule (hro : env.settings.appReadOnly = true)
    (req : JournalScheduleCreateRequest) :
    ¬LetsThrough env (create env req) {} w := by
  simp only [create, Prog.bind_eq]
  rw [letsThrough_getOrRaise_bind fun company _ => letsThrough_computeNextRun_bind req.time]
  rintro ⟨company, -, next, -, h⟩
  exact not_letsThrough_add_flush hro h

/-- **An update that changes nothing** is let through. -/
theorem letsThrough_updateSchedule (hro : env.settings.appReadOnly = true) (scheduleId : ℤ)
    (req : JournalScheduleUpdateRequest) (scope : CompanyScopeValue) :
    LetsThrough env (update env scheduleId req scope) {} w ↔
      ∃ s, w.db.find? .journalEmailSchedule scheduleId = some s ∧
        scope.all (s.companyId = ·) ∧ req.toggle s = s ∧
          ∃ n, req.NextRun (localNow env w.tick.tick) n ∧ req.assign s n = s := by
  simp only [update, Prog.bind_eq, Prog.pure_eq]
  refine letsThrough_getOrRaise_bind fun s hfound => letsThrough_assertCompany_bind.trans
    (and_congr_right fun _ => ?_)
  have hcompany : bigint (req.toggle s).companyId :=
    bigint_of_ref (Table.find?_mem hfound) (.head _)
  rw [letsThrough_modify_bind]
  -- nothing changes, so the company that is asked for is that of the schedule
  have htarget : ∀ c, req.companyId = some c → ∀ row n, row.companyId = s.companyId →
      req.assign row n = row → c = s.companyId := by
    intro c hc row n hrow hsame
    have hassigned : req.companyId.getD row.companyId = row.companyId :=
      congrArg JournalEmailSchedule.companyId hsame
    rw [hc] at hassigned
    exact hassigned.trans hrow
  by_cases hsame : ∀ c, req.companyId = some c → c = s.companyId
  · have hcheck : (checkTarget scope s req.companyId : Async V D Unit) = .ret () := by
      cases hc : req.companyId with
      | none => rfl
      | some c => rw [checkTarget, if_pos (hsame c hc)]
    rw [hcheck]
    refine (letsThrough_assignments hro req hcompany).trans ?_
    rw [List.nil_append, changes_eq_nil]
    refine and_congr_right fun htoggle => ?_
    rw [htoggle]
  · simp only [not_forall] at hsame
    obtain ⟨c, hc, hother⟩ := hsame
    apply iff_of_false
    · intro h
      rw [hc, checkTarget, if_neg hother] at h
      simp only [Prog.bind_eq, Prog.pure_eq, Prog.bind_assoc] at h
      obtain ⟨-, h⟩ := letsThrough_assertCompany_bind.mp h
      -- the other company is looked up by a query, which would flush a switched flag
      by_cases htoggle : req.toggle s = s
      · rw [changes_eq_nil.mpr htoggle] at h
        obtain ⟨company, -, h⟩ := (letsThrough_getOrRaise_bind fun company _ =>
          letsThrough_assignments hro req hcompany).mp h
        obtain ⟨-, n, -, h⟩ := h
        exact hother (htarget c hc (req.toggle s) n rfl h)
      · exact not_letsThrough_select_bind hro (fun hnil => htoggle (changes_eq_nil.mp hnil)) h
    · rintro ⟨-, n, -, h⟩
      exact hother (htarget c hc s n rfl h)

/-- As for leaves and kiosks: the DELETE is pending when the request ends. -/
theorem letsThrough_deleteSchedule (scheduleId : ℤ) (scope : CompanyScopeValue) :
    LetsThrough env (JournalScheduleService.delete scheduleId scope) {} w ↔
      bigint scheduleId ∧ ∀ s, w.db.find? .journalEmailSchedule scheduleId = some s →
        scope.all (s.companyId = ·) :=
  letsThrough_deleteScoped rfl fun _ => rfl

end Rooti
