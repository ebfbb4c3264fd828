import Rooti.Core.Holding
import Rooti.Core.RowInvariants
import Rooti.Lib.Runs
import Rooti.Services.JournalSchedule

/-!
# The shape of e-mail schedules

A daily schedule names no day, a weekly one a weekday, and a monthly one a day of the
month.  An `update` with a frequency clears what belongs to the others; a `create` stores
what it is given.  Where every schedule that is created has the shape, all keep it.

## Main definitions

* `Frequency.Shaped`, `JournalEmailSchedule.WellFormed` — the days that belong to a frequency
* `EmailScheduleRequest.Fits` — the request creates no schedule of another shape
* `emailSchedules_wellFormed` — every run of such requests
* `emailSchedule_misshapen` — a daily schedule on Mondays
-/

namespace Rooti

open Relational Program

variable {V D : Type} {env : Env}

/-- **The days that belong to a frequency.** -/
def Frequency.Shaped (weekday : Option Weekday) (dayOfMonth : Option ℤ) : Frequency → Prop
  | .daily => weekday = none ∧ dayOfMonth = none
  | .weekly => weekday ≠ none ∧ dayOfMonth = none
  | .monthly => weekday = none ∧ ∃ d, dayOfMonth = some d ∧ 1 ≤ d ∧ d ≤ 28

/-- The schedule has the shape its frequency asks for. -/
def JournalEmailSchedule.WellFormed (s : JournalEmailSchedule) : Prop :=
  s.frequency.Shaped s.weekday s.dayOfMonth

/-- The requests on e-mail schedules. -/
inductive EmailScheduleRequest
  | create (req : JournalScheduleCreateRequest)
  | update (scheduleId : ℤ) (req : JournalScheduleUpdateRequest)
      (companyScope : CompanyScopeValue)
  | delete (scheduleId : ℤ) (companyScope : CompanyScopeValue)

/-- The state after a request. -/
def EmailScheduleRequest.step (env : Env) (request : EmailScheduleRequest) (w : World V D) :
    World V D :=
  match request with
  | .create req => (serve env (JournalScheduleService.create env req) w).2
  | .update scheduleId req companyScope =>
      (serve env (JournalScheduleService.update env scheduleId req companyScope) w).2
  | .delete scheduleId companyScope =>
      (serve env (JournalScheduleService.delete scheduleId companyScope) w).2

/-- **A schedule that is created for a company has the shape its frequency asks for.** -/
def EmailScheduleRequest.Fits (env : Env) (request : EmailScheduleRequest) (w : World V D) :
    Prop :=
  match request with
  | .create req => env.settings.appReadOnly = false → w.db.find? .company req.companyId ≠ none →
      req.frequency.Shaped req.weekday (req.dayOfMonth.map Subtype.val)
  | .update .. => True
  | .delete .. => True

/-! ## Assignments -/

namespace JournalScheduleUpdateRequest

variable {req : JournalScheduleUpdateRequest} {s : JournalEmailSchedule}

/-- Switching a schedule on or off leaves its days alone. -/
theorem toggle_wellFormed (h : s.WellFormed) : (req.toggle s).WellFormed := h

/-- A day of the month that is stored exists in every month. -/
theorem day_of_wellFormed (h : s.WellFormed) {d : ℤ} (hd : s.dayOfMonth = some d) :
    1 ≤ d ∧ d ≤ 28 := by
  unfold JournalEmailSchedule.WellFormed at h
  cases hf : s.frequency <;> rw [hf] at h
  · cases h.2.symm.trans hd
  · cases h.2.symm.trans hd
  · obtain ⟨-, d', hd', hrange⟩ := h
    cases hd'.symm.trans hd
    exact hrange

/-- `req.day_of_month or s.day_of_month or 1` exists in every month. -/
theorem day_in_range (day : Option DayOfMonth) (h : s.WellFormed) :
    1 ≤ Py.orInt (day.map Subtype.val) (Py.orInt s.dayOfMonth 1) ∧
      Py.orInt (day.map Subtype.val) (Py.orInt s.dayOfMonth 1) ≤ 28 := by
  have hstored : 1 ≤ Py.orInt s.dayOfMonth 1 ∧ Py.orInt s.dayOfMonth 1 ≤ 28 := by
    cases hd : s.dayOfMonth with
    | none => decide
    | some d =>
        obtain ⟨hle, hge⟩ := day_of_wellFormed h hd
        have hne : d ≠ 0 := by omega
        rw [Py.orInt, if_neg hne]
        exact ⟨hle, hge⟩
  cases day with
  | none => exact hstored
  | some d =>
      obtain ⟨hle, hge⟩ := d.property
      have hne : d.val ≠ 0 := by omega
      rw [Option.map_some, Py.orInt, if_neg hne]
      exact ⟨hle, hge⟩

/-- A new frequency comes with its days. -/
theorem reshape_wellFormed (h : s.WellFormed) : (req.reshape s).WellFormed := by
  unfold reshape
  split
  · exact h
  · exact ⟨rfl, rfl⟩
  · exact ⟨Option.some_ne_none _, rfl⟩
  · exact ⟨rfl, _, rfl, day_in_range req.dayOfMonth h⟩

/-- So do the other assignments, next to a new frequency. -/
theorem assign_wellFormed (h : s.WellFormed) (nextRunAt : Option DateTime) :
    (req.assign s nextRunAt).WellFormed := reshape_wellFormed h

end JournalScheduleUpdateRequest

/-! ## Requests -/

/-- The schedules among the rows are well formed. -/
def ShapedRow : (t : Entity) → Row t → Prop
  | .journalEmailSchedule, s => s.WellFormed
  | _, _ => True

/-- A property of schedules, among the properties of rows. -/
theorem rowsSatisfy_shaped {db : Db} :
    RowsSatisfy ShapedRow db ↔ ∀ s ∈ db.rows .journalEmailSchedule, s.WellFormed := by
  refine ⟨fun h => h .journalEmailSchedule, fun h t r hr => ?_⟩
  cases t with
  | journalEmailSchedule => exact h r hr
  | _ => trivial

namespace JournalScheduleService

section Rows

variable {P : (t : Entity) → Row t → Prop} {companyScope : CompanyScopeValue} {scheduleId : ℤ}

/-- Computing the next run reads the clock only. -/
theorem keepsRows_computeNextRun {timeStr : String} :
    KeepsRows P (computeNextRun env timeStr : Async V D DateTime) := by
  unfold computeNextRun
  exact .bind .datetimeNow fun _ => .bind .raiseIf fun _ => .bind .raiseIf fun _ =>
    .bind .raiseIf fun _ => .ret

/-- A `create` adds the row it is asked for. -/
theorem keepsRows_create {req : JournalScheduleCreateRequest}
    (h : ∀ nextRunAt new, P .journalEmailSchedule (req.row nextRunAt new)) :
    KeepsRows P (create env req : Async V D JournalScheduleResponse) :=
  .bind .dbGet fun _ => .bind .orRaise fun _ => .bind keepsRows_computeNextRun fun nextRunAt =>
    .bind (.add fun new => h nextRunAt new) fun _ => .bind .flush fun _ => .ret

/-- Checking the company only reads. -/
theorem keepsRows_checkTarget {s : JournalEmailSchedule} {companyId : Option ℤ} :
    KeepsRows P (checkTarget companyScope s companyId : Async V D Unit) := by
  cases companyId with
  | none => exact .ret
  | some companyId =>
      refine .ite (fun _ => .ret) fun _ => ?_
      exact .bind .raiseIf fun _ => .bind .dbGet fun _ => .bind .orRaise fun _ => .ret

/-- Computing the next run, if there is a time. -/
theorem keepsRows_nextRun {time : Option SendTime} :
    KeepsRows P (nextRun env time : Async V D (Option DateTime)) := by
  cases time with
  | none => exact .ret
  | some time => exact .bind keepsRows_computeNextRun fun _ => .ret

/-- An `update` keeps what both parts of its assignments keep. -/
theorem keepsRows_update {req : JournalScheduleUpdateRequest}
    (htoggle : ∀ s, P .journalEmailSchedule s → P .journalEmailSchedule (req.toggle s))
    (hassign : ∀ nextRunAt s, P .journalEmailSchedule s →
      P .journalEmailSchedule (req.assign s nextRunAt)) :
    KeepsRows P (update env scheduleId req companyScope : Async V D JournalScheduleResponse) := by
  refine .bind .dbGet fun _ => .bind .orRaise fun s => .bind .raiseIf fun _ => ?_
  refine .bind (.modify fun _ => htoggle) fun _ => .bind keepsRows_checkTarget fun _ => ?_
  refine .bind keepsRows_nextRun fun nextRunAt => ?_
  exact .bind (.modify fun _ => hassign nextRunAt) fun _ => .bind .dbGet fun _ => .ret

/-- A schedule that is deleted cannot break the property. -/
theorem keepsRows_delete :
    KeepsRows P (delete scheduleId companyScope : Async V D Unit) := by
  refine .bind .dbGet fun found => ?_
  cases found with
  | none => exact .ret
  | some s => exact .bind .raiseIf fun _ => .delete

end Rows

/-- A `create` for a company that does not exist changes nothing. -/
theorem serve_create_missing {w : World V D} {req : JournalScheduleCreateRequest}
    (h : w.db.find? .company req.companyId = none) :
    (serve env (create env req) w).2.db = w.db := by
  have hscript : (server env).Ensures (Holds w w.db []) (create env req)
      (fun _ _ _ => False) (Uncommitted w) := by
    refine holds_dbGet.bind fun found => .of_and ?_
    rintro rfl
    rw [h]
    exact .raise fun _ _ hholds => hholds.uncommitted
  obtain ⟨-, hsame⟩ | ⟨a, d, ps, -, hφ, -⟩ := serve_holds (φ := fun _ _ _ => False)
    (hscript.weaken (fun _ _ h => h) (fun _ _ _ h => h.elim) fun _ _ h => h)
  · exact hsame
  · exact hφ.elim

end JournalScheduleService

/-- **A request that fits keeps every schedule well formed.** -/
theorem shaped_step (request : EmailScheduleRequest) (w : World V D) (hfits : request.Fits env w)
    (h : RowsSatisfy ShapedRow w.db) : RowsSatisfy ShapedRow (request.step env w).db := by
  cases request with
  | create req =>
      by_cases hro : env.settings.appReadOnly = true
      · rw [EmailScheduleRequest.step, db_of_readOnly hro]
        exact h
      · by_cases hcompany : w.db.find? .company req.companyId = none
        · rw [EmailScheduleRequest.step, JournalScheduleService.serve_create_missing hcompany]
          exact h
        · have hshaped := hfits (Bool.eq_false_of_not_eq_true hro) hcompany
          exact (JournalScheduleService.keepsRows_create fun _ _ => hshaped).serve env h
  | update scheduleId req companyScope =>
      exact (JournalScheduleService.keepsRows_update
        (fun _ => JournalScheduleUpdateRequest.toggle_wellFormed)
        fun nextRunAt _ hs => JournalScheduleUpdateRequest.assign_wellFormed hs nextRunAt).serve
        env h
  | delete scheduleId companyScope => exact JournalScheduleService.keepsRows_delete.serve env h

/-- **E-mail schedules are well formed** in every state of a run whose requests fit.

The condition `Fits` is one on creations only. An update needs none, as a new frequency
clears the days of the others and fills in its own, and an update without a frequency
does not look at the days. -/
theorem emailSchedules_wellFormed {w₀ w : World V D}
    (hstart : ∀ s ∈ w₀.db.rows .journalEmailSchedule, s.WellFormed)
    {requests : List EmailScheduleRequest}
    (hfits : Runs.Guarded (EmailScheduleRequest.step env) (EmailScheduleRequest.Fits env)
      requests w₀)
    {before after : List EmailScheduleRequest} (hsplit : requests = before ++ after)
    (hw : w = Runs.run (EmailScheduleRequest.step env) before w₀) :
    ∀ s ∈ w.db.rows .journalEmailSchedule, s.WellFormed := by
  rw [hsplit] at hfits
  rw [hw]
  exact rowsSatisfy_shaped.mp (Runs.Guarded.invariant
    (I := fun w : World V D => RowsSatisfy ShapedRow w.db) shaped_step
    (rowsSatisfy_shaped.mpr hstart) hfits.of_append.1)

/-- Nine in the morning. -/
def nineOClock : SendTime := ⟨"09:00", by decide⟩

/-- A schedule of the sample company is created. -/
def schedules (frequency : Frequency) (weekday : Option Weekday) : EmailScheduleRequest :=
  .create
    { companyId := 1, recipientEmail := "a@b.kr", frequency, weekday, time := nineOClock }

/-- Journals are sent on Mondays, and then on the first of the month. -/
def mondaysThenMonthly : List EmailScheduleRequest :=
  [schedules .weekly (some .mon), .update 1 { frequency := some .monthly } none]

/-- The sample has no schedules. -/
theorem sample_noSchedules : Db.sample.rows .journalEmailSchedule = [] := by decide +kernel

/-- A schedule that is created and updated. -/
theorem emailSchedules_wellFormed_sample :
    Runs.Guarded (EmailScheduleRequest.step still) (EmailScheduleRequest.Fits still)
        mondaysThenMonthly (World.fresh Db.sample () : World Unit Unit) ∧
      ∀ s ∈ (Runs.run (EmailScheduleRequest.step still) mondaysThenMonthly
        (World.fresh Db.sample () : World Unit Unit)).db.rows .journalEmailSchedule,
        s.WellFormed := by
  have hfits : Runs.Guarded (EmailScheduleRequest.step still) (EmailScheduleRequest.Fits still)
      mondaysThenMonthly (World.fresh Db.sample () : World Unit Unit) :=
    ⟨fun _ _ => ⟨Option.some_ne_none _, rfl⟩, trivial, trivial⟩
  refine ⟨hfits, emailSchedules_wellFormed (fun s hs => ?_) hfits (List.append_nil _).symm rfl⟩
  rw [show (World.fresh Db.sample () : World Unit Unit).db.rows .journalEmailSchedule = [] from
    sample_noSchedules] at hs
  cases hs

/-- **A daily schedule on Mondays** is stored as it comes. -/
theorem emailSchedule_misshapen :
    (⟨1, 1, "a@b.kr", .daily, some .mon, none, "09:00", .pdf, true, some ⟨32400000000, none⟩, none,
        ⟨0, none⟩⟩ : JournalEmailSchedule) ∈
      (Runs.run (EmailScheduleRequest.step still) [schedules .daily (some .mon)]
        (World.fresh Db.sample () : World Unit Unit)).db.rows .journalEmailSchedule ∧
    ¬JournalEmailSchedule.WellFormed
      ⟨1, 1, "a@b.kr", .daily, some .mon, none, "09:00", .pdf, true, some ⟨32400000000, none⟩,
        none, ⟨0, none⟩⟩ := by
  refine ⟨by decide +kernel, ?_⟩
  rintro ⟨hnone, -⟩
  cases hnone

end Rooti
