import Rooti.Core.Pagination
import Rooti.Core.Tenant

/-!
# Schedules of journal e-mails

A schedule says when the journals of a company are sent: every day, on a weekday, or on a
day of the month that every month has.

## Main definitions

* `DayOfMonth`, `SendTime` — fields that passed validation
* `JournalScheduleUpdateRequest.reshape` — a new frequency
* `JournalScheduleService.list`, `create`, `update`, `delete`
-/

namespace Rooti

open Relational Program

variable {V D : Type}

/-! ## Requests and responses -/

/-- `_DOM_MAX`. -/
def domMax : ℤ := 28

/-- `Field(ge=1, le=_DOM_MAX)`. -/
abbrev DayOfMonth := {d : ℤ // 1 ≤ d ∧ d ≤ domMax}

/-- `_TIME_PATTERN`: `\d` is a decimal digit of any script. -/
def timePattern : List Char → Bool
  | [h, h', ':', m, m'] =>
      ((h = '0' || h = '1') && (Py.digit? h').isSome || h = '2' && '0' ≤ h' && h' ≤ '3') &&
        ('0' ≤ m && m ≤ '5' && (Py.digit? m').isSome)
  | _ => false

/-- `Field(pattern=_TIME_PATTERN)`. -/
abbrev SendTime := {s : String // timePattern s.toList}

/-- `JournalScheduleCreateRequest`. -/
structure JournalScheduleCreateRequest where
  companyId : ℤ
  recipientEmail : String
  frequency : Frequency
  weekday : Option Weekday := none
  dayOfMonth : Option DayOfMonth := none
  time : SendTime
  format : JournalFormat := .pdf
  enabled : Bool := true

/-- `JournalScheduleUpdateRequest`. -/
structure JournalScheduleUpdateRequest where
  companyId : Option ℤ := none
  recipientEmail : Option String := none
  frequency : Option Frequency := none
  weekday : Option Weekday := none
  dayOfMonth : Option DayOfMonth := none
  time : Option SendTime := none
  format : Option JournalFormat := none
  enabled : Option Bool := none

/-- `JournalScheduleResponse`. -/
structure JournalScheduleResponse where
  id : ℤ
  companyId : ℤ
  companyName : Option String
  recipientEmail : String
  frequency : Frequency
  weekday : Option Weekday
  dayOfMonth : Option ℤ
  time : String
  format : JournalFormat
  enabled : Bool
  nextRunAt : Option DateTime
  lastRunAt : Option DateTime
  createdAt : DateTime
  deriving DecidableEq

/-- `_to_response`. -/
def JournalEmailSchedule.toResponse (s : JournalEmailSchedule) (companyName : Option String) :
    JournalScheduleResponse where
  id := s.id
  companyId := s.companyId
  companyName := companyName
  recipientEmail := s.recipientEmail
  frequency := s.frequency
  weekday := s.weekday
  dayOfMonth := s.dayOfMonth
  time := s.sendTime
  format := s.format
  enabled := s.enabled
  nextRunAt := s.nextRunAt
  lastRunAt := s.lastRunAt
  createdAt := s.createdAt

/-! ## The next run -/

/-- `(int(x) for x in time_str.split(":", 1))`, if there are two numbers. -/
def hourMinute (timeStr : String) : Option (ℤ × ℤ) :=
  match timeStr.toList.span (· ≠ ':') with
  | (h, ':' :: m) => do return (← Py.int? (String.ofList h), ← Py.int? (String.ofList m))
  | _ => none

/-- `_compute_next_run`: today, or tomorrow if the time has passed and there is one. -/
def computeNextRun (env : Env) (timeStr : String) : Async V D DateTime := do
  let (h, m) := (hourMinute timeStr).getD (9, 0)
  let now ← datetimeNow env
  Prog.raiseIf (!(decide (0 ≤ h ∧ h ≤ 23))) (.python "ValueError" "hour must be in 0..23")
  Prog.raiseIf (!(decide (0 ≤ m ∧ m ≤ 59))) (.python "ValueError" "minute must be in 0..59")
  let today := (DateTime.dayStart now.date).micros + (h * 60 + m) * 60000000
  Prog.raiseIf (decide (today < now.micros ∧ Date.max.days ≤ now.date.days))
    (.python "OverflowError" "date value out of range")
  return ⟨if today < now.micros then today + DateTime.dayMicros else today, none⟩

/-! ## Assignments -/

/-- The schedule a `create` adds. -/
def JournalScheduleCreateRequest.row (req : JournalScheduleCreateRequest) (nextRunAt : DateTime)
    (new : NewRow) : JournalEmailSchedule where
  id := new.id
  companyId := req.companyId
  recipientEmail := req.recipientEmail
  frequency := req.frequency
  weekday := req.weekday
  dayOfMonth := req.dayOfMonth.map Subtype.val
  sendTime := req.time
  format := req.format
  enabled := req.enabled
  nextRunAt := some nextRunAt
  lastRunAt := none
  createdAt := new.createdAt

namespace JournalScheduleUpdateRequest

variable (req : JournalScheduleUpdateRequest) (s : JournalEmailSchedule)

/-- The schedule is switched on or off. -/
def toggle : JournalEmailSchedule := { s with enabled := req.enabled.getD s.enabled }

/-- A new frequency clears what belongs to the others. -/
def reshape : JournalEmailSchedule :=
  match req.frequency with
  | none => s
  | some .daily => { s with frequency := .daily, weekday := none, dayOfMonth := none }
  | some .weekly =>
      { s with
        frequency := .weekly
        weekday := some ((req.weekday.orElse fun _ => s.weekday).getD .mon)
        dayOfMonth := none }
  | some .monthly =>
      { s with
        frequency := .monthly
        dayOfMonth := some (Py.orInt (req.dayOfMonth.map Subtype.val) (Py.orInt s.dayOfMonth 1))
        weekday := none }

/-- The assignments after the company has been checked. -/
def assign (nextRunAt : Option DateTime) : JournalEmailSchedule :=
  { req.reshape s with
    companyId := req.companyId.getD s.companyId
    recipientEmail := Py.orElse req.recipientEmail s.recipientEmail
    sendTime := (req.time.map Subtype.val).getD s.sendTime
    nextRunAt := nextRunAt.orElse fun _ => s.nextRunAt
    format := req.format.getD s.format }

end JournalScheduleUpdateRequest

namespace JournalScheduleService

/-- `list`. -/
def list (companyId : Option ℤ) : Async V D (List JournalScheduleResponse) := do
  let rows ← select (companyId.toList.map Bind.int) fun o db =>
    (o.orderByDesc JournalEmailSchedule.id
      ((db.rows .journalEmailSchedule).filter fun s => companyId.all (s.companyId = ·))).map
        fun s => (s, (db.find? .company s.companyId).map Company.name)
  return rows.map fun row => row.1.toResponse row.2

/-- `create`: weekday and day of the month are stored as they come. -/
def create (env : Env) (req : JournalScheduleCreateRequest) :
    Async V D JournalScheduleResponse := do
  let found ← dbGet .company req.companyId
  let company ← Prog.orRaise (businessException .companyNotFound) found
  let nextRunAt ← computeNextRun env req.time
  let new ← add .journalEmailSchedule (req.row nextRunAt)
  flush
  return (req.row nextRunAt new).toResponse (some company.name)

/-- The company a schedule is moved to is in scope and exists. -/
def checkTarget (companyScope : CompanyScopeValue) (s : JournalEmailSchedule) :
    Option ℤ → Async V D Unit
  | none => .ret ()
  | some companyId =>
      if companyId = s.companyId then .ret ()
      else do
        assertCompany companyScope (some companyId)
        let company ← dbGet .company companyId
        let _ ← Prog.orRaise (businessException .companyNotFound) company
        return ()

/-- `if req.time: ... _compute_next_run(req.time)`. -/
def nextRun (env : Env) : Option SendTime → Async V D (Option DateTime)
  | none => .ret none
  | some time => do return some (← computeNextRun env time)

/-- `update`. -/
def update (env : Env) (scheduleId : ℤ) (req : JournalScheduleUpdateRequest)
    (companyScope : CompanyScopeValue := none) : Async V D JournalScheduleResponse := do
  let found ← dbGet .journalEmailSchedule scheduleId
  let s ← Prog.orRaise (businessExceptionWith .resourceNotFound "스케줄이 없습니다.") found
  assertCompany companyScope (some s.companyId)
  modify .journalEmailSchedule s req.toggle
  checkTarget companyScope s req.companyId
  let nextRunAt ← nextRun env req.time
  modify .journalEmailSchedule (req.toggle s) fun s => req.assign s nextRunAt
  let updated := req.assign (req.toggle s) nextRunAt
  let company ← dbGet .company updated.companyId
  return updated.toResponse (company.map Company.name)

/-- `delete`: a schedule that does not exist is passed over. -/
def delete (scheduleId : ℤ) (companyScope : CompanyScopeValue := none) : Async V D Unit := do
  match ← dbGet .journalEmailSchedule scheduleId with
  | none => return ()
  | some s => do
      assertCompany companyScope (some s.companyId)
      Rooti.delete .journalEmailSchedule s

end JournalScheduleService

end Rooti
