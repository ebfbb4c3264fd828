import Rooti.Core.Pagination
import Rooti.Services.WorkRecord

/-!
# Work schedules

A work schedule is a shift of a worker at a job.  It is made by itself or in a batch,
one for each assignment of a standard, and it is closed by hand or by the end of its
`OFF` record.

## Main definitions

* `WorkScheduleService.listAll`, `listForJobWorker`, `listForStandard` — listings
* `WorkScheduleService.create`, `batchMake` — new shifts
* `WorkScheduleService.close` — the end of a shift
-/

namespace Rooti

open Relational Program

variable {V D : Type}

/-! ## Requests and responses -/

/-- `CreateScheduleRequest`. -/
structure CreateScheduleRequest where
  jobWorkerId : ℤ
  companyChargerId : Option ℤ := none
  startAt : DateTime
  endAt : Option DateTime := none
  makeWorkDoc : Option Bool := some false

/-- `BatchMakeRequest`. -/
structure BatchMakeRequest where
  jobStandardId : ℤ
  date : Date
  companyChargerId : Option ℤ := none
  jobWorkerIds : List ℤ := []

/-- `ScheduleResponse`. -/
structure ScheduleResponse where
  id : ℤ
  jobWorkerId : ℤ
  jobStandardId : ℤ
  jobStandardName : Option String
  companyChargerId : Option ℤ
  startAt : DateTime
  endAt : Option DateTime
  makeWorkDoc : Bool
  workDocPath : Option String
  deriving DecidableEq

/-- `_to_schedule_response`. -/
def toScheduleResponse (s : WorkSchedule) (standard : Option JobStandard) : ScheduleResponse where
  id := s.id
  jobWorkerId := s.jobWorkerId
  jobStandardId := s.jobStandardId
  jobStandardName := standard.map JobStandard.name
  companyChargerId := s.companyChargerId
  startAt := s.startAt
  endAt := s.endAt
  makeWorkDoc := s.makeWorkDoc
  workDocPath := s.workDocPath

/-- The shift a `create` adds. -/
def CreateScheduleRequest.row (req : CreateScheduleRequest) (jw : JobWorker) (new : NewRow) :
    WorkSchedule where
  id := new.id
  jobWorkerId := req.jobWorkerId
  companyChargerId := req.companyChargerId
  jobStandardId := jw.jobStandardId
  startAt := req.startAt
  endAt := req.endAt
  workDocPath := none
  makeWorkDoc := req.makeWorkDoc.getD false

/-- The shift a `batch_make` adds for an assignment: it starts at midnight. -/
def BatchMakeRequest.row (req : BatchMakeRequest) (jobWorkerId : ℤ) (new : NewRow) :
    WorkSchedule where
  id := new.id
  jobWorkerId := jobWorkerId
  companyChargerId := req.companyChargerId
  jobStandardId := req.jobStandardId
  startAt := DateTime.dayStart req.date
  endAt := none
  workDocPath := none
  makeWorkDoc := false

namespace WorkScheduleService

/-- `get_or_throw`. -/
def getOrThrow (scheduleId : ℤ) : Async V D WorkSchedule := do
  let found ← dbGet .workSchedule scheduleId
  Prog.orRaise (businessException .workScheduleNotFound) found

/-- `_to_response`. -/
def toResponse (s : WorkSchedule) : Async V D ScheduleResponse := do
  let standard ← dbGet .jobStandard s.jobStandardId
  return toScheduleResponse s standard

/-- `get`. -/
def get (scheduleId : ℤ) : Async V D ScheduleResponse := do
  let s ← getOrThrow scheduleId
  toResponse s

/-- A shift with its standard. -/
def withStandard (db : Db) (s : WorkSchedule) : Option (WorkSchedule × JobStandard) :=
  (db.find? .jobStandard s.jobStandardId).map fun standard => (s, standard)

/-- All shifts, with their standards. -/
def allRows (db : Db) : List (WorkSchedule × JobStandard) :=
  (db.rows .workSchedule).filterMap (withStandard db)

/-- The response of a listed shift. -/
def rowToResponse (row : WorkSchedule × JobStandard) : ScheduleResponse :=
  toScheduleResponse row.1 (some row.2)

/-- `list_all`. -/
def listAll (params : PageParams) : Async V D (Page ScheduleResponse) :=
  listPage [] allRows (fun o => o.orderByDesc fun row => row.1.startAt.micros)
    (fun row => .ok (rowToResponse row)) params

/-- `_MAX_DATE_SPAN_DAYS`. -/
def maxDateSpanDays : ℤ := 31

/-- A shift of the job worker that starts in the days asked for. -/
def startsWithinOf (jobWorkerId : ℤ) (from_ to_ : Date) (s : WorkSchedule) : Bool :=
  s.jobWorkerId = jobWorkerId && (DateTime.dayStart from_).micros ≤ s.startAt.micros &&
    s.startAt.micros < (DateTime.dayEnd to_).micros

/-- The shifts of a job worker in some days. -/
def rowsForJobWorker (jobWorkerId : ℤ) (from_ to_ : Date) (db : Db) :
    List (WorkSchedule × JobStandard) :=
  (allRows db).filter fun row => startsWithinOf jobWorkerId from_ to_ row.1

/-- `list_for_job_worker`. -/
def listForJobWorker (jobWorkerId : ℤ) (from_ to_ : Date) : Async V D (List ScheduleResponse) := do
  Prog.raiseIf (decide (maxDateSpanDays < to_.days - from_.days))
    (businessExceptionWith .invalidInput "date range must be ≤ 31 days")
  let rows ← select [.int jobWorkerId] fun o db =>
    o.orderBy (fun row => row.1.startAt.micros) (rowsForJobWorker jobWorkerId from_ to_ db)
  return rows.map rowToResponse

/-- A shift of the standard that starts in the days asked for. -/
def startsWithin (jobStandardId : ℤ) (from_ to_ : Date) (s : WorkSchedule) : Bool :=
  s.jobStandardId = jobStandardId && (DateTime.dayStart from_).micros ≤ s.startAt.micros &&
    s.startAt.micros < (DateTime.dayEnd to_).micros

/-- The shifts of a standard in some days. -/
def rowsForStandard (jobStandardId : ℤ) (from_ to_ : Date) (db : Db) :
    List (WorkSchedule × JobStandard) :=
  (allRows db).filter fun row => startsWithin jobStandardId from_ to_ row.1

/-- `list_for_standard`. -/
def listForStandard (jobStandardId : ℤ) (from_ to_ : Date) (params : PageParams) :
    Async V D (Page ScheduleResponse) := do
  Prog.raiseIf (decide (maxDateSpanDays < to_.days - from_.days))
    (businessExceptionWith .invalidInput "date range must be ≤ 31 days")
  listPage [.int jobStandardId] (rowsForStandard jobStandardId from_ to_)
    (fun o => o.orderBy fun row => row.1.startAt.micros)
    (fun row => .ok (rowToResponse row)) params

/-- `create`: the charger is not looked up. -/
def create (req : CreateScheduleRequest) : Async V D ScheduleResponse := do
  let found ← dbGet .jobWorker req.jobWorkerId
  let jw ← Prog.orRaise (businessException .jobWorkerNotFound) found
  let new ← add .workSchedule (req.row jw)
  flush
  toResponse (req.row jw new)

/-- The shifts of the assignments of the standard; the others are passed over. -/
def makeAll (req : BatchMakeRequest) : List ℤ → Async V D (List WorkSchedule)
  | [] => .ret []
  | jobWorkerId :: rest =>
      (dbGet .jobWorker jobWorkerId).bind fun found =>
        if found.any fun jw => jw.jobStandardId = req.jobStandardId then
          (add .workSchedule (req.row jobWorkerId)).bind fun new =>
            (makeAll req rest).bind fun schedules => .ret (req.row jobWorkerId new :: schedules)
        else makeAll req rest

/-- One response after the other. -/
def toResponses : List WorkSchedule → Async V D (List ScheduleResponse)
  | [] => .ret []
  | s :: rest =>
      (toResponse s).bind fun resp => (toResponses rest).bind fun resps => .ret (resp :: resps)

/-- `batch_make`. -/
def batchMake (req : BatchMakeRequest) : Async V D (List ScheduleResponse) := do
  let standard ← dbGet .jobStandard req.jobStandardId
  let _ ← Prog.orRaise (businessException .jobStandardNotFound) standard
  let schedules ← makeAll req req.jobWorkerIds
  flush
  toResponses schedules

/-- `close`. -/
def close (env : Env) (scheduleId : ℤ) (endAt : Option DateTime) : Async V D ScheduleResponse := do
  let s ← getOrThrow scheduleId
  let t ← atOrNow env endAt
  modify .workSchedule s fun s => { s with endAt := some t }
  toResponse { s with endAt := some t }

end WorkScheduleService

end Rooti
