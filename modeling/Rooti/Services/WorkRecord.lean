import Rooti.Core.Database

/-!
# Work records

The records of a shift: one kind per state of the shift (`ON`, `WORK`, `REST`,
`OFF`), opened by `begin` and closed by `end`, and one per process of the job,
opened by `begin_process` and closed by `end_process`.  A record is open while
its `end_at` is missing.

## Main definitions

* `WorkRecord.opens`, `WorkProcessRecord.opens` — the open records
* `WorkRecordService.begin`, `end`, `beginProcess`, `endProcess`
* `WorkRecordService.list`, `listProcess` — the records of a schedule
-/

namespace Rooti

open Relational Program

variable {V D : Type}

/-! ## Requests and responses -/

/-- `RecordStartRequest`. -/
structure RecordStartRequest where
  workScheduleId : ℤ
  type : WorkRecordType
  at' : Option DateTime := none

/-- `RecordEndRequest`. -/
structure RecordEndRequest where
  workScheduleId : ℤ
  type : WorkRecordType
  at' : Option DateTime := none

/-- `RecordResponse`. -/
structure RecordResponse where
  id : ℤ
  workScheduleId : ℤ
  type : WorkRecordType
  startAt : DateTime
  endAt : Option DateTime
  deriving DecidableEq

/-- `ProcessStartRequest`. -/
structure ProcessStartRequest where
  workScheduleId : ℤ
  jobProcessId : ℤ
  type : Option String := none
  at' : Option DateTime := none
  condition : Option ℤ := none
  answer : Option String := none
  voicePath : Option String := none
  process : Option Json := none

/-- `ProcessEndRequest`. -/
structure ProcessEndRequest where
  workScheduleId : ℤ
  jobProcessId : ℤ
  at' : Option DateTime := none
  condition : Option ℤ := none
  answer : Option String := none
  voicePath : Option String := none
  process : Option Json := none

/-- `ProcessRecordResponse`. -/
structure ProcessRecordResponse where
  id : ℤ
  workScheduleId : ℤ
  jobProcessId : ℤ
  jobProcessName : String
  type : String
  startAt : Option DateTime
  endAt : Option DateTime
  startCondition : Option ℤ
  endCondition : Option ℤ
  startAnswer : Option String
  endAnswer : Option String
  startVoicePath : Option String
  endVoicePath : Option String
  process : Option Json
  deriving DecidableEq

/-- `_to_record`. -/
def toRecord (r : WorkRecord) : RecordResponse where
  id := r.id
  workScheduleId := r.workScheduleId
  type := r.type
  startAt := r.startAt
  endAt := r.endAt

/-- `_to_process`. -/
def toProcess (r : WorkProcessRecord) (jobProcessName : String) :
    ProcessRecordResponse where
  id := r.id
  workScheduleId := r.workScheduleId
  jobProcessId := r.jobProcessId
  jobProcessName := jobProcessName
  type := r.type
  startAt := r.startAt
  endAt := r.endAt
  startCondition := r.startCondition
  endCondition := r.endCondition
  startAnswer := r.startAnswer
  endAnswer := r.endAnswer
  startVoicePath := r.startVoicePath
  endVoicePath := r.endVoicePath
  process := r.process

/-! ## Open records -/

/-- The record is open, of this type, on this schedule. -/
def WorkRecord.opens (scheduleId : ℤ) (type : WorkRecordType) (r : WorkRecord) : Bool :=
  r.workScheduleId = scheduleId ∧ r.type = type ∧ r.endAt = none

/-- The process record is open, on this schedule and process. -/
def WorkProcessRecord.opens (scheduleId processId : ℤ) (r : WorkProcessRecord) : Bool :=
  r.workScheduleId = scheduleId ∧ r.jobProcessId = processId ∧ r.endAt = none

/-- `at or datetime.now()`. -/
def atOrNow (env : Env) : Option DateTime → Async V D DateTime
  | some t => return t
  | none => datetimeNow env

/-- The record a `begin` creates. -/
def RecordStartRequest.row (req : RecordStartRequest) (startAt : DateTime) (new : NewRow) :
    WorkRecord where
  id := new.id
  workScheduleId := req.workScheduleId
  type := req.type
  startAt := startAt
  endAt := none

/-- The record a `begin_process` creates. -/
def ProcessStartRequest.row (req : ProcessStartRequest) (startAt : DateTime) (new : NewRow) :
    WorkProcessRecord where
  id := new.id
  workScheduleId := req.workScheduleId
  jobProcessId := req.jobProcessId
  type := Py.orElse req.type "PROCESS"
  startAt := some startAt
  endAt := none
  startCondition := req.condition
  endCondition := none
  startAnswer := req.answer
  endAnswer := none
  startVoicePath := req.voicePath
  endVoicePath := none
  process := req.process

/-- The attribute assignments of an `end_process`. -/
def ProcessEndRequest.apply (req : ProcessEndRequest) (endAt : DateTime)
    (r : WorkProcessRecord) : WorkProcessRecord :=
  { r with
    endAt := some endAt
    endCondition := req.condition
    endAnswer := req.answer
    endVoicePath := req.voicePath
    process := req.process.orElse fun _ => r.process }

namespace WorkRecordService

/-- `_schedule_or_throw`. -/
def scheduleOrThrow (scheduleId : ℤ) : Async V D WorkSchedule := do
  let found ← dbGet .workSchedule scheduleId
  Prog.orRaise (businessException .workScheduleNotFound) found

/-- `_find_open_record`. -/
def findOpenRecord (scheduleId : ℤ) (type : WorkRecordType) :
    Async V D (Option WorkRecord) := do
  let rows ← select [.int scheduleId] fun o db =>
    o.orderByDesc (fun r => r.startAt.micros)
      ((db.rows .workRecord).filter (WorkRecord.opens scheduleId type))
  scalarOneOrNone rows

/-- A second `begin` is refused while a record is open. -/
def refuseOpen : Option WorkRecord → Async V D Unit
  | none => return ()
  | some r => Prog.raise (businessExceptionWith .workRecordOutOfRange
      ("이미 동일 타입의 진행중인 기록이 있습니다 (id=" ++ toString r.id ++ ")"))

/-- `begin`. -/
def «begin» (env : Env) (req : RecordStartRequest) : Async V D RecordResponse := do
  let _ ← scheduleOrThrow req.workScheduleId
  let openExisting ← findOpenRecord req.workScheduleId req.type
  refuseOpen openExisting
  let startAt ← atOrNow env req.at'
  let new ← add .workRecord (req.row startAt)
  flush
  return toRecord (req.row startAt new)

/-- The shift ends with its `OFF` record. -/
def closeSchedule (r : WorkRecord) (type : WorkRecordType) (endAt : DateTime) :
    Async V D Unit :=
  if type = .off then do
    match ← dbGet .workSchedule r.workScheduleId with
    | none => return ()
    | some schedule => modify .workSchedule schedule fun s => { s with endAt := some endAt }
  else return ()

/-- `end`. -/
def «end» (env : Env) (req : RecordEndRequest) : Async V D RecordResponse := do
  let found ← findOpenRecord req.workScheduleId req.type
  let r ← Prog.orRaise (businessException .workRecordNotFound) found
  let endAt ← atOrNow env req.at'
  modify .workRecord r fun r => { r with endAt := some endAt }
  closeSchedule r req.type endAt
  return toRecord { r with endAt := some endAt }

/-- `list`. -/
def list (scheduleId : ℤ) : Async V D (List RecordResponse) := do
  let rows ← select [.int scheduleId] fun o db =>
    o.orderBy (fun r => r.startAt.micros)
      ((db.rows .workRecord).filter fun r => r.workScheduleId = scheduleId)
  return rows.map toRecord

/-- `begin_process`. -/
def beginProcess (env : Env) (req : ProcessStartRequest) : Async V D ProcessRecordResponse := do
  let _ ← scheduleOrThrow req.workScheduleId
  let found ← dbGet .jobProcess req.jobProcessId
  let jobProcess ← Prog.orRaise (businessException .jobProcessNotFound) found
  let startAt ← atOrNow env req.at'
  let new ← add .workProcessRecord (req.row startAt)
  flush
  return toProcess (req.row startAt new) jobProcess.name

/-- `end_process`. -/
def endProcess (env : Env) (req : ProcessEndRequest) : Async V D ProcessRecordResponse := do
  let rows ← select [.int req.workScheduleId, .int req.jobProcessId] fun o db =>
    o.scan ((db.rows .workProcessRecord).filter
      (WorkProcessRecord.opens req.workScheduleId req.jobProcessId))
  let found ← scalarOneOrNone rows
  let r ← Prog.orRaise (businessException .workRecordNotFound) found
  let endAt ← atOrNow env req.at'
  modify .workProcessRecord r (req.apply endAt)
  let jobProcess ← dbGet .jobProcess r.jobProcessId
  return toProcess (req.apply endAt r) (match jobProcess with
    | some p => p.name
    | none => "")

/-- The process records of a schedule, each with the name of its process; records without a
start come last. -/
def processRows (scheduleId : ℤ) (o : RowOrder) (db : Db) : List (WorkProcessRecord × String) :=
  ((o.scan ((db.rows .workProcessRecord).filter fun r =>
    r.workScheduleId = scheduleId)).mergeSort fun a b => startsBefore a.startAt b.startAt).filterMap
      fun r => (db.find? .jobProcess r.jobProcessId).map fun p => (r, p.name)
where
  /-- `ORDER BY start_at`, `NULLS LAST`. -/
  startsBefore : Option DateTime → Option DateTime → Bool
    | some a, some b => a.micros ≤ b.micros
    | _, none => true
    | none, some _ => false

/-- `list_process`. -/
def listProcess (scheduleId : ℤ) : Async V D (List ProcessRecordResponse) := do
  let rows ← select [.int scheduleId] (processRows scheduleId)
  return rows.map fun row => toProcess row.1 row.2

end WorkRecordService

end Rooti
