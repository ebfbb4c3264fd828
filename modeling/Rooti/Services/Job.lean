import Rooti.Core.Pagination
import Rooti.Schemas.Job

/-!
# Job standards and assignments

A standard is read with its processes and the name of its company, through the
cache.  `syncProcesses` takes the complete list of processes a standard shall
have: entries with an id change the row of that id, entries without one become
new rows, and rows no entry names are dropped.

A process keeps what was assigned to it in memory until the flush, so an entry
may change a row that an earlier entry changed already (`syncEntry`).

## Main definitions

* `JobStandardService.get`, `search`, `create`, `update`, `deactivate`, `syncProcesses`
* `JobWorkerService.assign`, `unassign`, `listByJobStandard`,
  `listActiveByCompanyWorker`
-/

namespace Rooti

open Program

variable {V D : Type}

/-! ## Processes in memory -/

/-- A document column once `value` was assigned to its attribute: `None` leaves a
column alone that is read as `None` already. -/
def Dict.assign (column : Option Json) : Option Dict → Option Json
  | some fields => some (.obj fields)
  | none =>
      match column with
      | some .null => some .null
      | _ => none

/-- The attribute reads what was assigned. -/
theorem Dict.ofColumn_assign (column : Option Json) (value : Option Dict) :
    Dict.ofColumn (Dict.assign column value) = .ok value := by
  cases value with
  | some fields => rfl
  | none =>
      rcases column with _ | (_ | _ | _ | _ | _ | _ | _) <;> rfl

/-- The attribute assignments of an entry. -/
def ProcessUpsertRequest.assign (p : ProcessUpsertRequest) (row : JobProcess) : JobProcess :=
  { row with
    name := p.name
    sequence := p.sequence
    videoPath := p.videoPath
    startMessage := p.startMessage
    endMessage := p.endMessage
    context := Dict.assign row.context p.context
    processTime := p.processTimeSeconds }

/-- `_new_process`. -/
def newProcess (standardId : ℤ) (p : ProcessUpsertRequest) (new : NewRow) : JobProcess where
  id := new.id
  jobStandardId := standardId
  name := p.name
  sequence := p.sequence
  videoPath := p.videoPath
  startMessage := p.startMessage
  endMessage := p.endMessage
  context := Dict.assign none p.context
  processTime := p.processTimeSeconds

/-- The columns of a process that are written are those of `values`. -/
def JobProcess.overwrite (values row : JobProcess) : JobProcess :=
  { values with
    id := row.id
    jobStandardId := row.jobStandardId }

/-- `JobProcessResponse` of a process. -/
def JobProcessResponse.ofRow (p : JobProcess) : Except Err JobProcessResponse := do
  let context ← Dict.ofColumn p.context
  return {
    id := p.id
    name := p.name
    sequence := p.sequence
    videoPath := p.videoPath
    startMessage := p.startMessage
    endMessage := p.endMessage
    context
    processTimeSeconds := p.processTime }

/-- `_to_standard_response`, for a standard whose processes are loaded. -/
def toStandardResponse (s : JobStandard) (processes : List JobProcess)
    (companyName : Option String) : Except Err JobStandardResponse := do
  let context ← Dict.ofColumn s.context
  let processes ← processes.mapM JobProcessResponse.ofRow
  return {
    id := s.id
    companyId := s.companyId
    companyName
    name := s.name
    useFlag := s.useFlag
    routineStartTime := s.routineStartTime.map fun micros => ⟨micros, none⟩
    standardWorkTimeSeconds := s.standardWorkTime
    standardRestTimeSeconds := s.standardRestTime
    startMessage := s.startMessage
    endMessage := s.endMessage
    context
    forJournal := s.forJournal
    processes }

/-- **When a standard is shown**: its document and those of its processes have to be
dictionaries. -/
theorem toStandardResponse_eq_ok_iff {s : JobStandard} {processes : List JobProcess}
    {name : Option String} {resp : JobStandardResponse} :
    toStandardResponse s processes name = .ok resp ↔
      ∃ context responses, Dict.ofColumn s.context = .ok context ∧
        processes.mapM JobProcessResponse.ofRow = .ok responses ∧
        { id := s.id
          companyId := s.companyId
          companyName := name
          name := s.name
          useFlag := s.useFlag
          routineStartTime := s.routineStartTime.map fun micros => ⟨micros, none⟩
          standardWorkTimeSeconds := s.standardWorkTime
          standardRestTimeSeconds := s.standardRestTime
          startMessage := s.startMessage
          endMessage := s.endMessage
          context := context
          forJournal := s.forJournal
          processes := responses } = resp := by
  rw [toStandardResponse]
  cases Dict.ofColumn s.context with
  | error e => exact iff_of_false (fun h => by cases h) (by rintro ⟨_, _, h, -⟩; cases h)
  | ok context =>
      cases processes.mapM JobProcessResponse.ofRow with
      | error e => exact iff_of_false (fun h => by cases h) (by rintro ⟨_, _, -, h, -⟩; cases h)
      | ok responses =>
          constructor
          · intro h
            exact ⟨context, responses, rfl, rfl, Except.ok.inj h⟩
          · rintro ⟨_, _, ⟨⟩, ⟨⟩, rfl⟩
            rfl

/-- When a process is shown, and what of it. -/
theorem JobProcessResponse.ofRow_eq_ok_iff {row : JobProcess} {resp : JobProcessResponse} :
    JobProcessResponse.ofRow row = .ok resp ↔
      ∃ context, Dict.ofColumn row.context = .ok context ∧
        { id := row.id
          name := row.name
          sequence := row.sequence
          videoPath := row.videoPath
          startMessage := row.startMessage
          endMessage := row.endMessage
          context := context
          processTimeSeconds := row.processTime } = resp := by
  rw [JobProcessResponse.ofRow]
  cases Dict.ofColumn row.context with
  | error e => exact iff_of_false (fun h => by cases h) (by rintro ⟨_, h, -⟩; cases h)
  | ok context =>
      constructor
      · intro h
        exact ⟨context, rfl, Except.ok.inj h⟩
      · rintro ⟨_, ⟨⟩, rfl⟩
        rfl

namespace JobStandardService

/-- `_CACHE_NS`. -/
def cacheNs : String := "job_standard"

/-- `_CACHE_TTL`: ten minutes. -/
def cacheTtl : ℤ := 600

/-- `get_or_throw`. -/
def getOrThrow (standardId : ℤ) : Async V D JobStandard := do
  let found ← dbGet .jobStandard standardId
  Prog.orRaise (businessException .jobStandardNotFound) found

/-- `_company_name`. -/
def companyName (companyId : ℤ) : Async V D (Option String) := do
  let company ← dbGet .company companyId
  return company.map Company.name

/-- The processes of a standard, by sequence. -/
def processesOf (standardId : ℤ) (o : RowOrder) (db : Db) : List JobProcess :=
  o.orderBy JobProcess.sequence ((db.rows .jobProcess).filter fun p => p.jobStandardId = standardId)

/-- A standard and, with a query of their own, its processes. -/
def loadStandard (standardId : ℤ) : Async V D (JobStandard × List JobProcess) := do
  let s ← getOrThrow standardId
  let processes ← select [.int s.id] (processesOf s.id)
  return (s, processes)

/-- The response of a standard that is not cached. -/
def build (standardId : ℤ) : Async V D JobStandardResponse := do
  let loaded ← loadStandard standardId
  let name ← companyName loaded.1.companyId
  Prog.ofExcept (toStandardResponse loaded.1 loaded.2 name)

/-- A standard that is not cached is read from the database and cached. -/
def load (p : Pydantic V) (standardId : ℤ) : Async V D JobStandardResponse := do
  let resp ← build standardId
  setModel p (JobStandardResponse.codec p) resp cacheNs standardId cacheTtl
  return resp

/-- `get`. -/
def get (p : Pydantic V) (standardId : ℤ) : Async V D JobStandardResponse := do
  match ← getModel p (JobStandardResponse.codec p) cacheNs standardId with
  | some hit => return hit
  | none => load p standardId

/-- A standard with the name of its company. -/
def withCompany (db : Db) (s : JobStandard) : Option (JobStandard × String) :=
  (db.find? .company s.companyId).map fun company => (s, company.name)

/-- The standards that a search finds. -/
def searchRows (ilike : String → String → Bool) (companyId : Option ℤ) (keyword : Option String)
    (db : Db) : List (JobStandard × String) :=
  ((db.rows .jobStandard).filterMap (withCompany db)).filter fun row =>
    companyId.all (row.1.companyId = ·) && keywordMatches ilike keyword [some row.1.name]

/-- `search`: processes are left out. -/
def search (ilike : String → String → Bool) (companyId : Option ℤ) (keyword : Option String)
    (params : PageParams) : Async V D (Page JobStandardResponse) :=
  listPage (companyId.toList.map Bind.int ++ keywordBinds keyword)
    (searchRows ilike companyId keyword) (fun o => o.orderByDesc fun row => row.1.id)
    (fun row => toStandardResponse row.1 [] (some row.2)) params

/-- The row a `create` adds. -/
def newStandard (req : JobStandardCreateRequest) (new : NewRow) : JobStandard where
  id := new.id
  companyId := req.companyId
  name := req.name
  useFlag := true
  routineStartTime := req.routineStartTime.map TimeOfDay.micros
  standardWorkTime := req.standardWorkTimeSeconds.getD 0
  standardRestTime := req.standardRestTimeSeconds.getD 0
  startMessage := req.startMessage
  endMessage := req.endMessage
  context := Dict.assign none req.context
  forJournal := req.forJournal.getD false

/-- New processes of a standard, in order. -/
def addProcesses (standardId : ℤ) : List ProcessUpsertRequest → Async V D (List JobProcess)
  | [] => .ret []
  | p :: rest =>
      (add .jobProcess (newProcess standardId p)).bind fun new =>
        (addProcesses standardId rest).bind fun rows => .ret (newProcess standardId p new :: rows)

/-- The response of a new standard: the processes of one that was created without any
have not been loaded. -/
def createdResponse (req : JobStandardCreateRequest) (s : JobStandard)
    (processes : List JobProcess) (name : Option String) : Except Err JobStandardResponse :=
  if processes.isEmpty then .error missingGreenlet
  else (toStandardResponse s processes name).map fun resp =>
    { resp with routineStartTime := req.routineStartTime }

/-- `create`. -/
def create (req : JobStandardCreateRequest) : Async V D JobStandardResponse := do
  let company ← dbGet .company req.companyId
  let _ ← Prog.orRaise (businessException .companyNotFound) company
  let new ← add .jobStandard (newStandard req)
  let processes ← addProcesses new.id (req.processes.getD [])
  flush
  evict cacheNs new.id
  let name ← companyName req.companyId
  Prog.ofExcept (createdResponse req (newStandard req new) processes name)

/-- The attribute assignments of an `update`. -/
def assign (req : JobStandardUpdateRequest) (s : JobStandard) : JobStandard :=
  { s with
    name := req.name.getD s.name
    routineStartTime := (req.routineStartTime.map TimeOfDay.micros).orElse fun _ =>
      s.routineStartTime
    standardWorkTime := req.standardWorkTimeSeconds.getD s.standardWorkTime
    standardRestTime := req.standardRestTimeSeconds.getD s.standardRestTime
    startMessage := req.startMessage.orElse fun _ => s.startMessage
    endMessage := req.endMessage.orElse fun _ => s.endMessage
    context := (req.context.map .obj).orElse fun _ => s.context
    forJournal := req.forJournal.getD s.forJournal }

/-- `update`: the response asks for processes that have not been loaded. -/
def update (standardId : ℤ) (req : JobStandardUpdateRequest) : Async V D JobStandardResponse := do
  let s ← getOrThrow standardId
  modify .jobStandard s (assign req)
  evict cacheNs standardId
  let _ ← companyName s.companyId
  Prog.raise missingGreenlet

/-- `deactivate`. -/
def deactivate (standardId : ℤ) : Async V D Unit := do
  let s ← getOrThrow standardId
  modify .jobStandard s fun s => { s with useFlag := false }
  evict cacheNs standardId

/-! ### Replacing the processes -/

/-- The ids the entries name. -/
def namedIds (incoming : List ProcessUpsertRequest) : List ℤ :=
  incoming.filterMap ProcessUpsertRequest.id

/-- The processes in memory: those kept, and the entries of new ones. -/
abbrev Synced := List JobProcess × List ProcessUpsertRequest

/-- One entry: a new process, or assignments to the process with its id. -/
def syncEntry (state : Synced) (p : ProcessUpsertRequest) : Except Err Synced :=
  match p.id with
  | none => .ok (state.1, state.2 ++ [p])
  | some id =>
      if state.1.any fun row => row.id = id then
        .ok (state.1.map fun row => if row.id = id then p.assign row else row, state.2)
      else .error (businessException .jobProcessNotFound)

/-- The processes after all entries, of a standard with `processes`. -/
def syncEntries (incoming : List ProcessUpsertRequest) (processes : List JobProcess) :
    Except Err Synced :=
  incoming.foldlM syncEntry
    (processes.filter (fun row => row.id ∈ namedIds incoming), [])

/-- The processes that are dropped. -/
def dropAll : List JobProcess → Async V D Unit
  | [] => .ret ()
  | row :: rest => (delete .jobProcess row).bind fun _ => dropAll rest

/-- The processes that are kept, with their old and new values. -/
def saveAll : List (JobProcess × JobProcess) → Async V D Unit
  | [] => .ret ()
  | (row, values) :: rest =>
      (modify .jobProcess row values.overwrite).bind fun _ => saveAll rest

/-- `sync_processes`. -/
def syncProcesses (standardId : ℤ) (incoming : List ProcessUpsertRequest) :
    Async V D JobStandardResponse := do
  let loaded ← loadStandard standardId
  let synced ← Prog.ofExcept (syncEntries incoming loaded.2)
  dropAll (loaded.2.filter fun row => row.id ∉ namedIds incoming)
  saveAll ((loaded.2.filter fun row => row.id ∈ namedIds incoming).zip synced.1)
  let added ← addProcesses loaded.1.id synced.2
  flush
  let name ← companyName loaded.1.companyId
  Prog.ofExcept (toStandardResponse loaded.1 (synced.1 ++ added) name)

end JobStandardService

/-! ## Assignments -/

/-- `_to_jw_response`. -/
def toJwResponse (jw : JobWorker) (standard : JobStandard) : JobWorkerResponse where
  id := jw.id
  jobStandardId := standard.id
  jobStandardName := standard.name
  companyWorkerId := jw.companyWorkerId
  useFlag := jw.useFlag

namespace JobWorkerService

/-- The row an `assign` adds. -/
def newAssignment (companyWorkerId jobStandardId : ℤ) (new : NewRow) : JobWorker where
  id := new.id
  companyWorkerId := companyWorkerId
  jobStandardId := jobStandardId
  useFlag := true

/-- A worker that was assigned before is assigned again. -/
def reassign (standard : JobStandard) (existing : JobWorker) : Async V D JobWorkerResponse := do
  Prog.raiseIf existing.useFlag (businessException .jobWorkerAlreadyAssigned)
  modify .jobWorker existing fun jw => { jw with useFlag := true }
  return toJwResponse { existing with useFlag := true } standard

/-- A worker that was not assigned before. -/
def assignNew (companyWorkerId : ℤ) (standard : JobStandard) : Async V D JobWorkerResponse := do
  let new ← add .jobWorker (newAssignment companyWorkerId standard.id)
  flush
  return toJwResponse (newAssignment companyWorkerId standard.id new) standard

/-- `assign`. -/
def assign (companyWorkerId jobStandardId : ℤ) : Async V D JobWorkerResponse := do
  let worker ← dbGet .companyWorker companyWorkerId
  let _ ← Prog.orRaise (businessException .workerNotFound) worker
  let found ← dbGet .jobStandard jobStandardId
  let standard ← Prog.orRaise (businessException .jobStandardNotFound) found
  let rows ← select [.int companyWorkerId, .int jobStandardId] fun o db =>
    o.scan ((db.rows .jobWorker).filter fun jw =>
      jw.companyWorkerId = companyWorkerId ∧ jw.jobStandardId = jobStandardId)
  match ← scalarOneOrNone rows with
  | some existing => reassign standard existing
  | none => assignNew companyWorkerId standard

/-- `unassign`. -/
def unassign (jobWorkerId : ℤ) : Async V D Unit := do
  let found ← dbGet .jobWorker jobWorkerId
  let jw ← Prog.orRaise (businessException .jobWorkerNotFound) found
  modify .jobWorker jw fun jw => { jw with useFlag := false }

/-- The assignments together with their standards. -/
def withStandard (db : Db) (assignments : List JobWorker) : List (JobWorker × JobStandard) :=
  assignments.filterMap fun jw =>
    (db.find? .jobStandard jw.jobStandardId).map fun standard => (jw, standard)

/-- `list_by_job_standard`. -/
def listByJobStandard (jobStandardId : ℤ) : Async V D (List JobWorkerResponse) := do
  let rows ← select [.int jobStandardId] fun o db =>
    o.scan ((withStandard db (db.rows .jobWorker)).filter fun row =>
      row.1.jobStandardId = jobStandardId ∧ row.1.useFlag)
  return rows.map fun row => toJwResponse row.1 row.2

/-- `list_active_by_company_worker`. -/
def listActiveByCompanyWorker (companyWorkerId : ℤ) : Async V D (List JobWorkerResponse) := do
  let rows ← select [.int companyWorkerId] fun o db =>
    o.scan ((withStandard db (db.rows .jobWorker)).filter fun row =>
      row.1.companyWorkerId = companyWorkerId ∧ row.1.useFlag)
  return rows.map fun row => toJwResponse row.1 row.2

end JobWorkerService

end Rooti
