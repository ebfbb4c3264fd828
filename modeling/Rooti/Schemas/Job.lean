import Rooti.Core.Cache

/-!
# Requests and responses of jobs

## Main definitions

* `ProcessUpsertRequest`, `JobStandardCreateRequest`, `JobStandardUpdateRequest`
* `JobProcessResponse`, `JobStandardResponse`, `JobWorkerResponse`
* `JobProcessResponse.codec`, `JobStandardResponse.codec` — the responses as
  documents

## Names in the code and names in the document

A field has the name of the attribute and an output name. They agree for one-word fields
and differ for the others: `company_id` is written `companyId` by
`model_dump(by_alias=True)`, and `model_validate` looks for the name of the attribute. A
document written by output names is therefore missing every required field of two words
(`validate_byAlias`), and one written by field names is read back whole
(`codec_recovers`). The two facts are what the cache of standards comes down to: it
writes the one way and reads the other.

Each field is declared once, with its names, its codec and its default, so that writing
and reading cannot disagree about anything but the name.
-/

namespace Rooti

open Json

variable {V : Type}

/-- `ProcessUpsertRequest`. -/
structure ProcessUpsertRequest where
  id : Option ℤ := none
  name : String
  sequence : ℤ
  videoPath : Option String := none
  startMessage : Option String := none
  endMessage : Option String := none
  context : Option Dict := none
  processTimeSeconds : ℤ

/-- `JobStandardCreateRequest`. -/
structure JobStandardCreateRequest where
  companyId : ℤ
  name : String
  routineStartTime : Option TimeOfDay := none
  standardWorkTimeSeconds : Option ℤ := some 0
  standardRestTimeSeconds : Option ℤ := some 0
  startMessage : Option String := none
  endMessage : Option String := none
  context : Option Dict := none
  forJournal : Option Bool := some false
  processes : Option (List ProcessUpsertRequest) := none

/-- `JobStandardUpdateRequest`. -/
structure JobStandardUpdateRequest where
  name : Option String := none
  routineStartTime : Option TimeOfDay := none
  standardWorkTimeSeconds : Option ℤ := none
  standardRestTimeSeconds : Option ℤ := none
  startMessage : Option String := none
  endMessage : Option String := none
  context : Option Dict := none
  forJournal : Option Bool := none

/-- `JobProcessResponse`. -/
structure JobProcessResponse where
  id : ℤ
  name : String
  sequence : ℤ
  videoPath : Option String := none
  startMessage : Option String := none
  endMessage : Option String := none
  context : Option Dict := none
  processTimeSeconds : ℤ
  deriving DecidableEq

/-- `JobStandardResponse`. -/
structure JobStandardResponse where
  id : ℤ
  companyId : ℤ
  companyName : Option String := none
  name : String
  useFlag : Bool
  routineStartTime : Option TimeOfDay := none
  standardWorkTimeSeconds : ℤ
  standardRestTimeSeconds : ℤ
  startMessage : Option String := none
  endMessage : Option String := none
  context : Option Dict := none
  forJournal : Bool
  processes : List JobProcessResponse := []
  deriving DecidableEq

/-- `AssignJobWorkerRequest`. -/
structure AssignJobWorkerRequest where
  companyWorkerId : ℤ
  jobStandardId : ℤ

/-- `JobWorkerResponse`. -/
structure JobWorkerResponse where
  id : ℤ
  jobStandardId : ℤ
  jobStandardName : Option String := none
  companyWorkerId : ℤ
  useFlag : Bool
  deriving DecidableEq

/-! ## Processes as documents -/

namespace JobProcessResponse

section Fields

variable (p : Pydantic V)

def idField : Field JobProcessResponse ℤ where
  name := "id"
  codec := p.intCodec
  get := JobProcessResponse.id

def nameField : Field JobProcessResponse String where
  name := "name"
  codec := p.strCodec
  get := JobProcessResponse.name

def sequenceField : Field JobProcessResponse ℤ where
  name := "sequence"
  codec := p.intCodec
  get := JobProcessResponse.sequence

/-- Optional columns are nullable in the document, and absent ones are read as null. -/
def videoPathField : Field JobProcessResponse (Option String) where
  name := "video_path"
  outputName := "videoPath"
  codec := p.strCodec.nullable
  get := JobProcessResponse.videoPath
  default := some none

def startMessageField : Field JobProcessResponse (Option String) where
  name := "start_message"
  outputName := "startMessage"
  codec := p.strCodec.nullable
  get := JobProcessResponse.startMessage
  default := some none

def endMessageField : Field JobProcessResponse (Option String) where
  name := "end_message"
  outputName := "endMessage"
  codec := p.strCodec.nullable
  get := JobProcessResponse.endMessage
  default := some none

/-- The document of a process is an object of any kind; nothing in it is looked at. -/
def contextField : Field JobProcessResponse (Option Dict) where
  name := "context"
  codec := Codec.object.nullable
  get := JobProcessResponse.context
  default := some none

def processTimeSecondsField : Field JobProcessResponse ℤ where
  name := "process_time_seconds"
  outputName := "processTimeSeconds"
  codec := p.intCodec
  get := JobProcessResponse.processTimeSeconds

/-- The entries of a process. -/
def entries (byAlias : Bool) (m : JobProcessResponse) : List (String × Json) :=
  [(idField p).entry byAlias m, (nameField p).entry byAlias m,
    (sequenceField p).entry byAlias m, (videoPathField p).entry byAlias m,
    (startMessageField p).entry byAlias m, (endMessageField p).entry byAlias m,
    contextField.entry byAlias m, (processTimeSecondsField p).entry byAlias m]

/-- A process as a document. -/
def codec : Codec JobProcessResponse where
  dump byAlias m := .obj (entries p byAlias m)
  validate doc := do
    let id ← (idField p).read doc
    let name ← (nameField p).read doc
    let sequence ← (sequenceField p).read doc
    let videoPath ← (videoPathField p).read doc
    let startMessage ← (startMessageField p).read doc
    let endMessage ← (endMessageField p).read doc
    let context ← contextField.read doc
    let processTimeSeconds ← (processTimeSecondsField p).read doc
    return { id, name, sequence, videoPath, startMessage, endMessage, context,
             processTimeSeconds }

end Fields

/-- Written by field names, a process is read back. -/
theorem codec_recovers {p : Pydantic V} (h : p.Faithful) (m : JobProcessResponse) :
    (codec p).Recovers m := by
  have hnodup : ((entries p false m).map Prod.fst).Nodup := by
    simp [entries, Field.entry, idField, nameField, sequenceField, videoPathField,
      startMessageField, endMessageField, contextField, processTimeSecondsField]
  have hstr : ∀ o : Option String, p.strCodec.nullable.Recovers o := fun o =>
    Codec.Recovers.nullable (fun s _ => h.str s) h.str_null
  have hid := Field.read_byName (f := idField p) (m := m) (h.int _) hnodup (by simp [entries])
  have hname := Field.read_byName (f := nameField p) (m := m) (h.str _) hnodup
    (by simp [entries])
  have hsequence := Field.read_byName (f := sequenceField p) (m := m) (h.int _) hnodup
    (by simp [entries])
  have hvideoPath := Field.read_byName (f := videoPathField p) (m := m) (hstr _) hnodup
    (by simp [entries])
  have hstartMessage := Field.read_byName (f := startMessageField p) (m := m) (hstr _) hnodup
    (by simp [entries])
  have hendMessage := Field.read_byName (f := endMessageField p) (m := m) (hstr _) hnodup
    (by simp [entries])
  have hcontext := Field.read_byName (f := contextField) (m := m)
    (Codec.Recovers.nullable (fun d _ => Codec.object_recovers d) Codec.object_refusesNull)
    hnodup (by simp [entries])
  have hprocessTime := Field.read_byName (f := processTimeSecondsField p) (m := m) (h.int _)
    hnodup (by simp [entries])
  simp only [Codec.Recovers, codec, hid, hname, hsequence, hvideoPath, hstartMessage,
    hendMessage, hcontext, hprocessTime]
  rfl

end JobProcessResponse

/-! ## Standards as documents -/

namespace JobStandardResponse

section Fields

variable (p : Pydantic V)

def idField : Field JobStandardResponse ℤ where
  name := "id"
  codec := p.intCodec
  get := JobStandardResponse.id

/-- The first required field with two names: a document by output names lacks it. -/
def companyIdField : Field JobStandardResponse ℤ where
  name := "company_id"
  outputName := "companyId"
  codec := p.intCodec
  get := JobStandardResponse.companyId

def companyNameField : Field JobStandardResponse (Option String) where
  name := "company_name"
  outputName := "companyName"
  codec := p.strCodec.nullable
  get := JobStandardResponse.companyName
  default := some none

def nameField : Field JobStandardResponse String where
  name := "name"
  codec := p.strCodec
  get := JobStandardResponse.name

def useFlagField : Field JobStandardResponse Bool where
  name := "use_flag"
  outputName := "useFlag"
  codec := p.boolCodec
  get := JobStandardResponse.useFlag

/-- The one field that need not come back: `timeCodec` recovers a time or not, and a
zone that PostgreSQL's `TIME` drops is still in the response of a `create`. -/
def routineStartTimeField : Field JobStandardResponse (Option TimeOfDay) where
  name := "routine_start_time"
  outputName := "routineStartTime"
  codec := p.timeCodec.nullable
  get := JobStandardResponse.routineStartTime
  default := some none

def standardWorkTimeSecondsField : Field JobStandardResponse ℤ where
  name := "standard_work_time_seconds"
  outputName := "standardWorkTimeSeconds"
  codec := p.intCodec
  get := JobStandardResponse.standardWorkTimeSeconds

def standardRestTimeSecondsField : Field JobStandardResponse ℤ where
  name := "standard_rest_time_seconds"
  outputName := "standardRestTimeSeconds"
  codec := p.intCodec
  get := JobStandardResponse.standardRestTimeSeconds

def startMessageField : Field JobStandardResponse (Option String) where
  name := "start_message"
  outputName := "startMessage"
  codec := p.strCodec.nullable
  get := JobStandardResponse.startMessage
  default := some none

def endMessageField : Field JobStandardResponse (Option String) where
  name := "end_message"
  outputName := "endMessage"
  codec := p.strCodec.nullable
  get := JobStandardResponse.endMessage
  default := some none

def contextField : Field JobStandardResponse (Option Dict) where
  name := "context"
  codec := Codec.object.nullable
  get := JobStandardResponse.context
  default := some none

def forJournalField : Field JobStandardResponse Bool where
  name := "for_journal"
  outputName := "forJournal"
  codec := p.boolCodec
  get := JobStandardResponse.forJournal

/-- A standard that is listed has no processes; the empty list is the default. -/
def processesField : Field JobStandardResponse (List JobProcessResponse) where
  name := "processes"
  codec := (JobProcessResponse.codec p).list
  get := JobStandardResponse.processes
  default := some []

/-- The entries of a standard. -/
def entries (byAlias : Bool) (m : JobStandardResponse) : List (String × Json) :=
  [(idField p).entry byAlias m, (companyIdField p).entry byAlias m,
    (companyNameField p).entry byAlias m, (nameField p).entry byAlias m,
    (useFlagField p).entry byAlias m, (routineStartTimeField p).entry byAlias m,
    (standardWorkTimeSecondsField p).entry byAlias m,
    (standardRestTimeSecondsField p).entry byAlias m, (startMessageField p).entry byAlias m,
    (endMessageField p).entry byAlias m, contextField.entry byAlias m,
    (forJournalField p).entry byAlias m, (processesField p).entry byAlias m]

/-- `model_dump_json` and `model_validate_json`, as documents. -/
def codec : Codec JobStandardResponse where
  dump byAlias m := .obj (entries p byAlias m)
  validate doc := do
    let id ← (idField p).read doc
    let companyId ← (companyIdField p).read doc
    let companyName ← (companyNameField p).read doc
    let name ← (nameField p).read doc
    let useFlag ← (useFlagField p).read doc
    let routineStartTime ← (routineStartTimeField p).read doc
    let standardWorkTimeSeconds ← (standardWorkTimeSecondsField p).read doc
    let standardRestTimeSeconds ← (standardRestTimeSecondsField p).read doc
    let startMessage ← (startMessageField p).read doc
    let endMessage ← (endMessageField p).read doc
    let context ← contextField.read doc
    let forJournal ← (forJournalField p).read doc
    let processes ← (processesField p).read doc
    return { id, companyId, companyName, name, useFlag, routineStartTime,
             standardWorkTimeSeconds, standardRestTimeSeconds, startMessage, endMessage, context,
             forJournal, processes }

end Fields

variable {p : Pydantic V}

/-- **Written by field names, a standard is read back**, if its time is. -/
theorem codec_recovers (h : p.Faithful) (m : JobStandardResponse)
    (htime : ∀ t ∈ m.routineStartTime, p.timeCodec.Recovers t) : (codec p).Recovers m := by
  have hnodup : ((entries p false m).map Prod.fst).Nodup := by
    simp [entries, Field.entry, idField, companyIdField, companyNameField, nameField,
      useFlagField, routineStartTimeField, standardWorkTimeSecondsField,
      standardRestTimeSecondsField, startMessageField, endMessageField, contextField,
      forJournalField, processesField]
  have hstr : ∀ o : Option String, p.strCodec.nullable.Recovers o := fun o =>
    Codec.Recovers.nullable (fun s _ => h.str s) h.str_null
  have hid := Field.read_byName (f := idField p) (m := m) (h.int _) hnodup (by simp [entries])
  have hcompanyId := Field.read_byName (f := companyIdField p) (m := m) (h.int _) hnodup
    (by simp [entries])
  have hcompanyName := Field.read_byName (f := companyNameField p) (m := m) (hstr _) hnodup
    (by simp [entries])
  have hname := Field.read_byName (f := nameField p) (m := m) (h.str _) hnodup
    (by simp [entries])
  have huseFlag := Field.read_byName (f := useFlagField p) (m := m) (h.bool _) hnodup
    (by simp [entries])
  have hroutineStartTime := Field.read_byName (f := routineStartTimeField p) (m := m)
    (Codec.Recovers.nullable htime h.time_null) hnodup (by simp [entries])
  have hwork := Field.read_byName (f := standardWorkTimeSecondsField p) (m := m) (h.int _)
    hnodup (by simp [entries])
  have hrest := Field.read_byName (f := standardRestTimeSecondsField p) (m := m) (h.int _)
    hnodup (by simp [entries])
  have hstartMessage := Field.read_byName (f := startMessageField p) (m := m) (hstr _) hnodup
    (by simp [entries])
  have hendMessage := Field.read_byName (f := endMessageField p) (m := m) (hstr _) hnodup
    (by simp [entries])
  have hcontext := Field.read_byName (f := contextField) (m := m)
    (Codec.Recovers.nullable (fun d _ => Codec.object_recovers d) Codec.object_refusesNull)
    hnodup (by simp [entries])
  have hforJournal := Field.read_byName (f := forJournalField p) (m := m) (h.bool _) hnodup
    (by simp [entries])
  have hprocesses := Field.read_byName (f := processesField p) (m := m)
    (Codec.Recovers.list fun q _ => JobProcessResponse.codec_recovers h q) hnodup
    (by simp [entries])
  simp only [Codec.Recovers, codec, hid, hcompanyId, hcompanyName, hname, huseFlag,
    hroutineStartTime, hwork, hrest, hstartMessage, hendMessage, hcontext, hforJournal,
    hprocesses]
  rfl

/-- **Written by output names, a standard cannot be read**: `company_id` is
missing. -/
theorem validate_byAlias (m : JobStandardResponse) :
    (codec p).validate ((codec p).dump true m) = none := by
  have hcompanyId : (companyIdField p).read (.obj (entries p true m)) = none :=
    Field.read_missing rfl (by
      simp [entries, Field.entry, idField, companyIdField, companyNameField, nameField,
        useFlagField, routineStartTimeField, standardWorkTimeSecondsField,
        standardRestTimeSecondsField, startMessageField, endMessageField, contextField,
        forJournalField, processesField])
  simp only [codec, hcompanyId]
  cases (idField p).read (.obj (entries p true m)) <;> rfl

end JobStandardResponse

end Rooti
