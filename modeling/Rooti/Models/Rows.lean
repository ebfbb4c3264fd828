import Rooti.Core.Python
import Rooti.Models.Enums

/-!
# The rows of the schema

One structure per mapped class, with the columns the services read or write.
Instants are as the mapped attribute holds them in memory: a client may supply
an aware one, which the naive column refuses when it is stored.
-/

namespace Rooti

/-- `users`. -/
structure User where
  id : ℤ
  username : String
  email : Option String
  passwordHash : String
  name : String
  phoneNumber : Option String
  role : UserRole
  enabled : Bool
  lastLoginAt : Option DateTime
  deriving DecidableEq

/-- `companies`. -/
structure Company where
  id : ℤ
  name : String
  location : Option String
  useFlag : Bool
  imagePath : Option String
  templateId : Option String
  templateData : Option Json
  createdBy : Option ℤ
  updatedBy : Option ℤ
  deriving DecidableEq

/-- `company_chargers`: the company a charger acts for. -/
structure CompanyCharger where
  id : ℤ
  userId : ℤ
  companyId : ℤ
  isHired : Bool
  deriving DecidableEq

/-- `challenged_workers`: a worker; `retiredAt` is empty while in employment. -/
structure ChallengedWorker where
  id : ℤ
  userId : ℤ
  fcmToken : Option String
  retiredAt : Option DateTime
  deriving DecidableEq

/-- `company_workers`: a worker hired by a company. -/
structure CompanyWorker where
  id : ℤ
  companyId : ℤ
  challengedWorkerId : ℤ
  isHired : Bool
  deriving DecidableEq

/-- `caregivers`. -/
structure Caregiver where
  id : ℤ
  userId : ℤ
  deriving DecidableEq

/-- `caregiver_worker_relations`. -/
structure CaregiverWorkerRelation where
  id : ℤ
  caregiverId : ℤ
  challengedWorkerId : ℤ
  deriving DecidableEq

/-- `job_standards`. -/
structure JobStandard where
  id : ℤ
  companyId : ℤ
  name : String
  useFlag : Bool
  routineStartTime : Option ℤ
  standardWorkTime : ℤ
  standardRestTime : ℤ
  startMessage : Option String
  endMessage : Option String
  context : Option Json
  forJournal : Bool
  deriving DecidableEq

/-- `job_processes`. -/
structure JobProcess where
  id : ℤ
  jobStandardId : ℤ
  name : String
  sequence : ℤ
  videoPath : Option String
  startMessage : Option String
  endMessage : Option String
  context : Option Json
  processTime : ℤ
  deriving DecidableEq

/-- `job_workers`: a hired worker assigned to a job standard. -/
structure JobWorker where
  id : ℤ
  companyWorkerId : ℤ
  jobStandardId : ℤ
  useFlag : Bool
  deriving DecidableEq

/-- `work_schedules`: one shift. -/
structure WorkSchedule where
  id : ℤ
  jobWorkerId : ℤ
  companyChargerId : Option ℤ
  jobStandardId : ℤ
  startAt : DateTime
  endAt : Option DateTime
  workDocPath : Option String
  makeWorkDoc : Bool
  deriving DecidableEq

/-- `work_records`; a record without `endAt` is open. -/
structure WorkRecord where
  id : ℤ
  workScheduleId : ℤ
  type : WorkRecordType
  startAt : DateTime
  endAt : Option DateTime
  deriving DecidableEq

/-- `work_process_records`; a record without `endAt` is open. -/
structure WorkProcessRecord where
  id : ℤ
  workScheduleId : ℤ
  jobProcessId : ℤ
  type : String
  startAt : Option DateTime
  endAt : Option DateTime
  startCondition : Option ℤ
  endCondition : Option ℤ
  startAnswer : Option String
  endAnswer : Option String
  startVoicePath : Option String
  endVoicePath : Option String
  process : Option Json
  deriving DecidableEq

/-- `caregiver_document_types`. -/
structure CaregiverDocumentType where
  id : ℤ
  name : String
  deriving DecidableEq

/-- `caregiver_documents`; `filename` is the key in the document storage. -/
structure CaregiverDocument where
  id : ℤ
  relationId : ℤ
  typeId : ℤ
  filename : String
  fileSize : Option ℤ
  contentType : Option String
  createdAt : DateTime
  createdBy : Option ℤ
  updatedBy : Option ℤ
  deriving DecidableEq

/-- `caregiver_document_logs`. -/
structure CaregiverDocumentLog where
  id : ℤ
  documentId : ℤ
  userId : ℤ
  actionType : CaregiverDocumentActionType
  deriving DecidableEq

/-- `caregiver_boards`. -/
structure CaregiverBoard where
  id : ℤ
  authorId : ℤ
  title : String
  body : String
  isPublished : Bool
  createdAt : DateTime
  updatedAt : DateTime
  createdBy : Option ℤ
  updatedBy : Option ℤ
  deriving DecidableEq

/-- `company_kiosks`. -/
structure CompanyKiosk where
  id : ℤ
  companyId : ℤ
  kioskId : String
  name : Option String
  location : Option String
  capacity : ℤ
  currentCount : ℤ
  status : KioskStatus
  assignee : Option String
  lastReportedAt : Option DateTime
  deriving DecidableEq

/-- `leaves`. -/
structure Leave where
  id : ℤ
  workerId : ℤ
  companyId : ℤ
  type : LeaveType
  startDate : Date
  endDate : Date
  days : ℤ
  status : LeaveStatus
  reason : Option String
  createdBy : Option ℤ
  createdAt : DateTime
  deriving DecidableEq

/-- `journal_email_schedules`. -/
structure JournalEmailSchedule where
  id : ℤ
  companyId : ℤ
  recipientEmail : String
  frequency : Frequency
  weekday : Option Weekday
  dayOfMonth : Option ℤ
  sendTime : String
  format : JournalFormat
  enabled : Bool
  nextRunAt : Option DateTime
  lastRunAt : Option DateTime
  createdAt : DateTime
  deriving DecidableEq

/-- `bulk_email_jobs`: one bulk mailing and its progress. -/
structure BulkEmailJob where
  id : ℤ
  companyId : ℤ
  recipientEmail : String
  targetDate : Date
  format : JournalFormat
  status : BulkEmailJobStatus
  scheduleCount : ℤ
  truncated : Bool
  messageId : Option String
  errorMessage : Option String
  requestedBy : Option ℤ
  startedAt : Option DateTime
  finishedAt : Option DateTime
  createdAt : DateTime
  deriving DecidableEq

end Rooti
