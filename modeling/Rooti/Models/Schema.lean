import Mathlib.Algebra.Group.Int.Defs
import Rooti.Lib.Catalog
import Rooti.Models.Rows

/-!
# The schema

The declarations of the migrations: for every mapped class its primary key, its
`UNIQUE` constraints, the widths and ranges of its columns, and its foreign
keys.  A `Database` of this catalog is a state PostgreSQL can be in as far as
keys, unique constraints and column types go; the foreign keys are checked by
the statements and are the predicate `Relational.Database.ForeignKeys` on a
state.

## Main definitions

* `Entity`, `Row` — the tables and the types of their rows
* `shape`, `refs`, `schema` — keys, constraints and foreign keys

## What is modelled, and what is not

Column types are checked when a row is stored, as the database does, and not where the
service assigns a value: a request that assigns something a column cannot hold fails
when it is flushed. Columns that no service reads or writes are left out, and so are the
indexes that are not unique. The order of rows is not part of what a state means: queries
without `ORDER BY` take it from the surroundings.
-/

namespace Rooti

open Relational

/-- The mapped classes. -/
inductive Entity
  | user | company | companyCharger | challengedWorker | companyWorker | caregiver
  | caregiverWorkerRelation | jobStandard | jobProcess | jobWorker | workSchedule
  | workRecord | workProcessRecord | caregiverDocumentType | caregiverDocument
  | caregiverDocumentLog | caregiverBoard | companyKiosk | leave | journalEmailSchedule
  | bulkEmailJob
  deriving DecidableEq, Repr

/-- The rows of a mapped class. -/
abbrev Row : Entity → Type
  | .user => User
  | .company => Company
  | .companyCharger => CompanyCharger
  | .challengedWorker => ChallengedWorker
  | .companyWorker => CompanyWorker
  | .caregiver => Caregiver
  | .caregiverWorkerRelation => CaregiverWorkerRelation
  | .jobStandard => JobStandard
  | .jobProcess => JobProcess
  | .jobWorker => JobWorker
  | .workSchedule => WorkSchedule
  | .workRecord => WorkRecord
  | .workProcessRecord => WorkProcessRecord
  | .caregiverDocumentType => CaregiverDocumentType
  | .caregiverDocument => CaregiverDocument
  | .caregiverDocumentLog => CaregiverDocumentLog
  | .caregiverBoard => CaregiverBoard
  | .companyKiosk => CompanyKiosk
  | .leave => Leave
  | .journalEmailSchedule => JournalEmailSchedule
  | .bulkEmailJob => BulkEmailJob

instance : (t : Entity) → DecidableEq (Row t)
  | .user => inferInstanceAs (DecidableEq User)
  | .company => inferInstanceAs (DecidableEq Company)
  | .companyCharger => inferInstanceAs (DecidableEq CompanyCharger)
  | .challengedWorker => inferInstanceAs (DecidableEq ChallengedWorker)
  | .companyWorker => inferInstanceAs (DecidableEq CompanyWorker)
  | .caregiver => inferInstanceAs (DecidableEq Caregiver)
  | .caregiverWorkerRelation => inferInstanceAs (DecidableEq CaregiverWorkerRelation)
  | .jobStandard => inferInstanceAs (DecidableEq JobStandard)
  | .jobProcess => inferInstanceAs (DecidableEq JobProcess)
  | .jobWorker => inferInstanceAs (DecidableEq JobWorker)
  | .workSchedule => inferInstanceAs (DecidableEq WorkSchedule)
  | .workRecord => inferInstanceAs (DecidableEq WorkRecord)
  | .workProcessRecord => inferInstanceAs (DecidableEq WorkProcessRecord)
  | .caregiverDocumentType => inferInstanceAs (DecidableEq CaregiverDocumentType)
  | .caregiverDocument => inferInstanceAs (DecidableEq CaregiverDocument)
  | .caregiverDocumentLog => inferInstanceAs (DecidableEq CaregiverDocumentLog)
  | .caregiverBoard => inferInstanceAs (DecidableEq CaregiverBoard)
  | .companyKiosk => inferInstanceAs (DecidableEq CompanyKiosk)
  | .leave => inferInstanceAs (DecidableEq Leave)
  | .journalEmailSchedule => inferInstanceAs (DecidableEq JournalEmailSchedule)
  | .bulkEmailJob => inferInstanceAs (DecidableEq BulkEmailJob)

/-! ## Column types -/

/-- What a PostgreSQL text value can hold: any character but NUL. -/
def text (s : String) : Bool := s.toList.all (· ≠ Char.ofNat 0)

/-- `VARCHAR(n)`. -/
def varchar (n : ℕ) (s : String) : Bool := text s && decide (s.length ≤ n)

/-- `SMALLINT`. -/
def smallint (n : ℤ) : Bool := decide (-2 ^ 15 ≤ n ∧ n < 2 ^ 15)

/-- `INTEGER`. -/
def integer (n : ℤ) : Bool := decide (-2 ^ 31 ≤ n ∧ n < 2 ^ 31)

/-- `BIGINT`. -/
def bigint (n : ℤ) : Bool := decide (-2 ^ 63 ≤ n ∧ n < 2 ^ 63)

/-- `TIMESTAMP` without time zone. -/
def timestamp (t : DateTime) : Bool := t.offset.isNone

mutual

/-- `JSONB`: no string in the document holds NUL. -/
def jsonb : Json → Bool
  | .str s => text s
  | .arr items => jsonbItems items
  | .obj fields => jsonbFields fields
  | .null | .bool _ | .int _ | .num .. => true

def jsonbItems : List Json → Bool
  | [] => true
  | j :: js => jsonb j && jsonbItems js

def jsonbFields : List (String × Json) → Bool
  | [] => true
  | (k, j) :: fs => text k && jsonb j && jsonbFields fs

end

/-! ## Tables -/

/-- The keys, `UNIQUE` constraints, column types and `CHECK`s of each table. -/
def shape : (t : Entity) → Shape ℤ (Row t)
  | .user =>
      { key := User.id
        clash := fun r r' => r.username = r'.username
        check := fun r => bigint r.id && varchar 150 r.username && r.email.all (varchar 255) &&
          varchar 255 r.passwordHash && varchar 100 r.name && r.phoneNumber.all (varchar 32) &&
          r.lastLoginAt.all timestamp }
  | .company =>
      { key := Company.id
        clash := fun _ _ => false
        check := fun r => bigint r.id && varchar 200 r.name && r.location.all (varchar 500) &&
          r.imagePath.all (varchar 500) && r.templateId.all (varchar 100) &&
          r.templateData.all jsonb && r.createdBy.all bigint && r.updatedBy.all bigint }
  | .companyCharger =>
      { key := CompanyCharger.id
        clash := fun r r' => r.userId = r'.userId
        check := fun r => bigint r.id && bigint r.userId && bigint r.companyId }
  | .challengedWorker =>
      { key := ChallengedWorker.id
        clash := fun r r' => r.userId = r'.userId
        check := fun r => bigint r.id && bigint r.userId && r.fcmToken.all (varchar 500) &&
          r.retiredAt.all timestamp }
  | .companyWorker =>
      { key := CompanyWorker.id
        clash := fun r r' =>
          r.companyId = r'.companyId ∧ r.challengedWorkerId = r'.challengedWorkerId
        check := fun r => bigint r.id && bigint r.companyId && bigint r.challengedWorkerId }
  | .caregiver =>
      { key := Caregiver.id
        clash := fun r r' => r.userId = r'.userId
        check := fun r => bigint r.id && bigint r.userId }
  | .caregiverWorkerRelation =>
      { key := CaregiverWorkerRelation.id
        clash := fun r r' =>
          r.caregiverId = r'.caregiverId ∧ r.challengedWorkerId = r'.challengedWorkerId
        check := fun r => bigint r.id && bigint r.caregiverId && bigint r.challengedWorkerId }
  | .jobStandard =>
      { key := JobStandard.id
        clash := fun _ _ => false
        check := fun r => bigint r.id && bigint r.companyId && varchar 200 r.name &&
          integer r.standardWorkTime && integer r.standardRestTime && r.startMessage.all text &&
          r.endMessage.all text && r.context.all jsonb }
  | .jobProcess =>
      { key := JobProcess.id
        clash := fun r r' => r.jobStandardId = r'.jobStandardId ∧ r.sequence = r'.sequence
        check := fun r => bigint r.id && bigint r.jobStandardId && varchar 200 r.name &&
          integer r.sequence && r.videoPath.all (varchar 500) && r.startMessage.all text &&
          r.endMessage.all text && r.context.all jsonb && integer r.processTime }
  | .jobWorker =>
      { key := JobWorker.id
        clash := fun r r' =>
          r.companyWorkerId = r'.companyWorkerId ∧ r.jobStandardId = r'.jobStandardId
        check := fun r => bigint r.id && bigint r.companyWorkerId && bigint r.jobStandardId }
  | .workSchedule =>
      { key := WorkSchedule.id
        clash := fun _ _ => false
        check := fun r => bigint r.id && bigint r.jobWorkerId &&
          r.companyChargerId.all bigint && bigint r.jobStandardId && timestamp r.startAt &&
          r.endAt.all timestamp && r.workDocPath.all (varchar 500) }
  | .workRecord =>
      { key := WorkRecord.id
        clash := fun _ _ => false
        check := fun r => bigint r.id && bigint r.workScheduleId && timestamp r.startAt &&
          r.endAt.all timestamp }
  | .workProcessRecord =>
      { key := WorkProcessRecord.id
        clash := fun _ _ => false
        check := fun r => bigint r.id && bigint r.workScheduleId && bigint r.jobProcessId &&
          varchar 20 r.type && r.startAt.all timestamp && r.endAt.all timestamp &&
          r.startCondition.all smallint && r.endCondition.all smallint &&
          r.startAnswer.all text && r.endAnswer.all text && r.startVoicePath.all (varchar 500) &&
          r.endVoicePath.all (varchar 500) && r.process.all jsonb }
  | .caregiverDocumentType =>
      { key := CaregiverDocumentType.id
        clash := fun r r' => r.name = r'.name
        check := fun r => bigint r.id && varchar 200 r.name }
  | .caregiverDocument =>
      { key := CaregiverDocument.id
        clash := fun _ _ => false
        check := fun r => bigint r.id && bigint r.relationId && bigint r.typeId &&
          varchar 500 r.filename && r.fileSize.all bigint && r.contentType.all (varchar 100) &&
          timestamp r.createdAt && r.createdBy.all bigint && r.updatedBy.all bigint }
  | .caregiverDocumentLog =>
      { key := CaregiverDocumentLog.id
        clash := fun _ _ => false
        check := fun r => bigint r.id && bigint r.documentId && bigint r.userId }
  | .caregiverBoard =>
      { key := CaregiverBoard.id
        clash := fun _ _ => false
        check := fun r => bigint r.id && bigint r.authorId && varchar 255 r.title &&
          text r.body && timestamp r.createdAt && timestamp r.updatedAt &&
          r.createdBy.all bigint && r.updatedBy.all bigint }
  | .companyKiosk =>
      { key := CompanyKiosk.id
        clash := fun r r' => r.companyId = r'.companyId ∧ r.kioskId = r'.kioskId
        check := fun r => bigint r.id && bigint r.companyId && varchar 100 r.kioskId &&
          r.name.all (varchar 200) && r.location.all (varchar 500) && integer r.capacity &&
          integer r.currentCount && r.assignee.all (varchar 200) &&
          r.lastReportedAt.all timestamp }
  | .leave =>
      { key := Leave.id
        clash := fun _ _ => false
        check := fun r => bigint r.id && bigint r.workerId && bigint r.companyId &&
          decide (r.startDate.days ≤ r.endDate.days) && integer r.days && r.reason.all text &&
          r.createdBy.all bigint && timestamp r.createdAt }
  | .journalEmailSchedule =>
      { key := JournalEmailSchedule.id
        clash := fun _ _ => false
        check := fun r => bigint r.id && bigint r.companyId && varchar 255 r.recipientEmail &&
          r.dayOfMonth.all integer && varchar 5 r.sendTime && r.nextRunAt.all timestamp &&
          r.lastRunAt.all timestamp && timestamp r.createdAt }
  | .bulkEmailJob =>
      { key := BulkEmailJob.id
        clash := fun _ _ => false
        check := fun r => bigint r.id && bigint r.companyId && varchar 255 r.recipientEmail &&
          integer r.scheduleCount && r.messageId.all (varchar 255) && r.errorMessage.all text &&
          r.requestedBy.all bigint && r.startedAt.all timestamp && r.finishedAt.all timestamp &&
          timestamp r.createdAt }

/-- The foreign keys a row holds. -/
def refs : (t : Entity) → Row t → List (Ref Entity ℤ)
  | .user, _ => []
  | .company, _ => []
  | .companyCharger, r => [⟨.user, r.userId, .restrict⟩, ⟨.company, r.companyId, .restrict⟩]
  | .challengedWorker, r => [⟨.user, r.userId, .restrict⟩]
  | .companyWorker, r =>
      [⟨.company, r.companyId, .restrict⟩, ⟨.challengedWorker, r.challengedWorkerId, .restrict⟩]
  | .caregiver, r => [⟨.user, r.userId, .restrict⟩]
  | .caregiverWorkerRelation, r =>
      [⟨.caregiver, r.caregiverId, .cascade⟩,
        ⟨.challengedWorker, r.challengedWorkerId, .cascade⟩]
  | .jobStandard, r => [⟨.company, r.companyId, .restrict⟩]
  | .jobProcess, r => [⟨.jobStandard, r.jobStandardId, .cascade⟩]
  | .jobWorker, r =>
      [⟨.companyWorker, r.companyWorkerId, .cascade⟩, ⟨.jobStandard, r.jobStandardId, .cascade⟩]
  | .workSchedule, r =>
      [⟨.jobWorker, r.jobWorkerId, .cascade⟩, ⟨.jobStandard, r.jobStandardId, .restrict⟩] ++
        r.companyChargerId.toList.map fun k => ⟨.companyCharger, k, .setNull⟩
  | .workRecord, r => [⟨.workSchedule, r.workScheduleId, .cascade⟩]
  | .workProcessRecord, r =>
      [⟨.workSchedule, r.workScheduleId, .cascade⟩, ⟨.jobProcess, r.jobProcessId, .restrict⟩]
  | .caregiverDocumentType, _ => []
  | .caregiverDocument, r =>
      [⟨.caregiverWorkerRelation, r.relationId, .cascade⟩,
        ⟨.caregiverDocumentType, r.typeId, .restrict⟩]
  | .caregiverDocumentLog, r =>
      [⟨.caregiverDocument, r.documentId, .cascade⟩, ⟨.user, r.userId, .restrict⟩]
  | .caregiverBoard, r => [⟨.user, r.authorId, .restrict⟩]
  | .companyKiosk, r => [⟨.company, r.companyId, .cascade⟩]
  | .leave, r =>
      [⟨.challengedWorker, r.workerId, .cascade⟩, ⟨.company, r.companyId, .restrict⟩]
  | .journalEmailSchedule, r => [⟨.company, r.companyId, .cascade⟩]
  | .bulkEmailJob, r =>
      ⟨.company, r.companyId, .cascade⟩ ::
        r.requestedBy.toList.map fun k => ⟨.user, k, .setNull⟩

/-- All tables. -/
def entities : List Entity :=
  [.user, .company, .companyCharger, .challengedWorker, .companyWorker, .caregiver,
    .caregiverWorkerRelation, .jobStandard, .jobProcess, .jobWorker, .workSchedule,
    .workRecord, .workProcessRecord, .caregiverDocumentType, .caregiverDocument,
    .caregiverDocumentLog, .caregiverBoard, .companyKiosk, .leave, .journalEmailSchedule,
    .bulkEmailJob]

/-- **The schema of the migrations.** -/
def schema : Catalog Entity ℤ Row where
  shape := shape
  refs := refs
  tables := entities
  mem_tables := by intro t; cases t <;> decide
  depth := 6

/-- A state of the database. -/
abbrev Db := Database schema

/-- A data-changing statement. -/
abbrev Statement := Dml ℤ Row

/-- The key of a row. -/
abbrev keyOf (t : Entity) (r : Row t) : ℤ := (shape t).key r

/-- `trg_set_updated_at()`, for the one table whose `updated_at` is read. -/
def setUpdatedAt (now : DateTime) : (t : Entity) → Row t → Row t
  | .caregiverBoard, r => { r with updatedAt := now }
  | _, r => r

/-- Nothing references leaves, kiosks, e-mail schedules, boards or jobs. -/
theorem unreferenced {t : Entity}
    (ht : t ∈ [Entity.leave, .companyKiosk, .journalEmailSchedule, .caregiverBoard]) :
    Dml.Unreferenced schema t := by
  intro j r ref href
  rintro rfl
  revert ht
  change ref ∈ refs j r at href
  cases j <;> simp [refs] at href <;> grind

end Rooti
