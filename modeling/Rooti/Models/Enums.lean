import Mathlib.Logic.Basic

/-!
# Enumerations stored as text

The closed domains of the schema, each with the text the database stores
(`value`).
-/

namespace Rooti

/-- `UserRole`. -/
inductive UserRole
  | admin | charger | worker | caregiver
  deriving DecidableEq, Repr

def UserRole.value : UserRole → String
  | admin => "ADMIN"
  | charger => "CHARGER"
  | worker => "WORKER"
  | caregiver => "CAREGIVER"

/-- `WorkRecordType`: the state a record of a shift is about. -/
inductive WorkRecordType
  | on | work | rest | off
  deriving DecidableEq, Repr

def WorkRecordType.value : WorkRecordType → String
  | on => "ON"
  | work => "WORK"
  | rest => "REST"
  | off => "OFF"

/-- `CaregiverDocumentActionType`. -/
inductive CaregiverDocumentActionType
  | upload | download | delete
  deriving DecidableEq, Repr

/-- `LeaveType`. -/
inductive LeaveType
  | annual | monthly | sick | other
  deriving DecidableEq, Repr

/-- `LeaveStatus`. -/
inductive LeaveStatus
  | pending | approved | rejected
  deriving DecidableEq, Repr

/-- `company_kiosks.status`. -/
inductive KioskStatus
  | inUse | full | offline
  deriving DecidableEq, Repr

def KioskStatus.value : KioskStatus → String
  | inUse => "IN_USE"
  | full => "FULL"
  | offline => "OFFLINE"

/-- `Frequency` of an e-mail schedule. -/
inductive Frequency
  | daily | weekly | monthly
  deriving DecidableEq, Repr

/-- `Weekday`. -/
inductive Weekday
  | sun | mon | tue | wed | thu | fri | sat
  deriving DecidableEq, Repr

/-- `JournalFormat`. -/
inductive JournalFormat
  | pdf | hwp | xlsx
  deriving DecidableEq, Repr

def JournalFormat.extension : JournalFormat → String
  | pdf => "pdf"
  | hwp => "hwp"
  | xlsx => "xlsx"

/-- `bulk_email_jobs.status`. -/
inductive BulkEmailJobStatus
  | queued | sending | success | failed
  deriving DecidableEq, Repr

end Rooti
