import Rooti.Documents.Steps
import Rooti.ReadOnly.Companies
import Rooti.ReadOnly.Schedules
import Rooti.ReadOnly.Workers

/-!
# What slips through read-only mode

A refused statement is what makes a request of read-only mode fail, so a request slips through
when it sends none before it answers.  A document is stored or deleted before the statement
about it is sent, and stays so when that is refused.

## Main definitions

* `WriteRequest` — the requests that change a table
* `WriteRequest.SlipsThrough` — what a request gets through in read-only mode
* `letsNothingThrough_iff_not_slipsThrough` — nothing else does

## Reading the definition

`SlipsThrough` is a table with one row for each request. Its rows fall into groups:
those that never slip through, because they flush a new row or cannot build their
answer; those that slip through whenever their checks pass, because nothing makes the
session send the change; those that do only if there is nothing to change; and the two
that reach the document storage first. Each row is proved exact by the module of its
service (`ReadOnly.Workers`, `ReadOnly.Companies`, `ReadOnly.Schedules`, and the
documents here).

The theorem is one about every state: no reachability and no invariant is used.
-/

namespace Rooti

open Relational Program

variable {V D : Type} {env : Env} {w : World V D}

/-! ## Documents -/

section Documents

open CaregiverDocumentService

variable {files : StorageService D} {actorUserId : ℤ}

/-- The relation exists, and the actor may act for it. -/
def MayActFor (db : Db) (actorUserId relationId : ℤ) : Prop :=
  ∃ relation, db.find? .caregiverWorkerRelation relationId = some relation ∧
    Permitted db actorUserId relation

/-- What the gate lets pass goes on. -/
theorem letsThrough_gate_bind {β : Type} {relationId : ℤ} {k : Async V D β} {P : Prop}
    (hk : ∀ w', w'.db = w.db → w'.disk = w.disk → (LetsThrough env k {} w' ↔ P)) :
    LetsThrough env ((relationOr404 relationId).bind fun relation =>
        (ensureActorOwnsRelation actorUserId relation).bind fun _ => k) {} w ↔
      MayActFor w.db actorUserId relationId ∧ P := by
  unfold MayActFor
  rw [← exists_and_right]
  simp only [relationOr404, Prog.bind_eq, Prog.bind_assoc, and_assoc]
  refine letsThrough_getOrRaise_bind fun relation _ => ?_
  by_cases hpermitted : Permitted w.db actorUserId relation
  · rw [and_iff_right hpermitted]
    have hreads : Reads env (ensureActorOwnsRelation actorUserId relation) w.tick () :=
      reads_ensureActorOwnsRelation hpermitted
    exact letsThrough_bind_of_reads hreads fun w' hw' => hk w' hw'.db hw'.disk
  · refine iff_of_false ?_ fun h => hpermitted h.1
    have hrefuses : Refuses env (ensureActorOwnsRelation actorUserId relation) w.tick :=
      refuses_ensureActorOwnsRelation hpermitted
    exact not_letsThrough_of_refuses hrefuses.bind

/-- What handing a file to the storage leaves. -/
theorem disk_storeFile (relationId : ℤ) (originalFilename : String) (file : Bytes) (size : ℤ)
    (contentType : Option String) (s : Session) (w : World V D) :
    ((server env).run (storeFile files relationId originalFilename file size contentType) s
        w).2.2.disk =
      (files.store ("caregiver-documents/" ++ toString relationId) originalFilename file size
        contentType w.disk).2 := by
  rw [storeFile, Machine.run_handle, storage, Machine.run_lift, server_exec, exec]
  cases (files.store ("caregiver-documents/" ++ toString relationId) originalFilename file size
    contentType w.disk).1 <;> rfl

/-- The file is stored before the first statement is refused. -/
theorem letsThrough_upload (hro : env.settings.appReadOnly = true) (relationId typeId : ℤ)
    (originalFilename : String) (file : Bytes) (size : ℤ) (contentType : Option String) :
    LetsThrough env (upload files actorUserId relationId typeId originalFilename file size
        contentType) {} w ↔
      MayActFor w.db actorUserId relationId ∧
        (w.db.find? .caregiverDocumentType typeId).isSome ∧
          (files.store ("caregiver-documents/" ++ toString relationId) originalFilename file size
            contentType w.disk).2 ≠ w.disk := by
  simp only [upload, Prog.bind_eq]
  refine letsThrough_gate_bind fun w' hdb hdisk => ?_
  rw [Option.isSome_iff_exists, ← exists_and_right, ← hdb]
  refine letsThrough_getOrRaise_bind fun docType _ => ?_
  rw [letsThrough_bind_iff_disk fun uploaded s w' => not_letsThrough_add_flush hro, disk_storeFile,
    World.tick_disk, hdisk]

/-- The file is deleted, and no statement is sent. -/
theorem letsThrough_deleteDocument (documentId : ℤ) :
    LetsThrough env (CaregiverDocumentService.delete files actorUserId documentId) {} w ↔
      ∃ doc, w.db.find? .caregiverDocument documentId = some doc ∧
        MayActFor w.db actorUserId doc.relationId ∧
          ((∃ a, (files.delete doc.filename w.disk).1 = .ok a) ∨
            (files.delete doc.filename w.disk).2 ≠ w.disk) := by
  simp only [CaregiverDocumentService.delete, ownDocument, log, Prog.bind_eq, Prog.pure_eq,
    Prog.bind_assoc, Prog.ret_bind]
  refine letsThrough_getOrRaise_bind fun doc _ => letsThrough_gate_bind fun w' _ hdisk => ?_
  rw [letsThrough_add_bind]
  unfold LetsThrough
  rw [storage, Machine.run_lift_bind, server_exec, exec]
  simp only [World.tick_disk, hdisk]
  cases (files.delete doc.filename w.disk).1 with
  | error t =>
      refine or_congr_left (iff_of_false ?_ ?_)
      · rintro ⟨a, h⟩
        cases h
      · rintro ⟨a, h⟩
        cases h
  | ok a => exact iff_of_true (.inl ⟨(), rfl⟩) (.inl ⟨a, rfl⟩)

end Documents

/-! ## Requests -/

/-- **The requests that change a table**. -/
inductive WriteRequest
  | hire (companyId workerId : ℤ)
  | fire (companyWorkerId : ℤ)
  | retire (workerId : ℤ)
  | rehire (workerId : ℤ)
  | assign (companyWorkerId jobStandardId : ℤ)
  | unassign (jobWorkerId : ℤ)
  | setEnabled (userId : ℤ) (enabled : Bool)
  | setHired (chargerId : ℤ) (hired : Bool)
  | close (scheduleId : ℤ) (endAt : Option DateTime)
  | createLeave (req : LeaveCreateRequest) (actorUserId : ℤ)
  | decideLeave (leaveId : ℤ) (status : LeaveStatus) (comment : Option String)
      (companyScope : CompanyScopeValue)
  | deleteLeave (leaveId : ℤ) (companyScope : CompanyScopeValue)
  | bindKiosk (req : KioskBindRequest)
  | setAssignee (kioskId : ℤ) (assignee : Option String) (companyScope : CompanyScopeValue)
  | unbindKiosk (kioskId : ℤ) (companyScope : CompanyScopeValue)
  | createCompany (req : CompanyCreateRequest) (actor : Option PrincipalDetails)
  | updateCompany (companyId : ℤ) (req : CompanyUpdateRequest) (actor : Option PrincipalDetails)
  | deactivateCompany (companyId : ℤ) (actor : Option PrincipalDetails)
  | createStandard (req : JobStandardCreateRequest)
  | updateStandard (standardId : ℤ) (req : JobStandardUpdateRequest)
  | deactivateStandard (standardId : ℤ)
  | syncProcesses (standardId : ℤ) (incoming : List ProcessUpsertRequest)
  | createBoard (authorUserId : ℤ) (req : BoardWriteRequest)
  | updateBoard (authorUserId boardId : ℤ) (req : BoardWriteRequest)
  | deleteBoard (authorUserId boardId : ℤ)
  | uploadDocument (actorUserId relationId typeId : ℤ) (originalFilename : String) (file : Bytes)
      (size : ℤ) (contentType : Option String)
  | deleteDocument (actorUserId documentId : ℤ)
  | createSchedule (req : JournalScheduleCreateRequest)
  | updateSchedule (scheduleId : ℤ) (req : JournalScheduleUpdateRequest)
      (companyScope : CompanyScopeValue)
  | deleteSchedule (scheduleId : ℤ) (companyScope : CompanyScopeValue)

namespace WriteRequest

/-- The script of a request, with the type of its answer. -/
def script (env : Env) (files : StorageService D) : WriteRequest → (α : Type) × Async V D α
  | hire companyId workerId => ⟨_, WorkerService.hire companyId workerId⟩
  | fire companyWorkerId => ⟨_, WorkerService.fire companyWorkerId⟩
  | retire workerId => ⟨_, WorkerService.retire workerId⟩
  | rehire workerId => ⟨_, WorkerService.rehire workerId⟩
  | assign companyWorkerId jobStandardId =>
      ⟨_, JobWorkerService.assign companyWorkerId jobStandardId⟩
  | unassign jobWorkerId => ⟨_, JobWorkerService.unassign jobWorkerId⟩
  | setEnabled userId enabled => ⟨_, UserService.setEnabled userId enabled⟩
  | setHired chargerId hired => ⟨_, ChargerService.setHired chargerId hired⟩
  | close scheduleId endAt => ⟨_, WorkScheduleService.close env scheduleId endAt⟩
  | createLeave req actorUserId => ⟨_, LeaveService.create req actorUserId⟩
  | decideLeave leaveId status comment companyScope =>
      ⟨_, LeaveService.decide leaveId status comment companyScope⟩
  | deleteLeave leaveId companyScope => ⟨_, LeaveService.delete leaveId companyScope⟩
  | bindKiosk req => ⟨_, KioskService.bind req⟩
  | setAssignee kioskId assignee companyScope =>
      ⟨_, KioskService.setAssignee kioskId assignee companyScope⟩
  | unbindKiosk kioskId companyScope => ⟨_, KioskService.unbind kioskId companyScope⟩
  | createCompany req actor => ⟨_, CompanyService.create req actor⟩
  | updateCompany companyId req actor => ⟨_, CompanyService.update companyId req actor⟩
  | deactivateCompany companyId actor => ⟨_, CompanyService.deactivate companyId actor⟩
  | createStandard req => ⟨_, JobStandardService.create req⟩
  | updateStandard standardId req => ⟨_, JobStandardService.update standardId req⟩
  | deactivateStandard standardId => ⟨_, JobStandardService.deactivate standardId⟩
  | syncProcesses standardId incoming =>
      ⟨_, JobStandardService.syncProcesses standardId incoming⟩
  | createBoard authorUserId req => ⟨_, CaregiverBoardService.create authorUserId req⟩
  | updateBoard authorUserId boardId req =>
      ⟨_, CaregiverBoardService.update authorUserId boardId req⟩
  | deleteBoard authorUserId boardId => ⟨_, CaregiverBoardService.delete authorUserId boardId⟩
  | uploadDocument actorUserId relationId typeId originalFilename file size contentType =>
      ⟨_, CaregiverDocumentService.upload files actorUserId relationId typeId originalFilename file
        size contentType⟩
  | deleteDocument actorUserId documentId =>
      ⟨_, CaregiverDocumentService.delete files actorUserId documentId⟩
  | createSchedule req => ⟨_, JournalScheduleService.create env req⟩
  | updateSchedule scheduleId req companyScope =>
      ⟨_, JournalScheduleService.update env scheduleId req companyScope⟩
  | deleteSchedule scheduleId companyScope =>
      ⟨_, JournalScheduleService.delete scheduleId companyScope⟩

/-- **What slips through**: the changes of a request are not sent before it answers, or there
are none, or the document storage is changed before the first statement is refused. -/
def SlipsThrough (env : Env) (files : StorageService D) (w : World V D) : WriteRequest → Prop
  -- a new row is always sent, and a changed standard is never shown
  | hire .. | createLeave .. | bindKiosk .. | createCompany .. | createStandard ..
  | updateStandard .. | createBoard .. | createSchedule .. => False
  -- the change is made and never sent
  | fire companyWorkerId => (w.db.find? .companyWorker companyWorkerId).isSome
  | unassign jobWorkerId => (w.db.find? .jobWorker jobWorkerId).isSome
  | setEnabled userId _ => (w.db.find? .user userId).isSome
  | deactivateCompany companyId _ => (w.db.find? .company companyId).isSome
  | deactivateStandard standardId => (w.db.find? .jobStandard standardId).isSome
  | assign companyWorkerId jobStandardId =>
      (w.db.find? .companyWorker companyWorkerId).isSome ∧
        (w.db.find? .jobStandard jobStandardId).isSome ∧
          ∃ jw ∈ assignments w.db companyWorkerId jobStandardId, jw.useFlag = false
  | updateCompany companyId req _ =>
      ∃ company, w.db.find? .company companyId = some company ∧
        (req.templateData = none → ∃ fields, Dict.ofColumn company.templateData = .ok fields)
  | deleteBoard authorUserId boardId =>
      ∃ b, w.db.find? .caregiverBoard boardId = some b ∧ b.authorId = authorUserId
  | deleteLeave leaveId companyScope =>
      bigint leaveId ∧ ∀ leave, w.db.find? .leave leaveId = some leave →
        companyScope.all (leave.companyId = ·)
  | unbindKiosk kioskId companyScope =>
      bigint kioskId ∧ ∀ kiosk, w.db.find? .companyKiosk kioskId = some kiosk →
        companyScope.all (kiosk.companyId = ·)
  | deleteSchedule scheduleId companyScope =>
      bigint scheduleId ∧ ∀ s, w.db.find? .journalEmailSchedule scheduleId = some s →
        companyScope.all (s.companyId = ·)
  -- nothing changes
  | retire workerId =>
      ∃ worker, w.db.find? .challengedWorker workerId = some worker ∧
        ∃ user, w.db.find? .user worker.userId = some user ∧ worker.retiredAt.isSome
  | rehire workerId =>
      ∃ worker, w.db.find? .challengedWorker workerId = some worker ∧
        ∃ user, w.db.find? .user worker.userId = some user ∧ worker.retiredAt = none
  | setHired chargerId hired =>
      ∃ cc, w.db.find? .companyCharger chargerId = some cc ∧ cc.isHired = hired ∧
        (w.db.find? .user cc.userId).isSome ∧ (w.db.find? .company cc.companyId).isSome
  | close scheduleId endAt =>
      ∃ s, w.db.find? .workSchedule scheduleId = some s ∧
        s.endAt = some (closingTime env w endAt)
  | decideLeave leaveId status comment companyScope =>
      ∃ leave, w.db.find? .leave leaveId = some leave ∧
        companyScope.all (leave.companyId = ·) ∧ leave.decided status comment leave = leave ∧
          (leaveRow w.db leave).isSome
  | setAssignee kioskId assignee companyScope =>
      ∃ kiosk, w.db.find? .companyKiosk kioskId = some kiosk ∧
        companyScope.all (kiosk.companyId = ·) ∧ kiosk.assignee = assignee
  | syncProcesses standardId incoming =>
      ∃ found, w.db.find? .jobStandard standardId = some found ∧
        SyncChangesNothing w.db standardId incoming ∧
          ∃ fields, Dict.ofColumn found.context = .ok fields
  | updateBoard authorUserId boardId req =>
      ∃ b, w.db.find? .caregiverBoard boardId = some b ∧ b.authorId = authorUserId ∧
        CaregiverBoardService.assign authorUserId req b = b
  | updateSchedule scheduleId req companyScope =>
      ∃ s, w.db.find? .journalEmailSchedule scheduleId = some s ∧
        companyScope.all (s.companyId = ·) ∧ req.toggle s = s ∧
          ∃ n, req.NextRun (localNow env w.tick.tick) n ∧ req.assign s n = s
  -- the file is stored, or deleted, first
  | uploadDocument actorUserId relationId typeId originalFilename file size contentType =>
      MayActFor w.db actorUserId relationId ∧
        (w.db.find? .caregiverDocumentType typeId).isSome ∧
          (files.store ("caregiver-documents/" ++ toString relationId) originalFilename file size
            contentType w.disk).2 ≠ w.disk
  | deleteDocument actorUserId documentId =>
      ∃ doc, w.db.find? .caregiverDocument documentId = some doc ∧
        MayActFor w.db actorUserId doc.relationId ∧
          ((∃ a, (files.delete doc.filename w.disk).1 = .ok a) ∨
            (files.delete doc.filename w.disk).2 ≠ w.disk)

end WriteRequest

/-- A request's script lets through what slips through. -/
theorem letsThrough_script (hro : env.settings.appReadOnly = true) (files : StorageService D)
    (req : WriteRequest) :
    LetsThrough env (req.script env files).2 {} w ↔ req.SlipsThrough env files w := by
  cases req with
  | hire companyId workerId => exact iff_false_intro (not_letsThrough_hire hro companyId workerId)
  | fire companyWorkerId => exact letsThrough_fire companyWorkerId
  | retire workerId => exact letsThrough_retire hro workerId
  | rehire workerId => exact letsThrough_rehire hro workerId
  | assign companyWorkerId jobStandardId =>
      exact letsThrough_assignWorker hro companyWorkerId jobStandardId
  | unassign jobWorkerId => exact letsThrough_unassign jobWorkerId
  | setEnabled userId enabled => exact letsThrough_setEnabled userId enabled
  | setHired chargerId hired => exact letsThrough_setHired hro chargerId hired
  | close scheduleId endAt => exact letsThrough_close hro scheduleId endAt
  | createLeave req actorUserId =>
      exact iff_false_intro (not_letsThrough_createLeave hro req actorUserId)
  | decideLeave leaveId status comment companyScope =>
      exact letsThrough_decide hro leaveId status comment companyScope
  | deleteLeave leaveId companyScope => exact letsThrough_deleteLeave leaveId companyScope
  | bindKiosk req => exact iff_false_intro (not_letsThrough_bind hro req)
  | setAssignee kioskId assignee companyScope =>
      exact letsThrough_setAssignee hro kioskId assignee companyScope
  | unbindKiosk kioskId companyScope => exact letsThrough_unbind kioskId companyScope
  | createCompany req actor => exact iff_false_intro (not_letsThrough_createCompany hro req actor)
  | updateCompany companyId req actor => exact letsThrough_updateCompany companyId req actor
  | deactivateCompany companyId actor => exact letsThrough_deactivateCompany companyId actor
  | createStandard req => exact iff_false_intro (not_letsThrough_createStandard hro req)
  | updateStandard standardId req =>
      exact iff_false_intro (not_letsThrough_updateStandard standardId req)
  | deactivateStandard standardId => exact letsThrough_deactivateStandard standardId
  | syncProcesses standardId incoming => exact letsThrough_syncProcesses hro standardId incoming
  | createBoard authorUserId req =>
      exact iff_false_intro (not_letsThrough_createBoard hro authorUserId req)
  | updateBoard authorUserId boardId req =>
      exact letsThrough_updateBoard hro authorUserId boardId req
  | deleteBoard authorUserId boardId => exact letsThrough_deleteBoard authorUserId boardId
  | uploadDocument actorUserId relationId typeId originalFilename file size contentType =>
      exact letsThrough_upload hro relationId typeId originalFilename file size contentType
  | deleteDocument actorUserId documentId => exact letsThrough_deleteDocument documentId
  | createSchedule req => exact iff_false_intro (not_letsThrough_createSchedule hro req)
  | updateSchedule scheduleId req companyScope =>
      exact letsThrough_updateSchedule hro scheduleId req companyScope
  | deleteSchedule scheduleId companyScope =>
      exact letsThrough_deleteSchedule scheduleId companyScope

/-- **Read-only mode lets nothing through**, except for what slips through: such a
request is refused, and neither the database nor the document storage changes. The
condition is evaluated on the state before the request, and the equivalence holds in
every state. -/
theorem letsNothingThrough_iff_not_slipsThrough (env : Env) (files : StorageService D)
    (hro : env.settings.appReadOnly = true) (req : WriteRequest) (w : World V D) :
    LetsNothingThrough env (req.script env files).2 w ↔ ¬req.SlipsThrough env files w := by
  rw [letsNothingThrough_iff hro, letsThrough_script hro]

/-- An installation in read-only mode, whose clock stands still. -/
def readOnly : Env := Env.ofClock { appReadOnly := true } fun _ => 0

/-- Hiring, one of the requests that are refused. -/
theorem letsNothingThrough_hire :
    LetsNothingThrough readOnly ((WriteRequest.hire 1 1).script readOnly .memory).2
      (World.fresh Db.sample [] : World Unit (List String)) :=
  (letsNothingThrough_iff_not_slipsThrough readOnly .memory rfl (.hire 1 1) _).mpr fun h => h

/-- **Requests that get through**: a worker is dismissed with success, and an upload that is
refused leaves its file. -/
theorem not_letsNothingThrough_readOnly :
    ¬LetsNothingThrough readOnly ((WriteRequest.fire 1).script readOnly .memory).2
        (World.fresh Db.sample [] : World Unit (List String)) ∧
      ¬LetsNothingThrough readOnly ((WriteRequest.uploadDocument 3 1 1 "diagnosis.pdf" [] 0
        none).script readOnly .memory).2 World.caregiverSample := by
  constructor
  · rintro ⟨⟨e, herror⟩, -⟩
    have hsuccess : (serve readOnly (WorkerService.fire 1)
        (World.fresh Db.sample [] : World Unit (List String))).1 = .ok () := rfl
    cases hsuccess.symm.trans herror
  · rintro ⟨-, -, hdisk⟩
    have hleft : (serve readOnly (CaregiverDocumentService.upload .memory 3 1 1 "diagnosis.pdf" []
        0 none) World.caregiverSample).2.disk = ["x"] := by decide +kernel
    cases hleft.symm.trans hdisk

end Rooti
