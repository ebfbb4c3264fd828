import Rooti.Api.Deps
import Rooti.Core.Response
import Rooti.Services.JournalSchedule
import Rooti.Services.Kiosk
import Rooti.Services.Leave
import Rooti.Services.WorkJournal

/-!
# The endpoints on the data of companies

The endpoints on leaves, kiosks and work journals are given the scope of the principal.  They
combine it with the company asked for, compare it with the company of the body, or hand it to
the service.

## Main definitions

* `LeaveApi`, `KioskApi`, `WorkJournalApi` — the endpoints
* `BackgroundTask` — what the server does after a response
* `ScopedRequest`, `ScopedResponse` — the requests and what they are answered
* `ScopedRequest.serve`, `afterTasks` — a request, and the tasks it leaves behind
-/

namespace Rooti

open Program

variable {V D : Type}

/-! ## Leaves -/

/-- `LeaveDecisionRequest`. -/
structure LeaveDecisionRequest where
  status : LeaveStatus
  comment : Option String := none
  comment_length : ∀ s ∈ comment, s.length ≤ 1000 := by decide

namespace LeaveApi

/-- `list_leaves`. -/
def listLeaves (ilike : String → String → Bool) (filter : LeaveFilter) (page : PageParams)
    (scope : CompanyScopeValue) : Async V D (PageResponse LeaveResponse) := do
  let companyId ← resolveCompanyFilter scope filter.companyId
  let p ← LeaveService.search ilike { filter with companyId := companyId } page
  return p.toResponse

/-- `list_approved`. -/
def listApproved (companyId : Option ℤ) (from_ to_ : Option Date) (scope : CompanyScopeValue) :
    Async V D (List LeaveResponse) := do
  let companyId ← resolveCompanyFilter scope companyId
  LeaveService.listApproved companyId from_ to_

/-- `list_by_worker`. -/
def listByWorker (workerId : ℤ) (from_ to_ : Option Date) (scope : CompanyScopeValue) :
    Async V D (List LeaveResponse) := LeaveService.listByWorker workerId from_ to_ scope

/-- `create_leave`. -/
def createLeave (req : LeaveCreateRequest) (me : PrincipalDetails) (scope : CompanyScopeValue) :
    Async V D LeaveResponse := do
  assertCompany scope (some req.companyId)
  LeaveService.create req me.userId

/-- `decide_leave`. -/
def decideLeave (leaveId : ℤ) (req : LeaveDecisionRequest) (scope : CompanyScopeValue) :
    Async V D LeaveResponse := LeaveService.decide leaveId req.status req.comment scope

/-- `delete_leave`. -/
def deleteLeave (leaveId : ℤ) (scope : CompanyScopeValue) : Async V D Unit :=
  LeaveService.delete leaveId scope

end LeaveApi

/-! ## Kiosks -/

namespace KioskApi

/-- `list_kiosks`. -/
def listKiosks (ilike : String → String → Bool) (keyword : Option String) (companyId : Option ℤ)
    (status : Option String) (page : PageParams) (scope : CompanyScopeValue) :
    Async V D (PageResponse KioskResponse) := do
  let companyId ← resolveCompanyFilter scope companyId
  let p ← KioskService.search ilike keyword companyId status page
  return p.toResponse

/-- `list_by_company`. -/
def listByCompany (companyId : ℤ) (scope : CompanyScopeValue) :
    Async V D (List KioskResponse) := do
  assertCompany scope (some companyId)
  KioskService.listByCompany companyId

/-- `bind`. -/
def bind (req : KioskBindRequest) (scope : CompanyScopeValue) : Async V D KioskResponse := do
  assertCompany scope (some req.companyId)
  KioskService.bind req

/-- `set_assignee`. -/
def setAssignee (kioskId : ℤ) (req : KioskAssigneeRequest) (scope : CompanyScopeValue) :
    Async V D KioskResponse := KioskService.setAssignee kioskId req.assignee scope

/-- `unbind`. -/
def unbind (kioskId : ℤ) (scope : CompanyScopeValue) : Async V D Unit :=
  KioskService.unbind kioskId scope

end KioskApi

/-! ## Work journals -/

/-- `BulkEmailRequest`. -/
structure BulkEmailRequest where
  companyId : ℤ
  date : Date
  recipientEmail : String
  format : JournalFormat := .pdf

/-- `BulkEmailResult`. -/
structure BulkEmailResult where
  sent : Bool
  scheduleCount : ℤ
  recipientEmail : String
  message : Option String := none
  jobId : Option ℤ := none

/-- **What the server does after a response**: a bulk mail with a job, or without one. -/
inductive BackgroundTask
  | bulkEmailJob (jobId : ℤ)
  | bulkEmailInert (companyId : ℤ) (day : Date) (recipientEmail : String) (fmt : JournalFormat)

/-- The script of a task, in a session of its own. -/
def BackgroundTask.script (r : Renderers) : BackgroundTask → Async V D Unit
  | bulkEmailJob jobId => runBulkEmailJob r jobId
  | bulkEmailInert companyId day recipientEmail fmt =>
      runBulkEmailInert r companyId day recipientEmail fmt

namespace WorkJournalApi

/-- `download_pdf`. -/
def downloadPdf (r : Renderers) (scheduleId : ℤ) (scope : CompanyScopeValue) :
    Async V D Bytes := WorkJournalRenderService.render r scheduleId .pdf scope

/-- `download_file`. -/
def downloadFile (r : Renderers) (scheduleId : ℤ) (format : JournalFormat)
    (scope : CompanyScopeValue) : Async V D Bytes :=
  WorkJournalRenderService.render r scheduleId format scope

/-- `bulk_email`: in read-only mode no job is recorded. -/
def bulkEmail (env : Env) (req : BulkEmailRequest) (me : PrincipalDetails)
    (scope : CompanyScopeValue) : Async V D (BulkEmailResult × BackgroundTask) := do
  assertCompany scope (some req.companyId)
  if env.settings.appReadOnly then
    return (⟨false, 0, req.recipientEmail,
        some "read-only 모드 — 발송만 큐잉(이력 기록 생략).", none⟩,
      .bulkEmailInert req.companyId req.date req.recipientEmail req.format)
  else do
    let job ← WorkJournalBulkEmailService.createJob req.companyId req.date req.recipientEmail
      req.format (some me.userId)
    commit
    return (⟨false, 0, req.recipientEmail,
        some "queued — 백그라운드 발송 시작. 진행 상태는 발송 이력에서 확인하세요.", some job.id⟩,
      .bulkEmailJob job.id)

/-- The values of `limit`: from 1 to 200. -/
abbrev JobLimit := {limit : ℕ // 1 ≤ limit ∧ limit ≤ 200}

/-- `list_bulk_email_jobs`. -/
def listBulkEmailJobs (companyId : Option ℤ) (limit : JobLimit) (scope : CompanyScopeValue) :
    Async V D (List BulkEmailJobResponse) := do
  let companyId ← resolveCompanyFilter scope companyId
  WorkJournalBulkEmailService.listJobs companyId limit

/-- `get_bulk_email_job`. -/
def getBulkEmailJob (jobId : ℤ) (scope : CompanyScopeValue) : Async V D BulkEmailJobResponse :=
  WorkJournalBulkEmailService.getJob jobId scope

/-- `bulk_preview`. -/
def bulkPreview (companyId : ℤ) (day : Date) (scope : CompanyScopeValue) :
    Async V D BulkPreviewResponse := do
  assertCompany scope (some companyId)
  WorkJournalBulkEmailService.preview companyId day

/-- `list_email_schedules`. -/
def listEmailSchedules (companyId : Option ℤ) (scope : CompanyScopeValue) :
    Async V D (List JournalScheduleResponse) := do
  let companyId ← resolveCompanyFilter scope companyId
  JournalScheduleService.list companyId

/-- `create_email_schedule`. -/
def createEmailSchedule (env : Env) (req : JournalScheduleCreateRequest)
    (scope : CompanyScopeValue) : Async V D JournalScheduleResponse := do
  assertCompany scope (some req.companyId)
  JournalScheduleService.create env req

/-- `update_email_schedule`. -/
def updateEmailSchedule (env : Env) (scheduleId : ℤ) (req : JournalScheduleUpdateRequest)
    (scope : CompanyScopeValue) : Async V D JournalScheduleResponse :=
  JournalScheduleService.update env scheduleId req scope

/-- `delete_email_schedule`. -/
def deleteEmailSchedule (scheduleId : ℤ) (scope : CompanyScopeValue) : Async V D Unit :=
  JournalScheduleService.delete scheduleId scope

end WorkJournalApi

/-! ## Requests -/

/-- **The requests that are confined to a company.** -/
inductive ScopedRequest
  | listLeaves (filter : LeaveFilter) (page : PageParams)
  | listApproved (companyId : Option ℤ) (from_ to_ : Option Date)
  | listByWorker (workerId : ℤ) (from_ to_ : Option Date)
  | createLeave (req : LeaveCreateRequest)
  | decideLeave (leaveId : ℤ) (req : LeaveDecisionRequest)
  | deleteLeave (leaveId : ℤ)
  | listKiosks (keyword : Option String) (companyId : Option ℤ) (status : Option String)
      (page : PageParams)
  | kiosksOfCompany (companyId : ℤ)
  | bindKiosk (req : KioskBindRequest)
  | setAssignee (kioskId : ℤ) (req : KioskAssigneeRequest)
  | unbind (kioskId : ℤ)
  | downloadPdf (scheduleId : ℤ)
  | downloadFile (scheduleId : ℤ) (format : JournalFormat)
  | bulkEmail (req : BulkEmailRequest)
  | listBulkEmailJobs (companyId : Option ℤ) (limit : WorkJournalApi.JobLimit)
  | getBulkEmailJob (jobId : ℤ)
  | bulkPreview (companyId : ℤ) (day : Date)
  | listEmailSchedules (companyId : Option ℤ)
  | createEmailSchedule (req : JournalScheduleCreateRequest)
  | updateEmailSchedule (scheduleId : ℤ) (req : JournalScheduleUpdateRequest)
  | deleteEmailSchedule (scheduleId : ℤ)

/-- **What they are answered.** -/
inductive ScopedResponse
  | leavePage (page : PageResponse LeaveResponse)
  | leaves (rows : List LeaveResponse)
  | leave (row : LeaveResponse)
  | kioskPage (page : PageResponse KioskResponse)
  | kiosks (rows : List KioskResponse)
  | kiosk (row : KioskResponse)
  | journal (scheduleId : ℤ) (fmt : JournalFormat) (body : Bytes)
  | queued (result : BulkEmailResult) (task : BackgroundTask)
  | jobs (rows : List BulkEmailJobResponse)
  | job (row : BulkEmailJobResponse)
  | preview (rows : BulkPreviewResponse)
  | schedules (rows : List JournalScheduleResponse)
  | schedule (row : JournalScheduleResponse)
  | done

namespace ScopedRequest

/-- The endpoint of a request. -/
def endpoint (env : Env) (r : Renderers) (ilike : String → String → Bool) (me : PrincipalDetails)
    (request : ScopedRequest) (scope : CompanyScopeValue) : Async V D ScopedResponse :=
  match request with
  | listLeaves filter page => do
      return .leavePage (← LeaveApi.listLeaves ilike filter page scope)
  | listApproved companyId from_ to_ => do
      return .leaves (← LeaveApi.listApproved companyId from_ to_ scope)
  | listByWorker workerId from_ to_ => do
      return .leaves (← LeaveApi.listByWorker workerId from_ to_ scope)
  | createLeave req => do return .leave (← LeaveApi.createLeave req me scope)
  | decideLeave leaveId req => do return .leave (← LeaveApi.decideLeave leaveId req scope)
  | deleteLeave leaveId => do
      LeaveApi.deleteLeave leaveId scope
      return .done
  | listKiosks keyword companyId status page => do
      return .kioskPage (← KioskApi.listKiosks ilike keyword companyId status page scope)
  | kiosksOfCompany companyId => do return .kiosks (← KioskApi.listByCompany companyId scope)
  | bindKiosk req => do return .kiosk (← KioskApi.bind req scope)
  | setAssignee kioskId req => do return .kiosk (← KioskApi.setAssignee kioskId req scope)
  | unbind kioskId => do
      KioskApi.unbind kioskId scope
      return .done
  | downloadPdf scheduleId => do
      return .journal scheduleId .pdf (← WorkJournalApi.downloadPdf r scheduleId scope)
  | downloadFile scheduleId format => do
      return .journal scheduleId format (← WorkJournalApi.downloadFile r scheduleId format scope)
  | bulkEmail req => do
      let (result, task) ← WorkJournalApi.bulkEmail env req me scope
      return .queued result task
  | listBulkEmailJobs companyId limit => do
      return .jobs (← WorkJournalApi.listBulkEmailJobs companyId limit scope)
  | getBulkEmailJob jobId => do return .job (← WorkJournalApi.getBulkEmailJob jobId scope)
  | bulkPreview companyId day => do
      return .preview (← WorkJournalApi.bulkPreview companyId day scope)
  | listEmailSchedules companyId => do
      return .schedules (← WorkJournalApi.listEmailSchedules companyId scope)
  | createEmailSchedule req => do
      return .schedule (← WorkJournalApi.createEmailSchedule env req scope)
  | updateEmailSchedule scheduleId req => do
      return .schedule (← WorkJournalApi.updateEmailSchedule env scheduleId req scope)
  | deleteEmailSchedule scheduleId => do
      WorkJournalApi.deleteEmailSchedule scheduleId scope
      return .done

/-- **A request of a principal**: the scope is looked up first, in the same session. -/
def serve (env : Env) (r : Renderers) (ilike : String → String → Bool) (crypto : Crypto V)
    (me : PrincipalDetails) (request : ScopedRequest) (w : World V D) :
    Except Err ScopedResponse × World V D :=
  Rooti.serve env
    (do
      let scope ← getCompanyScope crypto me
      request.endpoint env r ilike me scope) w

end ScopedRequest

/-- **The state after the tasks** that a response leaves behind. -/
def afterTasks (env : Env) (r : Renderers) (response : Except Err ScopedResponse)
    (w : World V D) : World V D :=
  match response with
  | .ok (.queued _ task) => ((server env).run (task.script r) {} w).2.2
  | _ => w

end Rooti
