import Rooti.Core.Pagination
import Rooti.Core.Tenant

/-!
# Leaves

A leave takes a worker out of a company for some days.  It is shown with the names of
the company, of the worker and of whoever recorded it.

## Main definitions

* `leaveRow` — a leave and the names it is shown with
* `LeaveService.search`, `listByWorker`, `listApproved` — listings
* `LeaveService.create`, `decide`, `delete`
-/

namespace Rooti

open Relational Program

variable {V D : Type}

/-! ## Requests and responses -/

/-- `LeaveCreateRequest`. -/
structure LeaveCreateRequest where
  workerId : ℤ
  companyId : ℤ
  type : LeaveType
  startDate : Date
  endDate : Date
  reason : Option String := none
  autoApprove : Bool := false

/-- `LeaveResponse`. -/
structure LeaveResponse where
  id : ℤ
  workerId : ℤ
  workerName : Option String
  companyId : ℤ
  companyName : Option String
  type : LeaveType
  startDate : Date
  endDate : Date
  days : ℤ
  status : LeaveStatus
  reason : Option String
  createdBy : Option ℤ
  createdByName : Option String
  createdAt : DateTime
  deriving DecidableEq

/-- A leave with the names of its company, of its worker and of its creator. -/
structure LeaveRow where
  leave : Leave
  companyName : String
  workerName : String
  creatorName : Option String
  deriving DecidableEq

/-- The joins of `_base_query`. -/
def leaveRow (db : Db) (leave : Leave) : Option LeaveRow := do
  let company ← db.find? .company leave.companyId
  let worker ← db.find? .challengedWorker leave.workerId
  let user ← db.find? .user worker.userId
  let creator := leave.createdBy.bind fun id => db.find? .user id
  return ⟨leave, company.name, user.name, creator.map User.name⟩

theorem leave_of_leaveRow {db : Db} {leave : Leave} {row : LeaveRow}
    (h : leaveRow db leave = some row) : row.leave = leave := by
  simp only [leaveRow, Option.bind_eq_bind, Option.bind_eq_some_iff, Option.pure_def,
    Option.some.injEq] at h
  obtain ⟨company, -, worker, -, user, -, rfl⟩ := h
  rfl

/-- `_base_query`, restricted by a condition. -/
def leaveRows (db : Db) (ok : LeaveRow → Bool) : List LeaveRow :=
  ((db.rows .leave).filterMap (leaveRow db)).filter ok

/-- `_row_to_response`. -/
def LeaveRow.toResponse (row : LeaveRow) : LeaveResponse where
  id := row.leave.id
  workerId := row.leave.workerId
  workerName := row.workerName
  companyId := row.leave.companyId
  companyName := row.companyName
  type := row.leave.type
  startDate := row.leave.startDate
  endDate := row.leave.endDate
  days := row.leave.days
  status := row.leave.status
  reason := row.leave.reason
  createdBy := row.leave.createdBy
  createdByName := row.creatorName
  createdAt := row.leave.createdAt

/-- The filters of `search`. -/
structure LeaveFilter where
  keyword : Option String := none
  companyId : Option ℤ := none
  workerId : Option ℤ := none
  type : Option LeaveType := none
  status : Option LeaveStatus := none
  from_ : Option Date := none
  to_ : Option Date := none

/-- The leave reaches into the days asked for. -/
def withinDates (from_ to_ : Option Date) (leave : Leave) : Bool :=
  from_.all (fun d => d.days ≤ leave.endDate.days) && to_.all fun d => leave.startDate.days ≤ d.days

/-- A leave and its names match the filters. -/
def LeaveFilter.ok (filter : LeaveFilter) (ilike : String → String → Bool) (row : LeaveRow) : Bool :=
  filter.companyId.all (row.leave.companyId = ·) && filter.workerId.all (row.leave.workerId = ·) &&
    filter.type.all (row.leave.type = ·) && filter.status.all (row.leave.status = ·) &&
    withinDates filter.from_ filter.to_ row.leave &&
    keywordMatches ilike filter.keyword [some row.companyName, row.leave.reason]

/-- The leave a `create` adds. -/
def LeaveCreateRequest.row (req : LeaveCreateRequest) (actorUserId : ℤ) (new : NewRow) : Leave where
  id := new.id
  workerId := req.workerId
  companyId := req.companyId
  type := req.type
  startDate := req.startDate
  endDate := req.endDate
  days := req.endDate.days - req.startDate.days + 1
  status := if req.autoApprove then .approved else .pending
  reason := req.reason
  createdBy := some actorUserId
  createdAt := new.createdAt

/-- The reason of a leave after a decision with a comment. -/
def decidedReason (comment reason : Option String) : Option String :=
  if Py.truthy comment then
    if Py.truthy reason then some (reason.getD "" ++ " · " ++ comment.getD "") else comment
  else reason

/-- The assignments of a decision on the leave that was loaded: the `UPDATE` sets the columns
whose value changes, and it sets them to what was computed from the loaded ones. -/
def Leave.decided (leave : Leave) (status : LeaveStatus) (comment : Option String) (row : Leave) :
    Leave :=
  { row with
    status := if status = leave.status then row.status else status
    reason := if Py.truthy comment then decidedReason comment leave.reason else row.reason }

namespace LeaveService

/-- `search`. -/
def search (ilike : String → String → Bool) (filter : LeaveFilter) (params : PageParams) :
    Async V D (Page LeaveResponse) :=
  listPage
    (filter.companyId.toList.map Bind.int ++ filter.workerId.toList.map Bind.int ++
      keywordBinds filter.keyword)
    (fun db => leaveRows db (filter.ok ilike))
    (fun o => o.orderByDesc fun row => row.leave.startDate.days)
    (fun row => .ok row.toResponse) params

/-- The leaves that satisfy a condition, the latest first. -/
def listLeaves (binds : List Bind) (ok : LeaveRow → Bool) : Async V D (List LeaveResponse) := do
  let rows ← select binds fun o db =>
    o.orderByDesc (fun row => row.leave.startDate.days) (leaveRows db ok)
  return rows.map LeaveRow.toResponse

/-- `list_by_worker`. -/
def listByWorker (workerId : ℤ) (from_ to_ : Option Date)
    (companyScope : CompanyScopeValue := none) : Async V D (List LeaveResponse) :=
  listLeaves (.int workerId :: companyScope.toList.map Bind.int) fun row =>
    row.leave.workerId = workerId && companyScope.all (row.leave.companyId = ·) &&
      withinDates from_ to_ row.leave

/-- `list_approved`. -/
def listApproved (companyId : Option ℤ) (from_ to_ : Option Date) :
    Async V D (List LeaveResponse) :=
  listLeaves (companyId.toList.map Bind.int) fun row =>
    row.leave.status = .approved && companyId.all (row.leave.companyId = ·) &&
      withinDates from_ to_ row.leave

/-- `_get_response`. -/
def getResponse (leaveId : ℤ) : Async V D LeaveResponse := do
  let rows ← select [.int leaveId] fun o db =>
    o.scan (leaveRows db fun row => row.leave.id = leaveId)
  let row ← one rows
  return row.toResponse

/-- `create`: worker and company have to exist, but not to have to do with each other. -/
def create (req : LeaveCreateRequest) (actorUserId : ℤ) : Async V D LeaveResponse := do
  Prog.raiseIf (decide (req.endDate.days < req.startDate.days))
    (businessExceptionWith .invalidInput "종료일이 시작일보다 빠릅니다.")
  let worker ← dbGet .challengedWorker req.workerId
  let _ ← Prog.orRaise (businessException .workerNotFound) worker
  let company ← dbGet .company req.companyId
  let _ ← Prog.orRaise (businessException .companyNotFound) company
  let new ← add .leave (req.row actorUserId)
  flush
  getResponse new.id

/-- `decide`. -/
def decide (leaveId : ℤ) (status : LeaveStatus) (comment : Option String)
    (companyScope : CompanyScopeValue := none) : Async V D LeaveResponse := do
  let found ← dbGet .leave leaveId
  let leave ← Prog.orRaise
    (businessExceptionWith .resourceNotFound "휴가 신청을 찾을 수 없습니다.") found
  assertCompany companyScope (some leave.companyId)
  modify .leave leave (leave.decided status comment)
  getResponse leaveId

/-- `delete`: a leave that does not exist is passed over. -/
def delete (leaveId : ℤ) (companyScope : CompanyScopeValue := none) : Async V D Unit := do
  match ← dbGet .leave leaveId with
  | none => return ()
  | some leave => do
      assertCompany companyScope (some leave.companyId)
      Rooti.delete .leave leave

end LeaveService

end Rooti
