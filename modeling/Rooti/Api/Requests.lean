import Rooti.Api.Documents
import Rooti.Api.Endpoints
import Rooti.Core.Principals
import Rooti.Services.Auth
import Rooti.Services.Board
import Rooti.Services.Caregiver
import Rooti.Services.Charger
import Rooti.Services.Company
import Rooti.Services.Job
import Rooti.Services.Schedule
import Rooti.Services.User
import Rooti.Services.WorkRecord
import Rooti.Services.Worker

/-!
# The requests of the API

A request is open to everybody, is one of a principal, possibly of certain roles, or is confined
to the company of the principal.  `ApiRequest.handle` is all the server does about it: the
transaction around the guard and the endpoint, and what is left to do after the response.

Requests come as they are after the validation of their paths, queries and bodies.

## Main definitions

* `App` — what the endpoints are configured with
* `PublicRequest`, `MemberRequest`, `ApiRequest` — the requests
* `MemberRequest.roles`, `guarded` — who may send them
* `ApiRequest.endpoint`, `ApiRequest.handle` — what is done about them
* `PassesGuard` — a request whose token is accepted, from a principal with the roles it asks for

## Why one type of requests

Results about interleavings speak of any requests at any time, so there has to be a type
of them all. Services are not told where a call comes from; what they may assume of it,
a principal with a role, or a scope, is what the guards of this module have checked
before. Whoever sends a request chooses the credentials as well, so a request that is
refused by its guard is a request, too.

`PassesGuard` is the other direction: who may be the principal of a request that is
answered. The token may expire while the request is under way, hence *at some of the
times*.
-/

namespace Rooti

open Program

variable {V D : Type}

/-- **What the endpoints are configured with**: settings and surroundings, the libraries, and the
document storage. -/
structure App (V D : Type) where
  env : Env
  crypto : Crypto V
  reader : TokenReader V
  pydantic : Pydantic V
  renderers : Renderers
  files : ReadableStorage D
  ilike : String → String → Bool
  /-- `str.lower` -/
  lower : String → String
  maxFileBytes : ℤ := 50 * 1024 * 1024

/-! ## Requests and responses -/

/-- **The requests without a principal.** -/
inductive PublicRequest (V : Type)
  | login (req : LoginRequest)
  | refresh (refreshToken : V)
  | signupCaregiver (req : CaregiverSignupRequest)

/-- **The requests of a principal.** -/
inductive MemberRequest
  | logout
  | me
  | changePassword (current next : String)
  | updateMe (req : UpdateMeRequest)
  | listCompanies (keyword : Option String) (page : PageParams)
  | getCompany (companyId : ℤ)
  | createCompany (req : CompanyCreateRequest)
  | updateCompany (companyId : ℤ) (req : CompanyUpdateRequest)
  | deactivateCompany (companyId : ℤ)
  | listWorkers (keyword employmentStatus : Option String) (page : PageParams)
  | getWorker (workerId : ℤ)
  | listMemberships (workerId : ℤ)
  | workersOfCompany (companyId : ℤ) (page : PageParams)
  | createWorker (req : WorkerCreateRequest)
  | hireWorker (companyId workerId : ℤ)
  | fireCompanyWorker (companyWorkerId : ℤ)
  | retireWorker (workerId : ℤ)
  | rehireWorker (workerId : ℤ)
  | caregiverMe
  | listMyRelations
  | registerWorker (workerId : ℤ)
  | removeRelation (relationId : ℤ)
  | listStandards (companyId : Option ℤ) (keyword : Option String) (page : PageParams)
  | getStandard (standardId : ℤ)
  | createStandard (req : JobStandardCreateRequest)
  | updateStandard (standardId : ℤ) (req : JobStandardUpdateRequest)
  | syncProcesses (standardId : ℤ) (processes : List ProcessUpsertRequest)
  | deactivateStandard (standardId : ℤ)
  | listAssignments (jobStandardId companyWorkerId : Option ℤ)
  | assign (companyWorkerId jobStandardId : ℤ)
  | unassign (jobWorkerId : ℤ)
  | listSchedules (page : PageParams)
  | getSchedule (scheduleId : ℤ)
  | schedulesOfJobWorker (jobWorkerId : ℤ) (from_ to_ : Date)
  | schedulesOfStandard (jobStandardId : ℤ) (from_ to_ : Date) (page : PageParams)
  | createSchedule (req : CreateScheduleRequest)
  | batchMake (req : BatchMakeRequest)
  | closeSchedule (scheduleId : ℤ) (endAt : Option DateTime)
  | beginRecord (req : RecordStartRequest)
  | endRecord (req : RecordEndRequest)
  | listRecords (scheduleId : ℤ)
  | beginProcess (req : ProcessStartRequest)
  | endProcess (req : ProcessEndRequest)
  | listProcessRecords (scheduleId : ℤ)
  | listBoards (keyword : Option String) (page : PageParams)
  | getBoard (boardId : ℤ)
  | createBoard (req : BoardWriteRequest)
  | updateBoard (boardId : ℤ) (req : BoardWriteRequest)
  | deleteBoard (boardId : ℤ)
  | uploadDocument (relationId typeId : ℤ) (file : UploadFile)
  | documentsOfRelation (relationId : ℤ)
  | downloadDocument (documentId : ℤ)
  | deleteDocument (documentId : ℤ)
  | listUsers (keyword : Option String) (role : Option UserRole) (page : PageParams)
  | setEnabled (userId : ℤ) (enabled : Bool)
  | listChargers (keyword : Option String) (companyId : Option ℤ) (page : PageParams)
  | updateCharger (chargerId : ℤ) (hired : Option Bool)

/-- **The requests of the API.** -/
inductive ApiRequest (V : Type)
  | anyone (request : PublicRequest V)
  | member (request : MemberRequest)
  | confined (request : ScopedRequest)

/-- **What they are answered.** -/
inductive ApiResponse (V : Type)
  | done
  | tokens (pair : TokenResponse V)
  | account (user : MeResponse)
  | companies (page : PageResponse CompanyResponse)
  | company (row : CompanyResponse)
  | workers (page : PageResponse WorkerResponse)
  | worker (row : WorkerResponse)
  | memberships (rows : List CompanyWorkerResponse)
  | companyWorkers (page : PageResponse CompanyWorkerResponse)
  | companyWorker (row : CompanyWorkerResponse)
  | caregiver (row : CaregiverResponse)
  | relations (rows : List CaregiverRelationResponse)
  | relation (row : CaregiverRelationResponse)
  | standards (page : PageResponse JobStandardResponse)
  | standard (row : JobStandardResponse)
  | assignments (rows : List JobWorkerResponse)
  | assignment (row : JobWorkerResponse)
  | schedulePage (page : PageResponse ScheduleResponse)
  | schedules (rows : List ScheduleResponse)
  | schedule (row : ScheduleResponse)
  | records (rows : List RecordResponse)
  | record (row : RecordResponse)
  | processRecords (rows : List ProcessRecordResponse)
  | processRecord (row : ProcessRecordResponse)
  | boards (page : PageResponse BoardResponse)
  | board (row : BoardResponse)
  | documents (rows : List DocumentResponse)
  | document (row : DocumentResponse)
  | download (response : StreamingResponse)
  | users (page : PageResponse UserDTO)
  | user (row : UserDTO)
  | chargers (page : PageResponse ChargerResponse)
  | charger (row : ChargerResponse)
  | confined (response : ScopedResponse)

/-! ## Endpoints -/

/-- The endpoint of a request without a principal. -/
def PublicRequest.endpoint [DecidableEq V] (app : App V D) :
    PublicRequest V → Async V D (ApiResponse V)
  | .login req => do return .tokens (← AuthService.login app.env app.crypto req)
  | .refresh refreshToken => do
      return .tokens (← AuthService.refresh app.env app.crypto refreshToken)
  | .signupCaregiver req => do
      return .tokens (← AuthService.signupAsCaregiver app.env app.crypto req)

namespace MemberRequest

/-- The roles a request asks for; none where any principal will do. -/
def roles : MemberRequest → Option (List UserRole)
  | createCompany _ | updateCompany .. | deactivateCompany _ | listUsers .. | setEnabled ..
  | listChargers .. | updateCharger .. => some [.admin]
  | createWorker _ | hireWorker .. | fireCompanyWorker _ | retireWorker _ | rehireWorker _
  | createStandard _ | updateStandard .. | syncProcesses .. | deactivateStandard _
  | assign .. | unassign _ | createSchedule _ | batchMake _ => some [.admin, .charger]
  | caregiverMe | listMyRelations | registerWorker _ | removeRelation _ => some [.caregiver]
  | _ => none

/-- `list_assignments`: the standard is asked for first. -/
def listAssignmentsBy (jobStandardId companyWorkerId : Option ℤ) :
    Async V D (List JobWorkerResponse) :=
  match jobStandardId, companyWorkerId with
  | some id, _ => JobWorkerService.listByJobStandard id
  | none, some id => JobWorkerService.listActiveByCompanyWorker id
  | none, none => .ret []

/-- The endpoint of a request of a principal. -/
def endpoint (app : App V D) (me : PrincipalDetails) :
    MemberRequest → Async V D (ApiResponse V)
  | logout => do
      AuthService.logout me.userId
      return .done
  | .me => do return .account (← AuthService.me me)
  | changePassword current next => do
      AuthService.changePassword app.crypto me.userId current next
      return .done
  | updateMe req => do return .account (← AuthService.updateProfile me.userId req)
  | listCompanies keyword page => do
      return .companies (← CompanyService.search app.ilike keyword page).toResponse
  | getCompany companyId => do
      return .company (← CompanyService.get app.pydantic companyId)
  | createCompany req => do return .company (← CompanyService.create req (some me))
  | updateCompany companyId req => do
      return .company (← CompanyService.update companyId req (some me))
  | deactivateCompany companyId => do
      CompanyService.deactivate companyId (some me)
      return .done
  | listWorkers keyword employmentStatus page => do
      return .workers (← WorkerService.search app.ilike keyword page employmentStatus).toResponse
  | getWorker workerId => do return .worker (← WorkerService.get workerId)
  | listMemberships workerId => do
      return .memberships (← WorkerService.listMemberships workerId)
  | workersOfCompany companyId page => do
      return .companyWorkers (← WorkerService.listByCompany companyId page).toResponse
  | createWorker req => do return .worker (← WorkerService.create app.crypto.bcrypt req)
  | hireWorker companyId workerId => do
      return .companyWorker (← WorkerService.hire companyId workerId)
  | fireCompanyWorker companyWorkerId => do
      WorkerService.fire companyWorkerId
      return .done
  | retireWorker workerId => do return .worker (← WorkerService.retire workerId)
  | rehireWorker workerId => do return .worker (← WorkerService.rehire workerId)
  | caregiverMe => do return .caregiver (← CaregiverService.me me.userId)
  | listMyRelations => do return .relations (← CaregiverService.listRelations me.userId)
  | registerWorker workerId => do
      return .relation (← CaregiverService.registerWorker me.userId workerId)
  | removeRelation relationId => do
      CaregiverService.removeRelation me.userId relationId
      return .done
  | listStandards companyId keyword page => do
      return .standards (← JobStandardService.search app.ilike companyId keyword page).toResponse
  | getStandard standardId => do
      return .standard (← JobStandardService.get app.pydantic standardId)
  | createStandard req => do return .standard (← JobStandardService.create req)
  | updateStandard standardId req => do
      return .standard (← JobStandardService.update standardId req)
  | syncProcesses standardId processes => do
      return .standard (← JobStandardService.syncProcesses standardId processes)
  | deactivateStandard standardId => do
      JobStandardService.deactivate standardId
      return .done
  | listAssignments jobStandardId companyWorkerId => do
      return .assignments (← listAssignmentsBy jobStandardId companyWorkerId)
  | assign companyWorkerId jobStandardId => do
      return .assignment (← JobWorkerService.assign companyWorkerId jobStandardId)
  | unassign jobWorkerId => do
      JobWorkerService.unassign jobWorkerId
      return .done
  | listSchedules page => do
      return .schedulePage (← WorkScheduleService.listAll page).toResponse
  | getSchedule scheduleId => do return .schedule (← WorkScheduleService.get scheduleId)
  | schedulesOfJobWorker jobWorkerId from_ to_ => do
      return .schedules (← WorkScheduleService.listForJobWorker jobWorkerId from_ to_)
  | schedulesOfStandard jobStandardId from_ to_ page => do
      return .schedulePage
        (← WorkScheduleService.listForStandard jobStandardId from_ to_ page).toResponse
  | createSchedule req => do return .schedule (← WorkScheduleService.create req)
  | batchMake req => do return .schedules (← WorkScheduleService.batchMake req)
  | closeSchedule scheduleId endAt => do
      return .schedule (← WorkScheduleService.close app.env scheduleId endAt)
  | beginRecord req => do return .record (← WorkRecordService.begin app.env req)
  | endRecord req => do return .record (← WorkRecordService.end app.env req)
  | listRecords scheduleId => do return .records (← WorkRecordService.list scheduleId)
  | beginProcess req => do
      return .processRecord (← WorkRecordService.beginProcess app.env req)
  | endProcess req => do return .processRecord (← WorkRecordService.endProcess app.env req)
  | listProcessRecords scheduleId => do
      return .processRecords (← WorkRecordService.listProcess scheduleId)
  | listBoards keyword page => do
      return .boards (← CaregiverBoardService.list app.ilike keyword page).toResponse
  | getBoard boardId => do return .board (← CaregiverBoardService.get boardId)
  | createBoard req => do return .board (← CaregiverBoardService.create me.userId req)
  | updateBoard boardId req => do
      return .board (← CaregiverBoardService.update me.userId boardId req)
  | deleteBoard boardId => do
      CaregiverBoardService.delete me.userId boardId
      return .done
  | uploadDocument relationId typeId file => do
      return .document (← DocumentApi.upload app.files.toStorageService app.lower
        app.maxFileBytes me relationId typeId file)
  | documentsOfRelation relationId => do
      return .documents (← DocumentApi.listByRelation me relationId)
  | downloadDocument documentId => do
      return .download (← DocumentApi.download app.files me documentId)
  | deleteDocument documentId => do
      DocumentApi.delete app.files.toStorageService me documentId
      return .done
  | listUsers keyword role page => do
      return .users (← UserService.search app.ilike keyword role page).toResponse
  | setEnabled userId enabled => do
      return .user (UserService.toDTO (← UserService.setEnabled userId enabled))
  | listChargers keyword companyId page => do
      return .chargers (← ChargerService.search app.ilike keyword companyId page).toResponse
  | updateCharger chargerId hired => do
      return .charger (← ChargerService.setHired chargerId (hired.getD true))

end MemberRequest

/-! ## Guards and transactions -/

/-- The guard of the requests of a principal. -/
def guarded (app : App V D) (roles : Option (List UserRole)) (request : Credentials) :
    Async V D PrincipalDetails := do
  let me ← currentUser app.env app.crypto app.reader request
  match roles with
  | none => return me
  | some roles => requireRoles app.crypto roles me

namespace ApiRequest

/-- **A request with its guard.** -/
def endpoint [DecidableEq V] (app : App V D) (credentials : Credentials) :
    ApiRequest V → Async V D (ApiResponse V)
  | anyone request => request.endpoint app
  | member request => do
      let me ← guarded app request.roles credentials
      request.endpoint app me
  | confined request => do
      let me ← currentUser app.env app.crypto app.reader credentials
      let scope ← getCompanyScope app.crypto me
      return .confined (← request.endpoint app.env app.renderers app.ilike me scope)

/-- What is left to do after a response, in a session of its own. -/
def background (app : App V D) : ApiResponse V → Async V D Unit
  | .confined (.queued _ task) => task.script app.renderers
  | _ => return ()

/-- **All the server does about a request**: the response is on its way when the tasks run, and
what they raise is logged. -/
def handle [DecidableEq V] (app : App V D) (credentials : Credentials) (request : ApiRequest V) :
    Async V D (ApiResponse V) := do
  let response ← getDbSession app.env (request.endpoint app credentials)
  Prog.handle (background app response) fun _ => return ()
  return response

/-- The roles a request asks for. -/
def roles : ApiRequest V → Option (List UserRole)
  | anyone _ => none
  | member request => request.roles
  | confined _ => some [.admin, .charger]

end ApiRequest

/-- A principal has one of the roles asked for, as the guard compares them. -/
def HasOneOf (roles : Option (List UserRole)) (me : PrincipalDetails) : Prop :=
  ∀ asked ∈ roles, ∃ role ∈ asked, role.value ∈ me.roles

/-- **A principal that passes the guard of a request** at some of the times the server reads. -/
def PassesGuard (app : App V D) (credentials : Credentials) (request : ApiRequest V)
    (me : PrincipalDetails) : Prop :=
  SpeaksFor app.env app.crypto app.reader credentials me ∧ HasOneOf request.roles me

end Rooti
