import Rooti.Core.Pagination
import Rooti.Core.Security

/-!
# Workers

A worker is an account of their own.  Companies hire and dismiss workers; a row of
a dismissed worker stays where it is.

## Main definitions

* `WorkerService.getOrThrow`, `get`, `create`, `search` — workers and their accounts
* `WorkerService.hire`, `fire`, `listByCompany` — the workers of a company
* `WorkerService.listMemberships` — the companies of a worker
* `WorkerService.retire`, `rehire` — workers who retire, and come back
-/

namespace Rooti

open Program

variable {V D : Type}

/-! ## Requests and responses -/

/-- `WorkerCreateRequest`. -/
structure WorkerCreateRequest where
  username : String
  email : String
  password : String
  name : String
  phoneNumber : Option String := none

/-- `WorkerResponse`. -/
structure WorkerResponse where
  id : ℤ
  userId : ℤ
  username : String
  name : String
  email : Option String
  phoneNumber : Option String
  employmentStatus : String
  retiredAt : Option Date
  deriving DecidableEq

/-- `CompanyWorkerResponse`. -/
structure CompanyWorkerResponse where
  id : ℤ
  companyId : ℤ
  companyName : String
  worker : WorkerResponse
  hired : Bool
  deriving DecidableEq

/-- `_to_worker_response`. -/
def toWorkerResponse (worker : ChallengedWorker) (user : User) : WorkerResponse where
  id := worker.id
  userId := user.id
  username := user.username
  name := user.name
  email := user.email
  phoneNumber := user.phoneNumber
  employmentStatus := if worker.retiredAt.isSome then "RETIRED" else "ACTIVE"
  retiredAt := worker.retiredAt.map DateTime.date

/-- `_to_company_worker_response`. -/
def toCompanyWorkerResponse (cw : CompanyWorker) (worker : ChallengedWorker) (user : User)
    (company : Company) : CompanyWorkerResponse where
  id := cw.id
  companyId := cw.companyId
  companyName := company.name
  worker := toWorkerResponse worker user
  hired := cw.isHired

namespace WorkerService

/-- `get_or_throw`. -/
def getOrThrow (workerId : ℤ) : Async V D ChallengedWorker := do
  let worker ← dbGet .challengedWorker workerId
  Prog.orRaise (businessException .workerNotFound) worker

/-- `get`. -/
def get (workerId : ℤ) : Async V D WorkerResponse := do
  let worker ← getOrThrow workerId
  let found ← dbGet .user worker.userId
  let user ← assertSome found
  return toWorkerResponse worker user

/-- The account of a new worker. -/
def workerUser (req : WorkerCreateRequest) (passwordHash : String) (new : NewRow) : User where
  id := new.id
  username := req.username
  email := some req.email
  passwordHash := passwordHash
  name := req.name
  phoneNumber := req.phoneNumber
  role := .worker
  enabled := true
  lastLoginAt := none

/-- A new worker. -/
def newWorker (userId : ℤ) (new : NewRow) : ChallengedWorker where
  id := new.id
  userId := userId
  fcmToken := none
  retiredAt := none

/-- `create`: the username has to be free; the e-mail address is not looked up. -/
def create (bcrypt : Bcrypt) (req : WorkerCreateRequest) : Async V D WorkerResponse := do
  let dup ← select [.text req.username] fun _ db =>
    (db.rows .user).any fun u => u.username = req.username
  Prog.raiseIf dup (userUsernameDuplicatedException req.username)
  let passwordHash ← hashPassword bcrypt req.password
  let newUser ← add .user (workerUser req passwordHash)
  flush
  let new ← add .challengedWorker (newWorker newUser.id)
  flush
  return toWorkerResponse (newWorker newUser.id new) (workerUser req passwordHash newUser)

/-- A worker with the account. -/
def withUser (db : Db) (worker : ChallengedWorker) : Option (ChallengedWorker × User) :=
  (db.find? .user worker.userId).map fun user => (worker, user)

/-- The worker is in the employment asked for; other texts ask for nothing. -/
def employmentMatches (employmentStatus : Option String) (worker : ChallengedWorker) : Bool :=
  if employmentStatus = some "ACTIVE" then worker.retiredAt.isNone
  else if employmentStatus = some "RETIRED" then worker.retiredAt.isSome
  else true

/-- The workers that a search finds. -/
def searchRows (ilike : String → String → Bool) (keyword employmentStatus : Option String)
    (db : Db) : List (ChallengedWorker × User) :=
  ((db.rows .challengedWorker).filterMap (withUser db)).filter fun row =>
    keywordMatches ilike keyword [some row.2.username, some row.2.name, row.2.email] &&
      employmentMatches employmentStatus row.1

/-- `search`. -/
def search (ilike : String → String → Bool) (keyword : Option String) (params : PageParams)
    (employmentStatus : Option String := none) : Async V D (Page WorkerResponse) :=
  listPage (keywordBinds keyword) (searchRows ilike keyword employmentStatus)
    (fun o => o.orderByDesc fun row => row.1.id)
    (fun row => .ok (toWorkerResponse row.1 row.2)) params

/-- The row a `hire` adds. -/
def newCompanyWorker (companyId workerId : ℤ) (new : NewRow) : CompanyWorker where
  id := new.id
  companyId := companyId
  challengedWorkerId := workerId
  isHired := true

/-- `hire`. -/
def hire (companyId workerId : ℤ) : Async V D CompanyWorkerResponse := do
  let dup ← select [.int companyId, .int workerId] fun _ db =>
    (db.rows .companyWorker).any fun cw =>
      cw.companyId = companyId ∧ cw.challengedWorkerId = workerId
  Prog.raiseIf dup (businessException .workerAlreadyHired)
  let company ← dbGet .company companyId
  let company ← Prog.orRaise (businessException .companyNotFound) company
  let worker ← getOrThrow workerId
  let found ← dbGet .user worker.userId
  let user ← assertSome found
  let new ← add .companyWorker (newCompanyWorker companyId workerId)
  flush
  return toCompanyWorkerResponse (newCompanyWorker companyId workerId new) worker user company

/-- `fire`. -/
def fire (companyWorkerId : ℤ) : Async V D Unit := do
  let found ← dbGet .companyWorker companyWorkerId
  let cw ← Prog.orRaise (businessException .workerNotFound) found
  modify .companyWorker cw fun cw => { cw with isHired := false }

/-- The worker retires now, unless retired already. -/
def markRetired (worker : ChallengedWorker) : Async V D (Option DateTime) :=
  match worker.retiredAt with
  | some t => .ret (some t)
  | none => do
      let t ← utcNow
      modify .challengedWorker worker fun w => { w with retiredAt := some t }
      return some t

/-- `retire`: the time of an earlier retirement stays. -/
def retire (workerId : ℤ) : Async V D WorkerResponse := do
  let worker ← getOrThrow workerId
  let found ← dbGet .user worker.userId
  let user ← assertSome found
  let retiredAt ← markRetired worker
  flush
  return toWorkerResponse { worker with retiredAt := retiredAt } user

/-- `rehire`. -/
def rehire (workerId : ℤ) : Async V D WorkerResponse := do
  let worker ← getOrThrow workerId
  let found ← dbGet .user worker.userId
  let user ← assertSome found
  modify .challengedWorker worker fun w => { w with retiredAt := none }
  flush
  return toWorkerResponse { worker with retiredAt := none } user

/-- A worker of a company with everything that is shown. -/
def withCompany (db : Db) (cw : CompanyWorker) :
    Option (CompanyWorker × ChallengedWorker × User × Company) := do
  let worker ← db.find? .challengedWorker cw.challengedWorkerId
  let user ← db.find? .user worker.userId
  let company ← db.find? .company cw.companyId
  return (cw, worker, user, company)

/-- The workers of a company, dismissed ones too. -/
def rowsByCompany (companyId : ℤ) (db : Db) :
    List (CompanyWorker × ChallengedWorker × User × Company) :=
  ((db.rows .companyWorker).filterMap (withCompany db)).filter fun row =>
    row.1.companyId = companyId

/-- `list_by_company`. -/
def listByCompany (companyId : ℤ) (params : PageParams) :
    Async V D (Page CompanyWorkerResponse) :=
  listPage [.int companyId] (rowsByCompany companyId) (fun o => o.orderByDesc fun row => row.1.id)
    (fun row => .ok (toCompanyWorkerResponse row.1 row.2.1 row.2.2.1 row.2.2.2)) params

/-- The companies of a worker, the latest first. -/
def rowsByWorker (workerId : ℤ) (o : RowOrder) (db : Db) :
    List (CompanyWorker × ChallengedWorker × User × Company) :=
  o.orderByDesc (fun row => row.1.id) (((db.rows .companyWorker).filterMap (withCompany db)).filter
    fun row => row.1.challengedWorkerId = workerId)

/-- `list_memberships`. -/
def listMemberships (workerId : ℤ) : Async V D (List CompanyWorkerResponse) := do
  let _ ← getOrThrow workerId
  let rows ← select [.int workerId] (rowsByWorker workerId)
  return rows.map fun row => toCompanyWorkerResponse row.1 row.2.1 row.2.2.1 row.2.2.2

end WorkerService

end Rooti
