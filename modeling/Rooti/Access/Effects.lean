import Rooti.Api.Requests
import Rooti.Core.Footprints

/-!
# The footprints of the services

What every service call can do to the shared state: the rows it adds, the columns it changes,
the rows it deletes, the keys it writes in Redis, and whether it stores files or sends mails.
Calls that only read are within every footprint.

Each lemma follows its script once; it asks of a footprint only what the script needs.

A footprint names columns, not values. That `fire` writes `is_hired` is visible here,
that it sets it to false is not: a result that needs the value reads the service itself.
What the footprints buy is the converse. A table that no hypothesis of a lemma mentions
is a table the call cannot write, whatever its arguments, the state and the other
sessions are.

## How a lemma is read

The hypotheses of a lemma are its whole content. `adds t P ⊆ F.statements` allows
INSERTs into `t` of rows with `P`, `edits t cols` UPDATEs that keep to the columns
`cols`, `removes t` DELETEs, a key in `F.keys` a SET or DEL in Redis. A service without
hypotheses reads only, and so it is within the empty footprint: `me`, `getBoard` and
`render` are such.

## What carries the weight

The scripts are followed with the rules of `Core.Footprints`: one rule for `>>=`, one
for each command, and a loop by induction on its list. The only facts about data are
that the row which an assignment returns differs from the one it was given in the named
columns, mostly `rfl`. What the endpoints do is then an addition of hypotheses.
-/

namespace Rooti

open Relational Program

variable {V D : Type} {F : Footprint} {env : Env}

/-- The keys of the refresh tokens. -/
def refreshKeys : Set String := {key | ∃ userId, key = RefreshTokenStore.key userId}

/-- The keys of the cached standards. -/
def standardKeys : Set String :=
  {key | ∃ standardId : ℤ, key = cacheKey JobStandardService.cacheNs standardId}

/-! ## Columns -/

section Columns

/-- Nothing but the time of the last login. -/
def loginColumns (u u' : User) : Prop := u' = { u with lastLoginAt := u'.lastLoginAt }

/-- Nothing but the password. -/
def passwordColumns (u u' : User) : Prop := u' = { u with passwordHash := u'.passwordHash }

/-- Nothing but name, address and phone number. -/
def profileColumns (u u' : User) : Prop :=
  u' = { u with name := u'.name, email := u'.email, phoneNumber := u'.phoneNumber }

/-- Nothing but whether the account is enabled. -/
def enabledColumns (u u' : User) : Prop := u' = { u with enabled := u'.enabled }

/-- A new account of a role. -/
def newAccount (role : UserRole) (u : User) : Prop := u.role = role ∧ u.enabled = true

/-- Nothing but the push token. -/
def pushColumns (r r' : ChallengedWorker) : Prop := r' = { r with fcmToken := r'.fcmToken }

/-- Nothing but the time of the retirement. -/
def retirementColumns (r r' : ChallengedWorker) : Prop :=
  r' = { r with retiredAt := r'.retiredAt }

/-- Nothing but whether the worker is hired. -/
def hiredColumns (r r' : CompanyWorker) : Prop := r' = { r with isHired := r'.isHired }

/-- Nothing but whether the charger is hired. -/
def chargerColumns (r r' : CompanyCharger) : Prop := r' = { r with isHired := r'.isHired }

/-- Nothing but what a company is described by, and whether it is in use. -/
def companyColumns (r r' : Company) : Prop := r'.id = r.id

/-- Nothing but what a standard is described by, and whether it is in use. -/
def standardColumns (r r' : JobStandard) : Prop := r'.id = r.id ∧ r'.companyId = r.companyId

/-- Nothing but what a process is described by. -/
def processColumns (r r' : JobProcess) : Prop :=
  r'.id = r.id ∧ r'.jobStandardId = r.jobStandardId

/-- Nothing but whether the assignment is active. -/
def assignmentColumns (r r' : JobWorker) : Prop := r' = { r with useFlag := r'.useFlag }

/-- Nothing but the end of the shift. -/
def closingColumns (r r' : WorkSchedule) : Prop := r' = { r with endAt := r'.endAt }

/-- Nothing but the end of the record. -/
def recordColumns (r r' : WorkRecord) : Prop := r' = { r with endAt := r'.endAt }

/-- Nothing but the end of the process and what is known about it. -/
def processRecordColumns (r r' : WorkProcessRecord) : Prop :=
  r'.id = r.id ∧ r'.workScheduleId = r.workScheduleId ∧ r'.jobProcessId = r.jobProcessId

/-- Nothing but the text of the post, and whether it is published. -/
def boardColumns (r r' : CaregiverBoard) : Prop :=
  r' = { r with
    title := r'.title
    body := r'.body
    isPublished := r'.isPublished
    updatedAt := r'.updatedAt
    updatedBy := r'.updatedBy }

/-- Nothing but the decision and its reason. -/
def decisionColumns (r r' : Leave) : Prop :=
  r' = { r with status := r'.status, reason := r'.reason }

/-- Nothing but who has the kiosk. -/
def assigneeColumns (r r' : CompanyKiosk) : Prop := r' = { r with assignee := r'.assignee }

/-- Anything but the id and the times of creation and last run. -/
def journalColumns (r r' : JournalEmailSchedule) : Prop :=
  r'.id = r.id ∧ r'.createdAt = r.createdAt ∧ r'.lastRunAt = r.lastRunAt

/-- Nothing but the progress of the job. -/
def progressColumns (r r' : BulkEmailJob) : Prop :=
  r' = { r with
    status := r'.status
    scheduleCount := r'.scheduleCount
    truncated := r'.truncated
    messageId := r'.messageId
    errorMessage := r'.errorMessage
    startedAt := r'.startedAt
    finishedAt := r'.finishedAt }

/-- Whatever an update asks for, also a move to another company, the schedule keeps its
id and the times of its creation and of its last run. -/
theorem journalColumns_assign (req : JournalScheduleUpdateRequest) (r : JournalEmailSchedule)
    (nextRunAt : Option DateTime) : journalColumns r (req.assign r nextRunAt) := by
  unfold JournalScheduleUpdateRequest.assign JournalScheduleUpdateRequest.reshape
  split <;> exact ⟨rfl, rfl, rfl⟩

end Columns

namespace Within

/-! ## Accounts -/

section Accounts

variable {crypto : Crypto V}

theorem createToken {userId : ℤ} {username : String} {roles : List String}
    {tokenType : TokenType} :
    Within F (createToken env crypto userId username roles tokenType : Async V D V) :=
  .bind .now fun _ => .ret

/-- A token pair is signed without a command; the one write is the SET of the refresh
key. -/
theorem issueTokenPair {user : User} (h : refreshKeys ⊆ F.keys) :
    Within F (issueTokenPair env crypto user : Async V D (TokenResponse V)) :=
  .bind createToken fun _ => .bind createToken fun _ =>
    .bind (.redisSet (h ⟨_, rfl⟩)) fun _ => .ret

/-- The push token goes to the worker of the user, if there is one; nobody else's row is
read for writing. -/
theorem syncLoginFcm {user : User} {fcmToken : Option String}
    (h : edits .challengedWorker pushColumns ⊆ F.statements) :
    Within F (AuthService.syncLoginFcm user fcmToken : Async V D Unit) := by
  cases fcmToken with
  | none => exact .ret
  | some token =>
      refine .ite (.ite .ret (.bind .select fun workers => .bind .scalarOneOrNone fun found => ?_))
        .ret
      cases found with
      | none => exact .ret
      | some worker => exact .modify h (fun _ _ => rfl) fun _ => rfl

/-- The push token first, then `lastLoginAt`: two tables, one column each. -/
theorem recordLogin {user : User} {fcmToken : Option String}
    (hpush : edits .challengedWorker pushColumns ⊆ F.statements)
    (hlogin : edits .user loginColumns ⊆ F.statements) :
    Within F (AuthService.recordLogin env user fcmToken : Async V D Unit) := by
  unfold AuthService.recordLogin
  exact .ite .ret (.bind (syncLoginFcm hpush) fun _ => .bind .datetimeNow fun t =>
    .modify hlogin (fun _ _ => rfl) fun _ => rfl)

/-- The checks of account and password raise or fall through, and neither writes: what
is left is `recordLogin` and the new pair. -/
theorem login {req : LoginRequest} (hkeys : refreshKeys ⊆ F.keys)
    (hpush : edits .challengedWorker pushColumns ⊆ F.statements)
    (hlogin : edits .user loginColumns ⊆ F.statements) :
    Within F (AuthService.login env crypto req : Async V D (TokenResponse V)) :=
  .bind (.bind .select fun _ => .scalarOneOrNone) fun _ => .bind .orRaise fun _ =>
    .bind .raiseIf fun _ => .bind .raiseIf fun _ => .bind (recordLogin hpush hlogin) fun _ =>
      issueTokenPair hkeys

theorem parseToken {expectedType : Option TokenType} {token : V} :
    Within F (parseToken env crypto expectedType token : Async V D JwtPayload) :=
  .bind .now fun _ => .ofExcept

/-- All ends of a refresh are within the refresh keys: the SET of a new pair, the DEL
after a replay or of a disabled account, and nothing when the text is no token. -/
theorem refresh [DecidableEq V] {refreshToken : V} (h : refreshKeys ⊆ F.keys) :
    Within F (AuthService.refresh env crypto refreshToken : Async V D (TokenResponse V)) := by
  refine .bind parseToken fun payload => .bind (.bind .redisGet fun _ => .ret) fun matched => ?_
  have hremove : Within F (RefreshTokenStore.remove payload.userId : Async V D Unit) :=
    .redisDel (h ⟨_, rfl⟩)
  refine .ite (.bind .dbGet fun _ => .bind .orRaise fun user => ?_) ?_
  · exact .ite (issueTokenPair h) (.bind hremove fun _ => .raise)
  · exact .bind hremove fun _ => .raise

theorem logout {userId : ℤ} (h : RefreshTokenStore.key userId ∈ F.keys) :
    Within F (AuthService.logout userId : Async V D Unit) := .redisDel h

theorem hashPassword {bcrypt : Bcrypt} {plain : String} :
    Within F (hashPassword bcrypt plain : Async V D String) := .bind .gensalt fun _ => .ret

/-- The hash in `users` and the DEL that ends all sessions of the user. -/
theorem changePassword {userId : ℤ} {current next : String}
    (hkeys : RefreshTokenStore.key userId ∈ F.keys)
    (h : edits .user passwordColumns ⊆ F.statements) :
    Within F (AuthService.changePassword crypto userId current next : Async V D Unit) :=
  .bind .dbGet fun _ => .bind .orRaise fun _ => .bind .raiseIf fun _ => .bind hashPassword fun _ =>
    .bind (.modify h (fun _ _ => rfl) fun _ => rfl) fun _ => .redisDel hkeys

/-- Two tables and a key: the account has the role of a caregiver, whatever the body
says, and the caregiver's row goes with it. -/
theorem signupAsCaregiver {req : CaregiverSignupRequest} (hkeys : refreshKeys ⊆ F.keys)
    (huser : adds .user (newAccount .caregiver) ⊆ F.statements)
    (hcaregiver : adds .caregiver anyRow ⊆ F.statements) :
    Within F (AuthService.signupAsCaregiver env crypto req : Async V D (TokenResponse V)) :=
  .bind .select fun _ => .bind .raiseIf fun _ => .bind .select fun _ => .bind .raiseIf fun _ =>
    .bind hashPassword fun _ => .bind (.add huser (fun _ => ⟨rfl, rfl⟩) fun _ => rfl) fun _ =>
      .bind .flush fun _ => .bind (.add hcaregiver (fun _ => trivial) fun _ => rfl) fun _ =>
        .bind .flush fun _ => issueTokenPair hkeys

theorem me {principal : PrincipalDetails} :
    Within F (AuthService.me principal : Async V D MeResponse) :=
  .bind .dbGet fun _ => .bind .orRaise fun _ => .ret

theorem updateProfile {userId : ℤ} {req : UpdateMeRequest}
    (h : edits .user profileColumns ⊆ F.statements) :
    Within F (AuthService.updateProfile userId req : Async V D MeResponse) := by
  refine .bind .dbGet fun _ => .bind .orRaise fun user => .bind ?_ fun _ =>
    .bind (.modify h (fun _ _ => rfl) fun _ => rfl) fun _ => .bind .flush fun _ => .ret
  cases req.email with
  | none => exact .ret
  | some email => exact .ite (.bind .select fun _ => .raiseIf) .ret

/-- Disabling an account writes `enabled` and leaves the key of the refresh token alone.
-/
theorem setEnabled {userId : ℤ} {enabled : Bool} (h : edits .user enabledColumns ⊆ F.statements) :
    Within F (UserService.setEnabled userId enabled : Async V D User) :=
  .bind (.bind .dbGet fun _ => .orRaise) fun _ =>
    .bind (.modify h (fun _ _ => rfl) fun _ => rfl) fun _ => .ret

end Accounts

/-! ## Companies, workers and chargers -/

section Employment

/-- A read that fills the cache, so its footprint has a key though no row is written. -/
theorem getCompany {pydantic : Pydantic V} {companyId : ℤ}
    (h : cacheKey CompanyService.cacheNs companyId ∈ F.keys) :
    Within F (CompanyService.get pydantic companyId : Async V D CompanyResponse) := by
  refine .bind .getModel fun hit => ?_
  cases hit with
  | some hit => exact .ret
  | none =>
      exact .bind (.bind .dbGet fun _ => .orRaise) fun _ => .bind .ofExcept fun _ =>
        .bind (.setModel h) fun _ => .ret

/-- A company that is new has no entry in the cache; nothing is dropped. -/
theorem createCompany {req : CompanyCreateRequest} {actor : Option PrincipalDetails}
    (h : adds .company anyRow ⊆ F.statements) :
    Within F (CompanyService.create req actor : Async V D CompanyResponse) :=
  .bind .select fun _ => .bind .raiseIf fun _ =>
    .bind (.add h (fun _ => trivial) fun _ => rfl) fun _ => .bind .flush fun _ => .ofExcept

/-- The row, then the DEL of its cache entry. -/
theorem updateCompany {companyId : ℤ} {req : CompanyUpdateRequest}
    {actor : Option PrincipalDetails} (hkey : cacheKey CompanyService.cacheNs companyId ∈ F.keys)
    (h : edits .company companyColumns ⊆ F.statements) :
    Within F (CompanyService.update companyId req actor : Async V D CompanyResponse) :=
  .bind (.bind .dbGet fun _ => .orRaise) fun _ =>
    .bind (.modify h (fun _ _ => rfl) fun _ => rfl) fun _ =>
      .bind (.evict hkey) fun _ => .ofExcept

theorem deactivateCompany {companyId : ℤ} {actor : Option PrincipalDetails}
    (hkey : cacheKey CompanyService.cacheNs companyId ∈ F.keys)
    (h : edits .company companyColumns ⊆ F.statements) :
    Within F (CompanyService.deactivate companyId actor : Async V D Unit) :=
  .bind (.bind .dbGet fun _ => .orRaise) fun _ =>
    .bind (.modify h (fun _ _ => rfl) fun _ => rfl) fun _ => .evict hkey

theorem getWorker {workerId : ℤ} :
    Within F (WorkerService.get workerId : Async V D WorkerResponse) :=
  .bind (.bind .dbGet fun _ => .orRaise) fun _ => .bind .dbGet fun _ =>
    .bind .assertSome fun _ => .ret

theorem listMemberships {workerId : ℤ} :
    Within F (WorkerService.listMemberships workerId : Async V D (List CompanyWorkerResponse)) :=
  .bind (.bind .dbGet fun _ => .orRaise) fun _ => .bind .select fun _ => .ret

/-- An account with the role of a worker, and the worker's row. -/
theorem createWorker {bcrypt : Bcrypt} {req : WorkerCreateRequest}
    (huser : adds .user (newAccount .worker) ⊆ F.statements)
    (hworker : adds .challengedWorker anyRow ⊆ F.statements) :
    Within F (WorkerService.create bcrypt req : Async V D WorkerResponse) :=
  .bind .select fun _ => .bind .raiseIf fun _ => .bind hashPassword fun _ =>
    .bind (.add huser (fun _ => ⟨rfl, rfl⟩) fun _ => rfl) fun _ => .bind .flush fun _ =>
      .bind (.add hworker (fun _ => trivial) fun _ => rfl) fun _ => .bind .flush fun _ => .ret

theorem hire {companyId workerId : ℤ} (h : adds .companyWorker anyRow ⊆ F.statements) :
    Within F (WorkerService.hire companyId workerId : Async V D CompanyWorkerResponse) :=
  .bind .select fun _ => .bind .raiseIf fun _ => .bind .dbGet fun _ => .bind .orRaise fun _ =>
    .bind (.bind .dbGet fun _ => .orRaise) fun _ => .bind .dbGet fun _ =>
      .bind .assertSome fun _ => .bind (.add h (fun _ => trivial) fun _ => rfl) fun _ =>
        .bind .flush fun _ => .ret

/-- Only `hired`. Assignments and shifts of the dismissed worker stay as they are. -/
theorem fire {companyWorkerId : ℤ} (h : edits .companyWorker hiredColumns ⊆ F.statements) :
    Within F (WorkerService.fire companyWorkerId : Async V D Unit) :=
  .bind .dbGet fun _ => .bind .orRaise fun _ => .modify h (fun _ _ => rfl) fun _ => rfl

theorem retire {workerId : ℤ} (h : edits .challengedWorker retirementColumns ⊆ F.statements) :
    Within F (WorkerService.retire workerId : Async V D WorkerResponse) := by
  refine .bind (.bind .dbGet fun _ => .orRaise) fun worker => .bind .dbGet fun _ =>
    .bind .assertSome fun _ => .bind ?_ fun _ => .bind .flush fun _ => .ret
  unfold WorkerService.markRetired
  split
  · exact .ret
  · exact .bind .utcNow fun t =>
      .bind (.modify h (fun _ _ => rfl) fun _ => rfl) fun _ => .ret

theorem rehire {workerId : ℤ} (h : edits .challengedWorker retirementColumns ⊆ F.statements) :
    Within F (WorkerService.rehire workerId : Async V D WorkerResponse) :=
  .bind (.bind .dbGet fun _ => .orRaise) fun _ => .bind .dbGet fun _ =>
    .bind .assertSome fun _ => .bind (.modify h (fun _ _ => rfl) fun _ => rfl) fun _ =>
      .bind .flush fun _ => .ret

theorem setHired {chargerId : ℤ} {hired : Bool}
    (h : edits .companyCharger chargerColumns ⊆ F.statements) :
    Within F (ChargerService.setHired chargerId hired : Async V D ChargerResponse) :=
  .bind .dbGet fun _ => .bind .orRaise fun _ =>
    .bind (.modify h (fun _ _ => rfl) fun _ => rfl) fun _ => .bind .dbGet fun _ =>
      .bind .dbGet fun _ => .bind .assertSome fun _ => .bind .assertSome fun _ => .ret

end Employment

/-! ## Caregivers and their documents -/

section Caregivers

theorem getByUserId {userId : ℤ} :
    Within F (CaregiverService.getByUserId userId : Async V D Caregiver) :=
  .bind .select fun _ => .bind .scalarOneOrNone fun _ => .orRaise

theorem caregiverMe {userId : ℤ} :
    Within F (CaregiverService.me userId : Async V D CaregiverResponse) :=
  .bind getByUserId fun _ => .ret

theorem listRelations {userId : ℤ} :
    Within F (CaregiverService.listRelations userId :
      Async V D (List CaregiverRelationResponse)) :=
  .bind getByUserId fun _ => .bind .select fun _ => .ret

/-- The relation that is added is one of the caller's caregiver; the footprint keeps
only that a relation is added, and `Access.Ownership` says whose. -/
theorem registerWorker {userId workerId : ℤ}
    (h : adds .caregiverWorkerRelation anyRow ⊆ F.statements) :
    Within F (CaregiverService.registerWorker userId workerId :
      Async V D CaregiverRelationResponse) :=
  .bind getByUserId fun _ => .bind .select fun _ => .bind .raiseIf fun _ => .bind .dbGet fun _ =>
    .bind .orRaise fun _ => .bind (.add h (fun _ => trivial) fun _ => rfl) fun _ =>
      .bind .flush fun _ => .ret

theorem removeRelation {userId relationId : ℤ}
    (h : removes .caregiverWorkerRelation ⊆ F.statements) :
    Within F (CaregiverService.removeRelation userId relationId : Async V D Unit) :=
  .bind getByUserId fun _ => .bind .dbGet fun _ => .bind .orRaise fun _ =>
    .bind .raiseIf fun _ => .delete h

theorem ensureActorOwnsRelation {userId : ℤ} {relation : CaregiverWorkerRelation} :
    Within F (CaregiverDocumentService.ensureActorOwnsRelation userId relation :
      Async V D Unit) :=
  .bind .dbGet fun _ => .bind .orRaise fun _ =>
    .ite .ret (.bind .dbGet fun _ => .raiseIf)

theorem relationOr404 {relationId : ℤ} :
    Within F (CaregiverDocumentService.relationOr404 relationId :
      Async V D CaregiverWorkerRelation) := .getOrRaise

theorem ownDocument {userId documentId : ℤ} :
    Within F (CaregiverDocumentService.ownDocument userId documentId :
      Async V D CaregiverDocument) :=
  .bind .dbGet fun _ => .bind .orRaise fun _ => .bind relationOr404 fun _ =>
    .bind ensureActorOwnsRelation fun _ => .ret

theorem log {userId documentId : ℤ} {action : CaregiverDocumentActionType}
    (h : adds .caregiverDocumentLog anyRow ⊆ F.statements) :
    Within F (CaregiverDocumentService.log userId documentId action : Async V D Unit) :=
  .bind (.add h (fun _ => trivial) fun _ => rfl) fun _ => .ret

/-- The file is stored before the row is added, and the row of the log comes last. -/
theorem uploadDocument {files : StorageService D} {lower : String → String} {maxFileBytes : ℤ}
    {me : PrincipalDetails} {relationId typeId : ℤ} {file : UploadFile} (hfiles : F.files)
    (hdoc : adds .caregiverDocument anyRow ⊆ F.statements)
    (hlog : adds .caregiverDocumentLog anyRow ⊆ F.statements) :
    Within F (DocumentApi.upload files lower maxFileBytes me relationId typeId file :
      Async V D DocumentResponse) := by
  refine .bind .ofExcept fun _ => .bind relationOr404 fun _ =>
    .bind ensureActorOwnsRelation fun _ => .bind .dbGet fun _ => .bind .orRaise fun _ =>
      .bind ?_ fun _ => .bind (.add hdoc (fun _ => trivial) fun _ => rfl) fun _ =>
        .bind .flush fun _ =>
        .bind (log hlog) fun _ => .ret
  exact .handle (.storage (.inl hfiles)) fun _ => .raise

theorem documentsOfRelation {me : PrincipalDetails} {relationId : ℤ} :
    Within F (DocumentApi.listByRelation me relationId : Async V D (List DocumentResponse)) :=
  .bind relationOr404 fun _ => .bind ensureActorOwnsRelation fun _ => .bind .select fun _ => .ret

/-- A download writes the log and nothing else. -/
theorem downloadDocument {files : ReadableStorage D} {me : PrincipalDetails} {documentId : ℤ}
    (hlog : adds .caregiverDocumentLog anyRow ⊆ F.statements) :
    Within F (DocumentApi.download files me documentId : Async V D StreamingResponse) :=
  .bind (.bind ownDocument fun _ => .bind (log hlog) fun _ => .ret) fun _ =>
    .bind (.storage (.inr fun _ => rfl)) fun _ => .ret

/-- The row of the log is added before the file and the document go. -/
theorem deleteDocument {files : StorageService D} {me : PrincipalDetails} {documentId : ℤ}
    (hfiles : F.files) (hdoc : removes .caregiverDocument ⊆ F.statements)
    (hlog : adds .caregiverDocumentLog anyRow ⊆ F.statements) :
    Within F (DocumentApi.delete files me documentId : Async V D Unit) :=
  .bind ownDocument fun _ => .bind (log hlog) fun _ => .bind (.storage (.inl hfiles)) fun _ =>
    .delete hdoc

end Caregivers

/-! ## The board -/

section Board

theorem getBoardOrThrow {boardId : ℤ} :
    Within F (CaregiverBoardService.getOrThrow boardId : Async V D CaregiverBoard) := .getOrRaise

theorem authorName {authorId : ℤ} :
    Within F (CaregiverBoardService.authorName authorId : Async V D (Option String)) :=
  .bind .dbGet fun _ => .ret

theorem getBoard {boardId : ℤ} :
    Within F (CaregiverBoardService.get boardId : Async V D BoardResponse) :=
  .bind getBoardOrThrow fun _ => .bind authorName fun _ => .ret

/-- The one INSERT whose footprint speaks of a value: the author of the new post is the
principal. -/
theorem createBoard {authorUserId : ℤ} {req : BoardWriteRequest}
    (h : adds .caregiverBoard (fun b => b.authorId = authorUserId) ⊆ F.statements) :
    Within F (CaregiverBoardService.create authorUserId req : Async V D BoardResponse) :=
  .bind (.add h (fun _ => rfl) fun _ => rfl) fun _ => .bind .flush fun _ =>
    .bind authorName fun _ => .ret

theorem updateBoard {authorUserId boardId : ℤ} {req : BoardWriteRequest}
    (h : edits .caregiverBoard boardColumns ⊆ F.statements) :
    Within F (CaregiverBoardService.update authorUserId boardId req : Async V D BoardResponse) :=
  .bind getBoardOrThrow fun _ => .bind .raiseIf fun _ =>
    .bind (.modify h (fun _ _ => rfl) fun _ => rfl) fun _ =>
    .bind authorName fun _ => .ret

theorem deleteBoard {authorUserId boardId : ℤ}
    (h : removes .caregiverBoard ⊆ F.statements) :
    Within F (CaregiverBoardService.delete authorUserId boardId : Async V D Unit) :=
  .bind getBoardOrThrow fun _ => .bind .raiseIf fun _ => .delete h

end Board

/-! ## Standards and assignments -/

section Standards

theorem loadStandard {standardId : ℤ} :
    Within F (JobStandardService.loadStandard standardId :
      Async V D (JobStandard × List JobProcess)) :=
  .bind .getOrRaise fun _ => .bind .select fun _ => .ret

theorem companyName {companyId : ℤ} :
    Within F (JobStandardService.companyName companyId : Async V D (Option String)) :=
  .bind .dbGet fun _ => .ret

theorem getStandard {pydantic : Pydantic V} {standardId : ℤ} (h : standardKeys ⊆ F.keys) :
    Within F (JobStandardService.get pydantic standardId : Async V D JobStandardResponse) := by
  refine .bind .getModel fun hit => ?_
  cases hit with
  | some hit => exact .ret
  | none =>
      exact .bind (.bind loadStandard fun _ => .bind companyName fun _ => .ofExcept) fun _ =>
        .bind (.setModel (h ⟨_, rfl⟩)) fun _ => .ret

theorem addProcesses {standardId : ℤ} {entries : List ProcessUpsertRequest}
    (h : adds .jobProcess anyRow ⊆ F.statements) :
    Within F (JobStandardService.addProcesses standardId entries :
      Async V D (List JobProcess)) := by
  induction entries with
  | nil => exact .ret
  | cons p rest ih =>
      exact .bind (.add h (fun _ => trivial) fun _ => rfl) fun _ => .bind ih fun _ => .ret

theorem createStandard {req : JobStandardCreateRequest} (hkeys : standardKeys ⊆ F.keys)
    (hstandard : adds .jobStandard anyRow ⊆ F.statements)
    (hprocess : adds .jobProcess anyRow ⊆ F.statements) :
    Within F (JobStandardService.create req : Async V D JobStandardResponse) :=
  .bind .dbGet fun _ => .bind .orRaise fun _ =>
    .bind (.add hstandard (fun _ => trivial) fun _ => rfl) fun _ =>
    .bind (addProcesses hprocess) fun _ => .bind .flush fun _ =>
      .bind (.evict (hkeys ⟨_, rfl⟩)) fun _ => .bind companyName fun _ => .ofExcept

/-- The fields of the standard; its processes are another table and another service. -/
theorem updateStandard {standardId : ℤ} {req : JobStandardUpdateRequest}
    (hkeys : standardKeys ⊆ F.keys) (h : edits .jobStandard standardColumns ⊆ F.statements) :
    Within F (JobStandardService.update standardId req : Async V D JobStandardResponse) :=
  .bind .getOrRaise fun _ => .bind (.modify h (fun _ _ => ⟨rfl, rfl⟩) fun _ => rfl) fun _ =>
    .bind (.evict (hkeys ⟨_, rfl⟩)) fun _ => .bind companyName fun _ => .raise

theorem deactivateStandard {standardId : ℤ} (hkeys : standardKeys ⊆ F.keys)
    (h : edits .jobStandard standardColumns ⊆ F.statements) :
    Within F (JobStandardService.deactivate standardId : Async V D Unit) :=
  .bind .getOrRaise fun _ => .bind (.modify h (fun _ _ => ⟨rfl, rfl⟩) fun _ => rfl) fun _ =>
    .evict (hkeys ⟨_, rfl⟩)

theorem dropAll {rows : List JobProcess} (h : removes .jobProcess ⊆ F.statements) :
    Within F (JobStandardService.dropAll rows : Async V D Unit) := by
  induction rows with
  | nil => exact .ret
  | cons row rest ih => exact .bind (.delete h) fun _ => ih

theorem saveAll {pairs : List (JobProcess × JobProcess)}
    (h : edits .jobProcess processColumns ⊆ F.statements) :
    Within F (JobStandardService.saveAll pairs : Async V D Unit) := by
  induction pairs with
  | nil => exact .ret
  | cons pair rest ih => exact .bind (.modify h (fun _ _ => ⟨rfl, rfl⟩) fun _ => rfl) fun _ => ih

/-- All three kinds of write, and on processes only: the standard itself is not touched,
and its cache entry is left alone. -/
theorem syncProcesses {standardId : ℤ} {incoming : List ProcessUpsertRequest}
    (hdrop : removes .jobProcess ⊆ F.statements)
    (hsave : edits .jobProcess processColumns ⊆ F.statements)
    (hadd : adds .jobProcess anyRow ⊆ F.statements) :
    Within F (JobStandardService.syncProcesses standardId incoming :
      Async V D JobStandardResponse) :=
  .bind loadStandard fun _ => .bind .ofExcept fun _ => .bind (dropAll hdrop) fun _ =>
    .bind (saveAll hsave) fun _ => .bind (addProcesses hadd) fun _ => .bind .flush fun _ =>
      .bind companyName fun _ => .ofExcept

/-- An INSERT for a pair that was never assigned, an UPDATE of `use_flag` for one that
was. -/
theorem assign {companyWorkerId jobStandardId : ℤ}
    (hadd : adds .jobWorker anyRow ⊆ F.statements)
    (hedit : edits .jobWorker assignmentColumns ⊆ F.statements) :
    Within F (JobWorkerService.assign companyWorkerId jobStandardId :
      Async V D JobWorkerResponse) := by
  refine .bind .dbGet fun _ => .bind .orRaise fun _ => .bind .dbGet fun _ =>
    .bind .orRaise fun standard => .bind .select fun _ => .bind .scalarOneOrNone fun found => ?_
  cases found with
  | some existing =>
      exact .bind .raiseIf fun _ => .bind (.modify hedit (fun _ _ => rfl) fun _ => rfl) fun _ => .ret
  | none =>
      exact .bind (.add hadd (fun _ => trivial) fun _ => rfl) fun _ => .bind .flush fun _ => .ret

/-- The row stays; `use_flag` is cleared. -/
theorem unassign {jobWorkerId : ℤ} (h : edits .jobWorker assignmentColumns ⊆ F.statements) :
    Within F (JobWorkerService.unassign jobWorkerId : Async V D Unit) :=
  .bind .dbGet fun _ => .bind .orRaise fun _ => .modify h (fun _ _ => rfl) fun _ => rfl

theorem listAssignmentsBy {jobStandardId companyWorkerId : Option ℤ} :
    Within F (MemberRequest.listAssignmentsBy jobStandardId companyWorkerId :
      Async V D (List JobWorkerResponse)) := by
  cases jobStandardId with
  | some id => exact .bind .select fun _ => .ret
  | none =>
      cases companyWorkerId with
      | some id => exact .bind .select fun _ => .ret
      | none => exact .ret

end Standards

/-! ## Shifts and records -/

section Shifts

theorem atOrNow {t : Option DateTime} : Within F (atOrNow env t : Async V D DateTime) := by
  cases t with
  | none => exact .datetimeNow
  | some t => exact .ret

theorem toScheduleResponse {s : WorkSchedule} :
    Within F (WorkScheduleService.toResponse s : Async V D ScheduleResponse) :=
  .bind .dbGet fun _ => .ret

theorem getSchedule {scheduleId : ℤ} :
    Within F (WorkScheduleService.get scheduleId : Async V D ScheduleResponse) :=
  .bind .getOrRaise fun _ => toScheduleResponse

theorem schedulesOfJobWorker {jobWorkerId : ℤ} {from_ to_ : Date} :
    Within F (WorkScheduleService.listForJobWorker jobWorkerId from_ to_ :
      Async V D (List ScheduleResponse)) :=
  .bind .raiseIf fun _ => .bind .select fun _ => .ret

theorem schedulesOfStandard {jobStandardId : ℤ} {from_ to_ : Date} {page : PageParams} :
    Within F (WorkScheduleService.listForStandard jobStandardId from_ to_ page :
      Async V D (Page ScheduleResponse)) :=
  .bind .raiseIf fun _ => .listPage

theorem createSchedule {req : CreateScheduleRequest}
    (h : adds .workSchedule anyRow ⊆ F.statements) :
    Within F (WorkScheduleService.create req : Async V D ScheduleResponse) :=
  .bind .dbGet fun _ => .bind .orRaise fun _ =>
    .bind (.add h (fun _ => trivial) fun _ => rfl) fun _ =>
    .bind .flush fun _ => toScheduleResponse

/-- INSERTs only, one for each id of an assignment of the standard. By induction on the
list. -/
theorem makeAll {req : BatchMakeRequest} {ids : List ℤ}
    (h : adds .workSchedule anyRow ⊆ F.statements) :
    Within F (WorkScheduleService.makeAll req ids : Async V D (List WorkSchedule)) := by
  induction ids with
  | nil => exact .ret
  | cons id rest ih =>
      exact .bind .dbGet fun _ =>
        .ite (.bind (.add h (fun _ => trivial) fun _ => rfl) fun _ => .bind ih fun _ => .ret) ih

theorem toScheduleResponses {rows : List WorkSchedule} :
    Within F (WorkScheduleService.toResponses rows : Async V D (List ScheduleResponse)) := by
  induction rows with
  | nil => exact .ret
  | cons s rest ih => exact .bind toScheduleResponse fun _ => .bind ih fun _ => .ret

theorem batchMake {req : BatchMakeRequest} (h : adds .workSchedule anyRow ⊆ F.statements) :
    Within F (WorkScheduleService.batchMake req : Async V D (List ScheduleResponse)) :=
  .bind .dbGet fun _ => .bind .orRaise fun _ => .bind (makeAll h) fun _ =>
    .bind .flush fun _ => toScheduleResponses

/-- The end of one shift, and nothing else of it. -/
theorem closeSchedule {scheduleId : ℤ} {endAt : Option DateTime}
    (h : edits .workSchedule closingColumns ⊆ F.statements) :
    Within F (WorkScheduleService.close env scheduleId endAt : Async V D ScheduleResponse) :=
  .bind .getOrRaise fun _ => .bind atOrNow fun _ =>
    .bind (.modify h (fun _ _ => rfl) fun _ => rfl) fun _ =>
    toScheduleResponse

theorem findOpenRecord {scheduleId : ℤ} {type : WorkRecordType} :
    Within F (WorkRecordService.findOpenRecord scheduleId type :
      Async V D (Option WorkRecord)) := .bind .select fun _ => .scalarOneOrNone

theorem beginRecord {req : RecordStartRequest} (h : adds .workRecord anyRow ⊆ F.statements) :
    Within F (WorkRecordService.begin env req : Async V D RecordResponse) := by
  refine .bind .getOrRaise fun _ => .bind findOpenRecord fun found => .bind ?_ fun _ =>
    .bind atOrNow fun _ => .bind (.add h (fun _ => trivial) fun _ => rfl) fun _ =>
      .bind .flush fun _ => .ret
  cases found with
  | none => exact .ret
  | some r => exact .raise

/-- Ending an `OFF` record closes the shift as well, hence the second hypothesis. -/
theorem endRecord {req : RecordEndRequest} (hrecord : edits .workRecord recordColumns ⊆ F.statements)
    (hclose : edits .workSchedule closingColumns ⊆ F.statements) :
    Within F (WorkRecordService.end env req : Async V D RecordResponse) := by
  refine .bind findOpenRecord fun _ => .bind .orRaise fun _ => .bind atOrNow fun endAt =>
    .bind (.modify hrecord (fun _ _ => rfl) fun _ => rfl) fun _ =>
      .bind (.ite (.bind .dbGet fun found => ?_) .ret) fun _ => .ret
  cases found with
  | none => exact .ret
  | some schedule => exact .modify hclose (fun _ _ => rfl) fun _ => rfl

theorem listRecords {scheduleId : ℤ} :
    Within F (WorkRecordService.list scheduleId : Async V D (List RecordResponse)) :=
  .bind .select fun _ => .ret

theorem beginProcess {req : ProcessStartRequest}
    (h : adds .workProcessRecord anyRow ⊆ F.statements) :
    Within F (WorkRecordService.beginProcess env req : Async V D ProcessRecordResponse) :=
  .bind .getOrRaise fun _ => .bind .dbGet fun _ => .bind .orRaise fun _ =>
    .bind atOrNow fun _ => .bind (.add h (fun _ => trivial) fun _ => rfl) fun _ =>
      .bind .flush fun _ => .ret

theorem endProcess {req : ProcessEndRequest}
    (h : edits .workProcessRecord processRecordColumns ⊆ F.statements) :
    Within F (WorkRecordService.endProcess env req : Async V D ProcessRecordResponse) :=
  .bind .select fun _ => .bind .scalarOneOrNone fun _ => .bind .orRaise fun _ =>
    .bind atOrNow fun _ => .bind (.modify h (fun _ _ => ⟨rfl, rfl, rfl⟩) fun _ => rfl) fun _ =>
      .bind .dbGet fun _ => .ret

theorem listProcessRecords {scheduleId : ℤ} :
    Within F (WorkRecordService.listProcess scheduleId :
      Async V D (List ProcessRecordResponse)) := .bind .select fun _ => .ret

end Shifts

/-! ## The data of companies -/

section Confined

variable {scope : CompanyScopeValue}

theorem getLeaveResponse {leaveId : ℤ} :
    Within F (LeaveService.getResponse leaveId : Async V D LeaveResponse) :=
  .bind .select fun _ => .bind .one fun _ => .ret

theorem createLeave {req : LeaveCreateRequest} {me : PrincipalDetails}
    (h : adds .leave anyRow ⊆ F.statements) :
    Within F (LeaveApi.createLeave req me scope : Async V D LeaveResponse) :=
  .bind .assertCompany fun _ => .bind .raiseIf fun _ => .bind .dbGet fun _ =>
    .bind .orRaise fun _ => .bind .dbGet fun _ => .bind .orRaise fun _ =>
      .bind (.add h (fun _ => trivial) fun _ => rfl) fun _ => .bind .flush fun _ => getLeaveResponse

/-- A decision writes status and reason. Dates, worker and company of a leave never
change. -/
theorem decideLeave {leaveId : ℤ} {req : LeaveDecisionRequest}
    (h : edits .leave decisionColumns ⊆ F.statements) :
    Within F (LeaveApi.decideLeave leaveId req scope : Async V D LeaveResponse) :=
  .bind .dbGet fun _ => .bind .orRaise fun _ => .bind .assertCompany fun _ =>
    .bind (.modify h (fun _ _ => rfl) fun _ => rfl) fun _ => getLeaveResponse

theorem deleteLeave {leaveId : ℤ} (h : removes .leave ⊆ F.statements) :
    Within F (LeaveApi.deleteLeave leaveId scope : Async V D Unit) := by
  refine .bind .dbGet fun found => ?_
  cases found with
  | none => exact .ret
  | some leave => exact .bind .assertCompany fun _ => .delete h

theorem bindKiosk {req : KioskBindRequest} (h : adds .companyKiosk anyRow ⊆ F.statements) :
    Within F (KioskApi.bind req scope : Async V D KioskResponse) :=
  .bind .assertCompany fun _ => .bind .dbGet fun _ => .bind .orRaise fun _ =>
    .bind .select fun _ => .bind .raiseIf fun _ =>
      .bind (.add h (fun _ => trivial) fun _ => rfl) fun _ =>
      .bind .flush fun _ => .ret

/-- The assignee of a kiosk, and no other column of it. -/
theorem setAssignee {kioskId : ℤ} {req : KioskAssigneeRequest}
    (h : edits .companyKiosk assigneeColumns ⊆ F.statements) :
    Within F (KioskApi.setAssignee kioskId req scope : Async V D KioskResponse) :=
  .bind .dbGet fun _ => .bind .orRaise fun _ => .bind .assertCompany fun _ =>
    .bind (.modify h (fun _ _ => rfl) fun _ => rfl) fun _ => .bind .dbGet fun _ => .ret

theorem unbind {kioskId : ℤ} (h : removes .companyKiosk ⊆ F.statements) :
    Within F (KioskApi.unbind kioskId scope : Async V D Unit) := by
  refine .bind .dbGet fun found => ?_
  cases found with
  | none => exact .ret
  | some kiosk => exact .bind .assertCompany fun _ => .delete h

theorem assertOwner {schedule : WorkSchedule} :
    Within F (WorkJournalRenderService.assertOwner scope schedule : Async V D Unit) := by
  cases scope with
  | none => exact .ret
  | some c => exact .bind .select fun _ => .bind .scalarOneOrNone fun _ => .assertCompany

theorem render {r : Renderers} {scheduleId : ℤ} {fmt : JournalFormat} :
    Within F (WorkJournalRenderService.render r scheduleId fmt scope : Async V D Bytes) := by
  refine .bind .dbGet fun _ => .bind .orRaise fun schedule => .bind assertOwner fun _ =>
    .bind .dbGet fun _ => .bind .select fun _ => ?_
  cases fmt with
  | pdf => exact .ofExcept
  | xlsx => exact .ofExcept
  | hwp => exact .ret

theorem createJob {companyId : ℤ} {day : Date} {recipientEmail : String} {fmt : JournalFormat}
    {requestedBy : Option ℤ} (h : adds .bulkEmailJob anyRow ⊆ F.statements) :
    Within F (WorkJournalBulkEmailService.createJob companyId day recipientEmail fmt requestedBy :
      Async V D BulkEmailJobResponse) :=
  .bind (.add h (fun _ => trivial) fun _ => rfl) fun _ => .bind .flush fun _ =>
    .bind .dbGet fun _ => .ret

theorem bulkEmail {req : BulkEmailRequest} {me : PrincipalDetails}
    (h : adds .bulkEmailJob anyRow ⊆ F.statements) :
    Within F (WorkJournalApi.bulkEmail env req me scope :
      Async V D (BulkEmailResult × BackgroundTask)) :=
  .bind .assertCompany fun _ =>
    .ite .ret (.bind (createJob h) fun _ => .bind .commit fun _ => .ret)

theorem getJob {jobId : ℤ} :
    Within F (WorkJournalBulkEmailService.getJob jobId scope : Async V D BulkEmailJobResponse) :=
  .bind .select fun _ => .bind .orRaise fun _ => .bind .assertCompany fun _ => .ret

theorem computeNextRun {timeStr : String} :
    Within F (computeNextRun env timeStr : Async V D DateTime) :=
  .bind .datetimeNow fun _ => .bind .raiseIf fun _ => .bind .raiseIf fun _ =>
    .bind .raiseIf fun _ => .ret

theorem createEmailSchedule {req : JournalScheduleCreateRequest}
    (h : adds .journalEmailSchedule anyRow ⊆ F.statements) :
    Within F (WorkJournalApi.createEmailSchedule env req scope :
      Async V D JournalScheduleResponse) :=
  .bind .assertCompany fun _ => .bind .dbGet fun _ => .bind .orRaise fun _ =>
    .bind computeNextRun fun _ => .bind (.add h (fun _ => trivial) fun _ => rfl) fun _ =>
      .bind .flush fun _ => .ret

theorem checkTarget {s : JournalEmailSchedule} {companyId : Option ℤ} :
    Within F (JournalScheduleService.checkTarget scope s companyId : Async V D Unit) := by
  cases companyId with
  | none => exact .ret
  | some id =>
      exact .ite .ret (.bind .assertCompany fun _ => .bind .dbGet fun _ =>
        .bind .orRaise fun _ => .ret)

theorem nextRun {time : Option SendTime} :
    Within F (JournalScheduleService.nextRun env time : Async V D (Option DateTime)) := by
  cases time with
  | none => exact .ret
  | some time => exact .bind computeNextRun fun _ => .ret

/-- The schedule is written twice, as it is switched on or off and as its fields are
assigned; both writes are within the columns of an update. -/
theorem updateEmailSchedule {scheduleId : ℤ} {req : JournalScheduleUpdateRequest}
    (h : edits .journalEmailSchedule journalColumns ⊆ F.statements) :
    Within F (WorkJournalApi.updateEmailSchedule env scheduleId req scope :
      Async V D JournalScheduleResponse) :=
  .bind .dbGet fun _ => .bind .orRaise fun _ => .bind .assertCompany fun _ =>
    .bind (.modify h (fun _ _ => ⟨rfl, rfl, rfl⟩) fun _ => rfl) fun _ => .bind checkTarget fun _ =>
      .bind nextRun fun nextRunAt =>
        .bind (.modify h (fun _ r => journalColumns_assign req r nextRunAt)
          fun r => (journalColumns_assign req r nextRunAt).1) fun _ => .bind .dbGet fun _ => .ret

theorem deleteEmailSchedule {scheduleId : ℤ}
    (h : removes .journalEmailSchedule ⊆ F.statements) :
    Within F (WorkJournalApi.deleteEmailSchedule scheduleId scope : Async V D Unit) := by
  refine .bind .dbGet fun found => ?_
  cases found with
  | none => exact .ret
  | some s => exact .bind .assertCompany fun _ => .delete h

end Confined

/-! ## What is left to do after a response -/

section Background

open WorkJournalBulkEmailService

variable {r : Renderers}

theorem renderAll {fmt : JournalFormat} {schedules : List WorkSchedule} :
    Within F (renderAll r fmt schedules : Async V D (List (String × Bytes))) := by
  induction schedules with
  | nil => exact .ret
  | cons ws rest ih => exact .bind render fun _ => .bind ih fun _ => .ret

/-- The mail leaves the process inside this call, whether or not the transaction
commits. -/
theorem send {companyId : ℤ} {day : Date} {recipientEmail : String} {fmt : JournalFormat}
    (hmails : F.mails) :
    Within F (send r companyId day recipientEmail fmt : Async V D SendResult) :=
  .bind .select fun _ => .ite .ret
    (.bind renderAll fun _ => .bind (.sendEmail hmails) fun _ => .ret)

/-- A job that is found is marked; nothing is written for one that is missing. -/
theorem markSending {jobId : ℤ} (h : edits .bulkEmailJob progressColumns ⊆ F.statements) :
    Within F (markSending jobId : Async V D (Option BulkEmailJob)) := by
  refine .bind .dbGet fun found => ?_
  cases found with
  | none => exact .ret
  | some job =>
      exact .bind .utcNow fun _ => .bind (.modify h (fun _ _ => rfl) fun _ => rfl) fun _ =>
        .bind .flush fun _ => .ret

/-- Rendering and sending, then the outcome in the row. -/
theorem completeJob {jobId : ℤ} (hmails : F.mails)
    (h : edits .bulkEmailJob progressColumns ⊆ F.statements) :
    Within F (completeJob r jobId : Async V D Unit) := by
  refine .bind .dbGet fun found => ?_
  cases found with
  | none => exact .ret
  | some job =>
      refine .bind (.handle (.bind (send hmails) fun _ => .ret) fun _ => .ret) fun outcome =>
        .bind .utcNow fun t => .bind (.modify h (fun _ row => ?_) fun row => ?_) fun _ => .flush
      all_goals cases outcome <;> exact rfl

/-- Both transactions of the runner, and the rollback that ends a failed one. -/
theorem runBulkEmailJob {jobId : ℤ} (hmails : F.mails)
    (h : edits .bulkEmailJob progressColumns ⊆ F.statements) :
    Within F (runBulkEmailJob r jobId : Async V D Unit) :=
  .handle (.bind (markSending h) fun _ => .ite .rollback
    (.bind .commit fun _ => .bind (completeJob hmails h) fun _ => .commit)) fun _ => .rollback

theorem runBulkEmailInert {companyId : ℤ} {day : Date} {recipientEmail : String}
    {fmt : JournalFormat} (hmails : F.mails) :
    Within F (runBulkEmailInert r companyId day recipientEmail fmt : Async V D Unit) :=
  .handle (.bind (send hmails) fun _ => .rollback) fun _ => .bind .rollback fun _ => .raise

end Background

end Within

end Rooti
