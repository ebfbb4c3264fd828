import Rooti.Access.Requests

/-!
# What becomes of the rows

The life cycles of all tables under the API, given the principals that take part
(`apiCycle`).  Without an administrator no company changes and no account is switched on or off;
without an administrator or a charger no standard, assignment, leave, kiosk or journal schedule
changes; without any principal only people who log in and sign up leave a trace.  And whoever
takes part: accounts keep their names and roles and are never deleted, and no new account is that
of an administrator or a charger.

Every request is within the life cycles of its sender, so the rows live by them in every order in
which the commands of any requests take turns (`api_lives`).

## Main definitions

* `Has`, `Staff` — the roles that take part
* `apiCycle` — the life cycles
* `actors`, `principals` — who passes the guards of requests
* `ApiMay`, `api_lives` — what may have become of the state

## What carries the proof

A life cycle says of each table which rows may be added, what may become of a row, and
whether it may be deleted. That the requests live by it is a comparison of two tables,
the footprints of the endpoints and `apiCycle`, made request by request in three lemmas
(`PublicRequest.permits`, `MemberRequest.permits`, `ScopedRequest.permits`). The
principals come in through the guards: a request of an administrator can only be in the
set of requests that are answered if an administrator takes part. Everything about
interleavings is `keeps_play`.
-/

namespace Rooti

open Relational Program

variable {V D : Type}

/-! ## The life cycles -/

section Cycle

variable (P : Set PrincipalDetails)

/-- Somebody of a role takes part. -/
def Has (role : UserRole) : Prop := ∃ me ∈ P, role.value ∈ me.roles

/-- An administrator or a charger takes part. -/
def Staff : Prop := Has P .admin ∨ Has P .charger

/-- **The rows that are added.** -/
def apiBorn : ∀ t, Row t → Prop
  | .user, u => u.role = .caregiver ∨ u.role = .worker ∧ Staff P
  | .caregiver, _ => True
  | .company, _ => Has P .admin
  | .challengedWorker, _ | .companyWorker, _ | .jobStandard, _ | .jobProcess, _ | .jobWorker, _
  | .workSchedule, _ | .companyKiosk, _ | .leave, _ | .journalEmailSchedule, _
  | .bulkEmailJob, _ => Staff P
  | .caregiverWorkerRelation, _ => Has P .caregiver
  | .caregiverBoard, b => ∃ me ∈ P, b.authorId = me.userId
  | .workRecord, _ | .workProcessRecord, _ | .caregiverDocument, _
  | .caregiverDocumentLog, _ => P.Nonempty
  | .companyCharger, _ | .caregiverDocumentType, _ => False

/-- **What of a row may change**, whoever takes part. -/
def apiColumns : ∀ t, Row t → Row t → Prop
  | .user, u, u' => u'.id = u.id ∧ u'.username = u.username ∧ u'.role = u.role
  | .company, r, r' => companyColumns r r'
  | .companyCharger, r, r' => chargerColumns r r'
  | .challengedWorker, r, r' => r'.id = r.id ∧ r'.userId = r.userId
  | .companyWorker, r, r' => hiredColumns r r'
  | .jobStandard, r, r' => standardColumns r r'
  | .jobProcess, r, r' => processColumns r r'
  | .jobWorker, r, r' => assignmentColumns r r'
  | .workSchedule, r, r' => closingColumns r r'
  | .workRecord, r, r' => recordColumns r r'
  | .workProcessRecord, r, r' => processRecordColumns r r'
  | .caregiverBoard, r, r' => boardColumns r r'
  | .companyKiosk, r, r' => assigneeColumns r r'
  | .leave, r, r' => decisionColumns r r'
  | .journalEmailSchedule, r, r' => journalColumns r r'
  | .bulkEmailJob, r, r' => progressColumns r r'
  | .caregiver, r, r' | .caregiverWorkerRelation, r, r' | .caregiverDocumentType, r, r'
  | .caregiverDocument, r, r' | .caregiverDocumentLog, r, r' => r' = r

/-- **What changes nobody else makes**: a login leaves its time and a push token, and the rest
takes a principal, a charger or an administrator. -/
def apiChanges : ∀ t, Row t → Row t → Prop
  | .user, u, u' => (Has P .admin ∨ u'.enabled = u.enabled) ∧ (P.Nonempty ∨ loginColumns u u')
  | .challengedWorker, r, r' => Staff P ∨ pushColumns r r'
  | .company, r, r' | .companyCharger, r, r' => Has P .admin ∨ r' = r
  | .workSchedule, r, r' | .workRecord, r, r' | .workProcessRecord, r, r'
  | .caregiverBoard, r, r' => P.Nonempty ∨ r' = r
  | _, r, r' => Staff P ∨ r' = r

/-- **The tables whose rows are deleted**; documents and their logs go with the relation. -/
def apiMortal : Entity → Prop
  | .caregiverWorkerRelation => Has P .caregiver
  | .caregiverDocument | .caregiverDocumentLog | .caregiverBoard => P.Nonempty
  | .jobProcess | .companyKiosk | .leave | .journalEmailSchedule => Staff P
  | _ => False

/-- Who has a role takes part. -/
theorem Has.nonempty {P : Set PrincipalDetails} {role : UserRole} (h : Has P role) :
    P.Nonempty := h.imp fun _ hme => hme.1

/-- Among all principals there is an administrator. -/
theorem staff_univ : Staff Set.univ := .inl ⟨⟨0, "", ["ADMIN"], true, true⟩, trivial, .head _⟩

/-- A row may stay as it is. -/
theorem apiColumns_refl (t : Entity) (r : Row t) : apiColumns t r r := by
  cases t
  case user => exact ⟨rfl, rfl, rfl⟩
  case challengedWorker => exact ⟨rfl, rfl⟩
  case jobStandard => exact ⟨rfl, rfl⟩
  case jobProcess => exact ⟨rfl, rfl⟩
  case workProcessRecord => exact ⟨rfl, rfl, rfl⟩
  case journalEmailSchedule => exact ⟨rfl, rfl, rfl⟩
  all_goals exact rfl

/-- Columns that never change do not change in two steps. -/
theorem apiColumns_trans {t : Entity} {r r' r'' : Row t} (h : apiColumns t r r')
    (h' : apiColumns t r' r'') : apiColumns t r r'' := by
  cases t
  case user => exact ⟨h'.1.trans h.1, h'.2.1.trans h.2.1, h'.2.2.trans h.2.2⟩
  case challengedWorker => exact ⟨h'.1.trans h.1, h'.2.trans h.2⟩
  case jobStandard => exact ⟨h'.1.trans h.1, h'.2.trans h.2⟩
  case jobProcess => exact ⟨h'.1.trans h.1, h'.2.trans h.2⟩
  case workProcessRecord => exact ⟨h'.1.trans h.1, h'.2.1.trans h.2.1, h'.2.2.trans h.2.2⟩
  case journalEmailSchedule => exact ⟨h'.1.trans h.1, h'.2.1.trans h.2.1, h'.2.2.trans h.2.2⟩
  case company => exact Eq.trans h' h
  case caregiver => exact Eq.trans h' h
  case caregiverWorkerRelation => exact Eq.trans h' h
  case caregiverDocumentType => exact Eq.trans h' h
  case caregiverDocument => exact Eq.trans h' h
  case caregiverDocumentLog => exact Eq.trans h' h
  -- the others change some columns only
  all_goals
    simp only [apiColumns, chargerColumns, hiredColumns, assignmentColumns, closingColumns,
      recordColumns, boardColumns, assigneeColumns, decisionColumns, progressColumns] at *
    rw [h', h]

/-- Nobody is needed where nothing changes. -/
theorem apiChanges_refl (t : Entity) (r : Row t) : apiChanges P t r r := by
  cases t
  case user => exact ⟨.inr rfl, .inr rfl⟩
  all_goals exact .inr rfl

/-- No change unless somebody takes part. -/
theorem unless_trans {ρ : Type} {p : Prop} {r r' r'' : ρ} (h : p ∨ r' = r) (h' : p ∨ r'' = r') :
    p ∨ r'' = r := h.elim .inl fun h => h'.imp_right fun h' => h'.trans h

/-- Whoever is needed for the whole is needed for one of the steps. -/
theorem apiChanges_trans {t : Entity} {r r' r'' : Row t} (h : apiChanges P t r r')
    (h' : apiChanges P t r' r'') : apiChanges P t r r'' := by
  cases t
  case user =>
    refine ⟨unless_trans h.1 h'.1, h.2.elim .inl fun h => h'.2.imp_right fun h' => ?_⟩
    unfold loginColumns at *
    rw [h', h]
  case challengedWorker =>
    refine h.elim .inl fun h => h'.imp_right fun h' => ?_
    unfold pushColumns at *
    rw [h', h]
  all_goals exact unless_trans h h'

/-- **The life cycles of all rows**, given the principals that take part. -/
def apiCycle : LifeCycle schema where
  born := apiBorn P
  becomes t r r' := apiColumns t r r' ∧ apiChanges P t r r'
  mortal := apiMortal P
  refl t r := ⟨apiColumns_refl t r, apiChanges_refl P t r⟩
  trans h h' := ⟨apiColumns_trans h.1 h'.1, apiChanges_trans P h.2 h'.2⟩
  cascades j r ref href hcascade hmortal := by
    change ref ∈ refs j r at href
    cases j <;> simp only [refs, List.mem_cons, List.not_mem_nil, or_false] at href
    case caregiverDocument =>
      obtain rfl | rfl := href
      · exact Has.nonempty hmortal
      · cases hcascade
    case caregiverDocumentLog =>
      obtain rfl | rfl := href
      · exact hmortal
      · cases hcascade
    -- the other references cascade from tables whose rows stay
    all_goals grind [apiMortal]

end Cycle

/-! ## The requests live by them -/

section Requests

variable {P : Set PrincipalDetails} {me : PrincipalDetails}

/-- A login leaves its time. -/
theorem becomes_login {u u' : User} (h : loginColumns u u') :
    (apiCycle P).becomes .user u u' := by
  refine ⟨⟨?_, ?_, ?_⟩, .inr ?_, .inr h⟩
  all_goals rw [h]

/-- A principal changes a password or a profile. -/
theorem becomes_member {u u' : User} (hme : me ∈ P)
    (h : passwordColumns u u' ∨ profileColumns u u') : (apiCycle P).becomes .user u u' := by
  obtain h | h := h
  all_goals
    refine ⟨⟨?_, ?_, ?_⟩, .inr ?_, .inl ⟨me, hme⟩⟩
    all_goals rw [h]

/-- Switching an account on or off takes an administrator. -/
theorem becomes_enabled {u u' : User} (hadmin : Has P .admin) (h : enabledColumns u u') :
    (apiCycle P).becomes .user u u' := by
  refine ⟨⟨?_, ?_, ?_⟩, .inl hadmin, .inl hadmin.nonempty⟩
  all_goals rw [h]

/-- A push token is registered by whoever logs in. -/
theorem becomes_push {r r' : ChallengedWorker} (h : pushColumns r r') :
    (apiCycle P).becomes .challengedWorker r r' := by
  refine ⟨⟨?_, ?_⟩, .inr h⟩
  all_goals rw [h]

/-- A retirement takes an administrator or a charger. -/
theorem becomes_retirement {r r' : ChallengedWorker} (hstaff : Staff P)
    (h : retirementColumns r r') : (apiCycle P).becomes .challengedWorker r r' := by
  refine ⟨⟨?_, ?_⟩, .inl hstaff⟩
  all_goals rw [h]

/-- The guard of the administrators. -/
theorem has_of_guard {role : UserRole} (hme : me ∈ P) (h : HasOneOf (some [role]) me) :
    Has P role := by
  obtain ⟨asked, hasked, hvalue⟩ := h _ rfl
  obtain rfl := List.mem_singleton.mp hasked
  exact ⟨me, hme, hvalue⟩

/-- The guard of administrators and chargers. -/
theorem staff_of_guard (hme : me ∈ P) (h : HasOneOf (some [.admin, .charger]) me) : Staff P := by
  obtain ⟨asked, hasked, hvalue⟩ := h _ rfl
  simp only [List.mem_cons, List.not_mem_nil, or_false] at hasked
  obtain rfl | rfl := hasked
  · exact .inl ⟨me, hme, hvalue⟩
  · exact .inr ⟨me, hme, hvalue⟩

/-- Logging in, refreshing and signing up live by the cycles, whoever takes part. -/
theorem PublicRequest.permits (request : PublicRequest V) :
    ∀ d ∈ request.footprint.statements, (apiCycle P).Permits d := by
  cases request with
  | login req =>
      exact permits_union (permits_edits fun _ _ => becomes_push)
        (permits_edits fun _ _ => becomes_login)
  | refresh refreshToken => exact permits_nothing
  | signupCaregiver req =>
      exact permits_union (permits_adds fun _ h => .inl h.1) (permits_adds fun _ _ => trivial)

/-- Requests of a principal live by the cycles of any principals it is among. -/
theorem MemberRequest.permits (request : MemberRequest) (hme : me ∈ P)
    (hroles : HasOneOf request.roles me) :
    ∀ d ∈ (request.footprint me).statements, (apiCycle P).Permits d := by
  have hany : P.Nonempty := ⟨me, hme⟩
  cases request with
  | changePassword current next =>
      exact permits_edits fun _ _ h => becomes_member hme (.inl h)
  | updateMe req => exact permits_edits fun _ _ h => becomes_member hme (.inr h)
  | createCompany req => exact permits_adds fun _ _ => has_of_guard hme hroles
  | updateCompany companyId req =>
      exact permits_edits fun _ _ h => ⟨h, .inl (has_of_guard hme hroles)⟩
  | deactivateCompany companyId =>
      exact permits_edits fun _ _ h => ⟨h, .inl (has_of_guard hme hroles)⟩
  | createWorker req =>
      have hstaff := staff_of_guard hme hroles
      exact permits_union (permits_adds fun _ h => .inr ⟨h.1, hstaff⟩)
        (permits_adds fun _ _ => hstaff)
  | hireWorker companyId workerId => exact permits_adds fun _ _ => staff_of_guard hme hroles
  | fireCompanyWorker companyWorkerId =>
      exact permits_edits fun _ _ h => ⟨h, .inl (staff_of_guard hme hroles)⟩
  | retireWorker workerId =>
      exact permits_edits fun _ _ h => becomes_retirement (staff_of_guard hme hroles) h
  | rehireWorker workerId =>
      exact permits_edits fun _ _ h => becomes_retirement (staff_of_guard hme hroles) h
  | registerWorker workerId => exact permits_adds fun _ _ => has_of_guard hme hroles
  | removeRelation relationId => exact permits_removes (has_of_guard hme hroles)
  | createStandard req =>
      have hstaff := staff_of_guard hme hroles
      exact permits_union (permits_adds fun _ _ => hstaff) (permits_adds fun _ _ => hstaff)
  | updateStandard standardId req =>
      exact permits_edits fun _ _ h => ⟨h, .inl (staff_of_guard hme hroles)⟩
  | syncProcesses standardId processes =>
      have hstaff := staff_of_guard hme hroles
      exact permits_union (permits_union (permits_removes hstaff)
        (permits_edits fun _ _ h => ⟨h, .inl hstaff⟩)) (permits_adds fun _ _ => hstaff)
  | deactivateStandard standardId =>
      exact permits_edits fun _ _ h => ⟨h, .inl (staff_of_guard hme hroles)⟩
  | assign companyWorkerId jobStandardId =>
      have hstaff := staff_of_guard hme hroles
      exact permits_union (permits_adds fun _ _ => hstaff)
        (permits_edits fun _ _ h => ⟨h, .inl hstaff⟩)
  | unassign jobWorkerId =>
      exact permits_edits fun _ _ h => ⟨h, .inl (staff_of_guard hme hroles)⟩
  | createSchedule req => exact permits_adds fun _ _ => staff_of_guard hme hroles
  | batchMake req => exact permits_adds fun _ _ => staff_of_guard hme hroles
  | closeSchedule scheduleId endAt => exact permits_edits fun _ _ h => ⟨h, .inl hany⟩
  | beginRecord req => exact permits_adds fun _ _ => hany
  | endRecord req =>
      exact permits_union (permits_edits fun _ _ h => ⟨h, .inl hany⟩)
        (permits_edits fun _ _ h => ⟨h, .inl hany⟩)
  | beginProcess req => exact permits_adds fun _ _ => hany
  | endProcess req => exact permits_edits fun _ _ h => ⟨h, .inl hany⟩
  | createBoard req => exact permits_adds fun _ h => ⟨me, hme, h⟩
  | updateBoard boardId req => exact permits_edits fun _ _ h => ⟨h, .inl hany⟩
  | deleteBoard boardId => exact permits_removes hany
  | uploadDocument relationId typeId file =>
      exact permits_union (permits_adds fun _ _ => hany) (permits_adds fun _ _ => hany)
  | downloadDocument documentId => exact permits_adds fun _ _ => hany
  | deleteDocument documentId =>
      exact permits_union (permits_removes hany) (permits_adds fun _ _ => hany)
  | setEnabled userId enabled =>
      exact permits_edits fun _ _ h => becomes_enabled (has_of_guard hme hroles) h
  | updateCharger chargerId hired =>
      exact permits_edits fun _ _ h => ⟨h, .inl (has_of_guard hme hroles)⟩
  -- the others only read, or write to Redis
  | _ => exact permits_nothing

/-- Requests of a company's staff live by the cycles if there is staff. -/
theorem ScopedRequest.permits (request : ScopedRequest) (hstaff : Staff P) :
    ∀ d ∈ request.footprint.statements, (apiCycle P).Permits d := by
  cases request with
  | createLeave req => exact permits_adds fun _ _ => hstaff
  | decideLeave leaveId req => exact permits_edits fun _ _ h => ⟨h, .inl hstaff⟩
  | deleteLeave leaveId => exact permits_removes hstaff
  | bindKiosk req => exact permits_adds fun _ _ => hstaff
  | setAssignee kioskId req => exact permits_edits fun _ _ h => ⟨h, .inl hstaff⟩
  | unbind kioskId => exact permits_removes hstaff
  | bulkEmail req =>
      exact permits_union (permits_adds fun _ _ => hstaff)
        (permits_edits fun _ _ h => ⟨h, .inl hstaff⟩)
  | createEmailSchedule req => exact permits_adds fun _ _ => hstaff
  | updateEmailSchedule scheduleId req => exact permits_edits fun _ _ h => ⟨h, .inl hstaff⟩
  | deleteEmailSchedule scheduleId => exact permits_removes hstaff
  | _ => exact permits_nothing

end Requests

/-! ## What may have become of the state -/

/-- The keys of the cached companies. -/
def companyKeys : Set String :=
  {key | ∃ companyId : ℤ, key = cacheKey CompanyService.cacheNs companyId}

/-- The keys the API writes in Redis. -/
def apiKeys : Set String := refreshKeys ∪ companyKeys ∪ standardKeys

/-- **What may have become of the state**, given the principals that take part. -/
structure ApiMay (P : Set PrincipalDetails) (w w' : World V D) : Prop where
  rows : (apiCycle P).May w.db w'.db
  redis : ∀ key ∉ apiKeys, w'.redis key = w.redis key
  disk : P.Nonempty ∨ w'.disk = w.disk
  outbox : Staff P ∨ w'.outbox = w.outbox

section Lives

/-- The principals of a request: those that pass its guard. -/
def actors (app : App V D) (sent : Credentials × ApiRequest V) : Set PrincipalDetails :=
  {me | (∀ request, sent.2 ≠ .anyone request) ∧ PassesGuard app sent.1 sent.2 me}

/-- **The principals that take part** are those of the requests. -/
def principals {ι : Type} (app : App V D) (requests : ι → Credentials × ApiRequest V) :
    Set PrincipalDetails := {me | ∃ i, me ∈ actors app (requests i)}

variable {app : App V D} {sent : Credentials × ApiRequest V} {P : Set PrincipalDetails}
  {R : Rely (World V D)}

/-- A relation is not left by a request if it is not by its footprint, given its sender. -/
theorem keeps_of_footprints (hP : actors app sent ⊆ P) (hidle : ({} : Footprint).Allows R)
    (hpublic : ∀ request : PublicRequest V, request.footprint.Allows R)
    (hmember : ∀ request : MemberRequest, ∀ me ∈ P, HasOneOf request.roles me →
      (request.footprint me).Allows R)
    (hconfined : Staff P → ∀ request : ScopedRequest, request.footprint.Allows R) :
    sent.2.Keeps app sent.1 R := by
  obtain ⟨credentials, request⟩ := sent
  intro sender hsender
  cases request with
  | anyone request =>
      cases sender with
      | none => exact hpublic request
      | some me => exact hpublic request
  | member request =>
      cases sender with
      | none => exact hidle
      | some me =>
          have hme := hsender me rfl
          exact hmember request me (hP ⟨by rintro _ ⟨⟩, hme⟩) hme.2
  | confined request =>
      cases sender with
      | none => exact hidle
      | some me =>
          have hme := hsender me rfl
          exact hconfined (staff_of_guard (hP ⟨by rintro _ ⟨⟩, hme⟩) hme.2) request

/-- What may have become of the rows, as a relation between states. -/
abbrev cycleRely (P : Set PrincipalDetails) : Rely (World V D) :=
  (apiCycle P).rely.comap World.db

/-- **Every request lives by the life cycles** of any principals its own are among. -/
theorem keeps_cycle (hP : actors app sent ⊆ P) :
    sent.2.Keeps app sent.1 (cycleRely P : Rely (World V D)) := by
  refine keeps_of_footprints hP ?_ ?_ ?_ ?_
  · exact .lifeCycle permits_nothing
  · exact fun request => .lifeCycle request.permits
  · exact fun request _ hme hroles => .lifeCycle (request.permits hme hroles)
  · exact fun hstaff request => .lifeCycle (request.permits hstaff)

/-- Logging in, refreshing and signing up write keys of tokens. -/
theorem PublicRequest.keys_subset (request : PublicRequest V) :
    request.footprint.keys ⊆ apiKeys := by
  cases request
  all_goals exact fun _ h => .inl (.inl h)

/-- Requests of principals write keys of tokens and of the two caches. -/
theorem MemberRequest.keys_subset {me : PrincipalDetails} (request : MemberRequest) :
    (request.footprint me).keys ⊆ apiKeys := by
  cases request with
  | logout | changePassword =>
      rintro _ rfl
      exact .inl (.inl ⟨_, rfl⟩)
  | getCompany | updateCompany | deactivateCompany =>
      rintro _ rfl
      exact .inl (.inr ⟨_, rfl⟩)
  | getStandard | createStandard | updateStandard | deactivateStandard => exact fun _ h => .inr h
  | _ => exact Set.empty_subset _

/-- Requests of a company's staff write no key. -/
theorem ScopedRequest.keys_empty (request : ScopedRequest) : request.footprint.keys = ∅ := by
  cases request <;> rfl

variable {ι : Type} {requests : ι → Credentials × ApiRequest V}

/-- The principals of a request take part. -/
theorem actors_subset (i : ι) : actors app (requests i) ⊆ principals app requests :=
  fun _ hme => ⟨i, hme⟩

variable [DecidableEq ι] [DecidableEq V] (w : World V D) (sched : List ι)

/-- **The rows live by the life cycles of the API**, and beyond the rows only the keys of tokens
and of cached companies and standards are written, whatever requests there are and in whatever
order their commands take turns; files are stored for principals only, and mails are sent for
administrators and chargers only. -/
theorem api_lives :
    ApiMay (principals app requests) w
      (Pool.play (server app.env) (arrivals app requests w) sched).shared where
  rows := keeps_play (fun i => keeps_cycle (actors_subset i)) w sched
  redis key hkey := by
    refine keeps_play (R := Rely.frame fun w : World V D => w.redis key)
      (fun i => keeps_of_footprints (actors_subset i) ?_ ?_ ?_ ?_) w sched
    · exact .key (Set.notMem_empty key)
    · exact fun request => .key fun h => hkey (request.keys_subset h)
    · exact fun request _ _ _ => .key fun h => hkey (request.keys_subset h)
    · exact fun _ request => .key (request.keys_empty ▸ Set.notMem_empty key)
  disk := by
    refine or_iff_not_imp_left.mpr fun hnobody => ?_
    refine keeps_play (R := Rely.frame fun w : World V D => w.disk)
      (fun i => keeps_of_footprints (actors_subset i) ?_ ?_ ?_ ?_) w sched
    · exact .storage rfl
    · exact fun request => .storage (by cases request <;> rfl)
    · exact fun _ me hme _ => absurd ⟨me, hme⟩ hnobody
    · exact fun hstaff => absurd (hstaff.elim Has.nonempty Has.nonempty) hnobody
  outbox := by
    refine or_iff_not_imp_left.mpr fun hnobody => ?_
    refine keeps_play (R := Rely.frame fun w : World V D => w.outbox)
      (fun i => keeps_of_footprints (actors_subset i) ?_ ?_ ?_ ?_) w sched
    · exact .mailing rfl
    · exact fun request => .mailing (by cases request <;> rfl)
    · exact fun request _ _ _ => .mailing (by cases request <;> rfl)
    · exact fun hstaff => absurd hstaff hnobody

end Lives

end Rooti
