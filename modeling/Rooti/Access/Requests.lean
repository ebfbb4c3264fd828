import Mathlib.Data.List.Dedup
import Rooti.Access.Effects

/-!
# The footprints of the requests

Every request of the API has a footprint, known once it is known from whom it is.  The server
looks at the principal first (`guarded`), so that a request may do what its footprint says if it
comes from a principal with the roles it asks for, and nothing otherwise.

`ApiRequest.Keeps` says of a relation between states that a request does not leave it.
`ApiRequest.among_handle` is what this means for the whole of what the server does about the
request, with its transaction and the tasks after it, while other requests are under way.
`keeps_play` is the same for any number of requests in any order of their commands.

## Main definitions

* `PublicRequest.footprint`, `MemberRequest.footprint`, `ScopedRequest.footprint`
* `ApiRequest.Keeps`, `ApiRequest.among_handle`
* `arrivals`, `keeps_play` — requests at once

## From footprints to interleavings

A relation `R` between states is one that a property cannot see: the rows of a table are
the same, a key is as it was. A request keeps `R` if the footprint of whoever may send
it allows `R`, a condition on statements that is checked request by request without
running anything. `among_handle` turns this into a statement about the commands of the
request one at a time, and `keeps_play` about all commands of all requests. An induction
over schedules is done once, in `Lib.Interference`; results on single properties only
choose `R` and look at the table of footprints.

## The guard

What a request may do depends on who sends it, and this is settled by a query that other
requests may interfere with. The proofs therefore carry no more than what the guard has
read: the principal is one that the credentials speak for, and its roles, which are in
the token, are those asked for. The scope of a charger is looked up as a separate query
and may have changed since; no footprint depends on it.
-/

namespace Rooti

open Relational Program

variable {V D : Type}

/-! ## Footprints -/

/-- The footprint of a request without a principal. -/
def PublicRequest.footprint : PublicRequest V → Footprint
  | .login _ =>
      { statements := edits .challengedWorker pushColumns ∪ edits .user loginColumns
        keys := refreshKeys }
  | .refresh _ => { keys := refreshKeys }
  | .signupCaregiver _ =>
      { statements := adds .user (newAccount .caregiver) ∪ adds .caregiver anyRow
        keys := refreshKeys }

/-- The footprint of a request of a principal. -/
def MemberRequest.footprint (me : PrincipalDetails) : MemberRequest → Footprint
  | logout => { keys := {RefreshTokenStore.key me.userId} }
  | changePassword .. =>
      { statements := edits .user passwordColumns, keys := {RefreshTokenStore.key me.userId} }
  | updateMe _ => { statements := edits .user profileColumns }
  | getCompany companyId => { keys := {cacheKey CompanyService.cacheNs companyId} }
  | createCompany _ => { statements := adds .company anyRow }
  | updateCompany companyId _ | deactivateCompany companyId =>
      { statements := edits .company companyColumns
        keys := {cacheKey CompanyService.cacheNs companyId} }
  | createWorker _ =>
      { statements := adds .user (newAccount .worker) ∪ adds .challengedWorker anyRow }
  | hireWorker .. => { statements := adds .companyWorker anyRow }
  | fireCompanyWorker _ => { statements := edits .companyWorker hiredColumns }
  | retireWorker _ | rehireWorker _ =>
      { statements := edits .challengedWorker retirementColumns }
  | registerWorker _ => { statements := adds .caregiverWorkerRelation anyRow }
  | removeRelation _ => { statements := removes .caregiverWorkerRelation }
  | getStandard _ => { keys := standardKeys }
  | createStandard _ =>
      { statements := adds .jobStandard anyRow ∪ adds .jobProcess anyRow, keys := standardKeys }
  | updateStandard .. | deactivateStandard _ =>
      { statements := edits .jobStandard standardColumns, keys := standardKeys }
  | syncProcesses .. =>
      { statements := removes .jobProcess ∪ edits .jobProcess processColumns ∪
          adds .jobProcess anyRow }
  | assign .. =>
      { statements := adds .jobWorker anyRow ∪ edits .jobWorker assignmentColumns }
  | unassign _ => { statements := edits .jobWorker assignmentColumns }
  | createSchedule _ | batchMake _ => { statements := adds .workSchedule anyRow }
  | closeSchedule .. => { statements := edits .workSchedule closingColumns }
  | beginRecord _ => { statements := adds .workRecord anyRow }
  | endRecord _ =>
      { statements := edits .workRecord recordColumns ∪ edits .workSchedule closingColumns }
  | beginProcess _ => { statements := adds .workProcessRecord anyRow }
  | endProcess _ => { statements := edits .workProcessRecord processRecordColumns }
  | createBoard _ => { statements := adds .caregiverBoard fun b => b.authorId = me.userId }
  | updateBoard .. => { statements := edits .caregiverBoard boardColumns }
  | deleteBoard _ => { statements := removes .caregiverBoard }
  | uploadDocument .. =>
      { statements := adds .caregiverDocument anyRow ∪ adds .caregiverDocumentLog anyRow
        files := true }
  | downloadDocument _ => { statements := adds .caregiverDocumentLog anyRow }
  | deleteDocument _ =>
      { statements := removes .caregiverDocument ∪ adds .caregiverDocumentLog anyRow
        files := true }
  | setEnabled .. => { statements := edits .user enabledColumns }
  | updateCharger .. => { statements := edits .companyCharger chargerColumns }
  | _ => {}

/-- The footprint of a request that is confined to a company, with the task it leaves behind. -/
def ScopedRequest.footprint : ScopedRequest → Footprint
  | createLeave _ => { statements := adds .leave anyRow }
  | decideLeave .. => { statements := edits .leave decisionColumns }
  | deleteLeave _ => { statements := removes .leave }
  | bindKiosk _ => { statements := adds .companyKiosk anyRow }
  | setAssignee .. => { statements := edits .companyKiosk assigneeColumns }
  | unbind _ => { statements := removes .companyKiosk }
  | bulkEmail _ =>
      { statements := adds .bulkEmailJob anyRow ∪ edits .bulkEmailJob progressColumns
        mails := true }
  | createEmailSchedule _ => { statements := adds .journalEmailSchedule anyRow }
  | updateEmailSchedule .. => { statements := edits .journalEmailSchedule journalColumns }
  | deleteEmailSchedule _ => { statements := removes .journalEmailSchedule }
  | _ => {}

/-! ## Endpoints keep to them -/

section Endpoints

variable {app : App V D} {me : PrincipalDetails}

/-- Logging in, refreshing and signing up keep to their footprints. -/
theorem PublicRequest.within_endpoint [DecidableEq V] (request : PublicRequest V) :
    Within request.footprint (request.endpoint app) := by
  cases request with
  | login req =>
      exact .bind (.login subset_rfl Set.subset_union_left Set.subset_union_right) fun _ => .ret
  | refresh refreshToken => exact .bind (.refresh subset_rfl) fun _ => .ret
  | signupCaregiver req =>
      exact .bind (.signupAsCaregiver subset_rfl Set.subset_union_left Set.subset_union_right)
        fun _ => .ret

/-- Every request of a principal keeps to its footprint: one case for each, by the
footprint of the service it calls. -/
theorem MemberRequest.within_endpoint (request : MemberRequest) :
    Within (request.footprint me) (request.endpoint app me) := by
  cases request with
  | logout => exact .bind (.logout rfl) fun _ => .ret
  | me => exact .bind .me fun _ => .ret
  | changePassword current next => exact .bind (.changePassword rfl subset_rfl) fun _ => .ret
  | updateMe req => exact .bind (.updateProfile subset_rfl) fun _ => .ret
  | listCompanies keyword page => exact .bind .listPage fun _ => .ret
  | getCompany companyId => exact .bind (.getCompany rfl) fun _ => .ret
  | createCompany req => exact .bind (.createCompany subset_rfl) fun _ => .ret
  | updateCompany companyId req => exact .bind (.updateCompany rfl subset_rfl) fun _ => .ret
  | deactivateCompany companyId =>
      exact .bind (.deactivateCompany rfl subset_rfl) fun _ => .ret
  | listWorkers keyword employmentStatus page => exact .bind .listPage fun _ => .ret
  | getWorker workerId => exact .bind .getWorker fun _ => .ret
  | listMemberships workerId => exact .bind .listMemberships fun _ => .ret
  | workersOfCompany companyId page => exact .bind .listPage fun _ => .ret
  | createWorker req =>
      exact .bind (.createWorker Set.subset_union_left Set.subset_union_right) fun _ => .ret
  | hireWorker companyId workerId => exact .bind (.hire subset_rfl) fun _ => .ret
  | fireCompanyWorker companyWorkerId => exact .bind (.fire subset_rfl) fun _ => .ret
  | retireWorker workerId => exact .bind (.retire subset_rfl) fun _ => .ret
  | rehireWorker workerId => exact .bind (.rehire subset_rfl) fun _ => .ret
  | caregiverMe => exact .bind .caregiverMe fun _ => .ret
  | listMyRelations => exact .bind .listRelations fun _ => .ret
  | registerWorker workerId => exact .bind (.registerWorker subset_rfl) fun _ => .ret
  | removeRelation relationId => exact .bind (.removeRelation subset_rfl) fun _ => .ret
  | listStandards companyId keyword page => exact .bind .listPage fun _ => .ret
  | getStandard standardId => exact .bind (.getStandard subset_rfl) fun _ => .ret
  | createStandard req =>
      exact .bind (.createStandard subset_rfl Set.subset_union_left Set.subset_union_right)
        fun _ => .ret
  | updateStandard standardId req =>
      exact .bind (.updateStandard subset_rfl subset_rfl) fun _ => .ret
  | syncProcesses standardId processes =>
      exact .bind (.syncProcesses (fun _ hd => .inl (.inl hd)) (fun _ hd => .inl (.inr hd))
        Set.subset_union_right) fun _ => .ret
  | deactivateStandard standardId =>
      exact .bind (.deactivateStandard subset_rfl subset_rfl) fun _ => .ret
  | listAssignments jobStandardId companyWorkerId => exact .bind .listAssignmentsBy fun _ => .ret
  | assign companyWorkerId jobStandardId =>
      exact .bind (.assign Set.subset_union_left Set.subset_union_right) fun _ => .ret
  | unassign jobWorkerId => exact .bind (.unassign subset_rfl) fun _ => .ret
  | listSchedules page => exact .bind .listPage fun _ => .ret
  | getSchedule scheduleId => exact .bind .getSchedule fun _ => .ret
  | schedulesOfJobWorker jobWorkerId from_ to_ => exact .bind .schedulesOfJobWorker fun _ => .ret
  | schedulesOfStandard jobStandardId from_ to_ page =>
      exact .bind .schedulesOfStandard fun _ => .ret
  | createSchedule req => exact .bind (.createSchedule subset_rfl) fun _ => .ret
  | batchMake req => exact .bind (.batchMake subset_rfl) fun _ => .ret
  | closeSchedule scheduleId endAt => exact .bind (.closeSchedule subset_rfl) fun _ => .ret
  | beginRecord req => exact .bind (.beginRecord subset_rfl) fun _ => .ret
  | endRecord req =>
      exact .bind (.endRecord Set.subset_union_left Set.subset_union_right) fun _ => .ret
  | listRecords scheduleId => exact .bind .listRecords fun _ => .ret
  | beginProcess req => exact .bind (.beginProcess subset_rfl) fun _ => .ret
  | endProcess req => exact .bind (.endProcess subset_rfl) fun _ => .ret
  | listProcessRecords scheduleId => exact .bind .listProcessRecords fun _ => .ret
  | listBoards keyword page => exact .bind .listPage fun _ => .ret
  | getBoard boardId => exact .bind .getBoard fun _ => .ret
  | createBoard req => exact .bind (.createBoard subset_rfl) fun _ => .ret
  | updateBoard boardId req => exact .bind (.updateBoard subset_rfl) fun _ => .ret
  | deleteBoard boardId => exact .bind (.deleteBoard subset_rfl) fun _ => .ret
  | uploadDocument relationId typeId file =>
      exact .bind (.uploadDocument rfl Set.subset_union_left Set.subset_union_right) fun _ => .ret
  | documentsOfRelation relationId => exact .bind .documentsOfRelation fun _ => .ret
  | downloadDocument documentId => exact .bind (.downloadDocument subset_rfl) fun _ => .ret
  | deleteDocument documentId =>
      exact .bind (.deleteDocument rfl Set.subset_union_left Set.subset_union_right) fun _ => .ret
  | listUsers keyword role page => exact .bind .listPage fun _ => .ret
  | setEnabled userId enabled => exact .bind (.setEnabled subset_rfl) fun _ => .ret
  | listChargers keyword companyId page => exact .bind .listPage fun _ => .ret
  | updateCharger chargerId hired => exact .bind (.setHired subset_rfl) fun _ => .ret

/-- So does every request in the scope of a company, whatever the scope is. -/
theorem ScopedRequest.within_endpoint (request : ScopedRequest) {scope : CompanyScopeValue} :
    Within request.footprint
      (request.endpoint app.env app.renderers app.ilike me scope : Async V D ScopedResponse) := by
  cases request with
  | listLeaves filter page =>
      exact .bind (.bind .resolveCompanyFilter fun _ => .bind .listPage fun _ => .ret)
        fun _ => .ret
  | listApproved companyId from_ to_ =>
      exact .bind (.bind .resolveCompanyFilter fun _ => .bind .select fun _ => .ret) fun _ => .ret
  | listByWorker workerId from_ to_ =>
      exact .bind (.bind .select fun _ => .ret) fun _ => .ret
  | createLeave req => exact .bind (.createLeave subset_rfl) fun _ => .ret
  | decideLeave leaveId req => exact .bind (.decideLeave subset_rfl) fun _ => .ret
  | deleteLeave leaveId => exact .bind (.deleteLeave subset_rfl) fun _ => .ret
  | listKiosks keyword companyId status page =>
      exact .bind (.bind .resolveCompanyFilter fun _ => .bind .listPage fun _ => .ret)
        fun _ => .ret
  | kiosksOfCompany companyId =>
      exact .bind (.bind .assertCompany fun _ => .bind .select fun _ => .ret) fun _ => .ret
  | bindKiosk req => exact .bind (.bindKiosk subset_rfl) fun _ => .ret
  | setAssignee kioskId req => exact .bind (.setAssignee subset_rfl) fun _ => .ret
  | unbind kioskId => exact .bind (.unbind subset_rfl) fun _ => .ret
  | downloadPdf scheduleId => exact .bind .render fun _ => .ret
  | downloadFile scheduleId format => exact .bind .render fun _ => .ret
  | bulkEmail req => exact .bind (.bulkEmail Set.subset_union_left) fun _ => .ret
  | listBulkEmailJobs companyId limit =>
      exact .bind (.bind .resolveCompanyFilter fun _ => .bind .select fun _ => .ret) fun _ => .ret
  | getBulkEmailJob jobId => exact .bind .getJob fun _ => .ret
  | bulkPreview companyId day =>
      exact .bind (.bind .assertCompany fun _ => .bind .dbGet fun _ => .bind .select fun _ => .ret)
        fun _ => .ret
  | listEmailSchedules companyId =>
      exact .bind (.bind .resolveCompanyFilter fun _ => .bind .select fun _ => .ret) fun _ => .ret
  | createEmailSchedule req => exact .bind (.createEmailSchedule subset_rfl) fun _ => .ret
  | updateEmailSchedule scheduleId req =>
      exact .bind (.updateEmailSchedule subset_rfl) fun _ => .ret
  | deleteEmailSchedule scheduleId =>
      exact .bind (.deleteEmailSchedule subset_rfl) fun _ => .ret

end Endpoints

/-! ## Who sends a request -/

namespace ApiRequest

/-- The footprint of a request, once the guard has let somebody pass or nobody. -/
def footprint : Option PrincipalDetails → ApiRequest V → Footprint
  | _, anyone request => request.footprint
  | some me, member request => request.footprint me
  | some _, confined request => request.footprint
  | none, member _ | none, confined _ => {}

/-- A request may be from nobody, or from a principal that passes its guard. -/
def MayBeFrom (app : App V D) (credentials : Credentials) (request : ApiRequest V)
    (sender : Option PrincipalDetails) : Prop :=
  ∀ me ∈ sender, PassesGuard app credentials request me

/-- **A request does not leave `R`**, whoever it may be from. -/
def Keeps (app : App V D) (credentials : Credentials) (request : ApiRequest V)
    (R : Rely (World V D)) : Prop :=
  ∀ sender, request.MayBeFrom app credentials sender → (request.footprint sender).Allows R

end ApiRequest

/-! ## Sessions that do not leave a relation -/

section Sessions

variable {env : Env} {R R' : Rely (World V D)} {α : Type}

/-- **What a session has recorded does not leave `R`.** -/
def recording (R : Rely (World V D)) : Assertion Session R' :=
  .own fun s => ∃ F : Footprint, F.Allows R ∧ ∀ d ∈ s.statements, d ∈ F.statements

/-- The session has recorded nothing. -/
def blank : Assertion Session R' := .own fun s => s.statements = []

/-- Statements within a footprint that allows `R` do not leave `R`. -/
theorem recording_of_drafts {F : Footprint} (hR : F.Allows R) {s : Session} {w : World V D}
    (h : (drafts F : Assertion Session R') s w) : (recording R : Assertion Session R') s w :=
  ⟨F, hR, h⟩

/-- A session that has recorded nothing is within any footprint. -/
theorem drafts_of_blank {F : Footprint} {s : Session} {w : World V D}
    (h : (blank : Assertion Session R') s w) : (drafts F : Assertion Session R') s w := by
  intro d hd
  rw [show s.statements = [] from h] at hd
  cases hd

/-- A script that starts from nothing, within a footprint that does not leave `R`. -/
theorem among_of_blank {F : Footprint} {p : Async V D α} (hp : Within F p) (hR : F.Allows R) :
    (server env).Among R' R blank p (fun _ => recording R) (fun _ => recording R) :=
  (among_of_within hp hR R').weaken (fun _ _ => drafts_of_blank) (fun _ _ _ => recording_of_drafts hR)
    fun _ _ _ => recording_of_drafts hR

/-- A script that records nothing. -/
theorem among_reading {p : Async V D α} (hp : Within {} p) (hidle : ({} : Footprint).Allows R) :
    (server env).Among R' R blank p (fun _ => blank) fun _ => recording R :=
  (among_of_within hp hidle R').weaken (fun _ _ => drafts_of_blank)
    (fun _ _ _ hs => List.eq_nil_iff_forall_not_mem.mpr hs) fun _ _ _ => recording_of_drafts hidle

/-- **A query of a session that has recorded nothing** reads the committed database, in which what
is known of the shared state holds. -/
theorem among_query {binds : List Bind} {q : RowOrder → Db → α} (hidle : ({} : Footprint).Allows R)
    {φ : World V D → Prop} {ψ : α → World V D → Prop}
    (hφ : ∀ {w w'}, R'.may w w' → φ w → φ w') (hψ : ∀ a {w w'}, R'.may w w' → ψ a w → ψ a w')
    (h : ∀ o w, φ w → ψ (q o w.db) w.tick) :
    (server env).Among R' R (blank.both (.shared φ hφ)) (select binds q)
      (fun a => blank.both (.shared (ψ a) (hψ a))) fun _ => recording R := by
  refine .lift fun s w ⟨hs, hw⟩ => ?_
  obtain ⟨hwritten, hpending⟩ : s.written = [] ∧ s.pending = [] := List.append_eq_nil_iff.mp hs
  have hblank : ∀ {s' : Session} {w' : World V D}, s'.statements = [] →
      (recording R : Assertion Session R') s' w' := fun hs' =>
    recording_of_drafts hidle (drafts_of_blank hs')
  obtain ⟨written, pending, failed⟩ := s
  dsimp only at hwritten hpending
  subst hwritten hpending
  have htick : R.may w w.tick := hidle.seq w w.seq
  rw [server_exec, exec, execSelect, Session.flush]
  by_cases hfailed : failed
  · simp only [hfailed, if_true]
    exact ⟨htick, hblank rfl⟩
  · simp only [hfailed, Bool.false_eq_true, if_false, List.isEmpty_nil, if_true]
    by_cases hbinds : binds.all Bind.fits
    · simp only [hbinds, if_true]
      exact ⟨htick, rfl, h _ w hw⟩
    · simp only [hbinds]
      exact ⟨htick, hblank rfl⟩

/-- What a query shows of the database it reads, as long as nobody changes it. -/
theorem among_select {binds : List Bind} {q : RowOrder → Db → α}
    (hidle : ({} : Footprint).Allows R) (φ : α → Db → Prop)
    (hφ : ∀ a {w w' : World V D}, R'.may w w' → φ a w.db → φ a w'.db)
    (h : ∀ o db, φ (q o db) db) :
    (server env).Among R' R blank (select binds q)
      (fun a => blank.both (.shared (fun w => φ a w.db) (hφ a))) fun _ => recording R :=
  (among_query hidle (φ := fun _ => True) (fun _ => id) hφ fun o w _ => h o w.db).weaken
    (fun _ _ hs => ⟨hs, trivial⟩) (fun _ _ _ => id) fun _ _ _ => id

/-- A rollback discards what was recorded. -/
theorem among_rollback {X : Err → Assertion Session R'} :
    (server env).Among R' R (recording R) rollback (fun _ => blank) X :=
  .lift fun _ w ⟨_, hR, _⟩ => ⟨hR.seq w w.seq, rfl⟩

/-- A commit applies what was recorded to the shared database. This is the one command
at which the session acts on it, and its statements are within a footprint that allows
`R`. -/
theorem among_commit :
    (server env).Among R' R (recording R) commit (fun _ => blank) (fun _ => recording R) := by
  refine .lift fun s w ⟨F, hR, hs⟩ => ?_
  have hexec := hR.exec env (c := (.commit : Cmd V D Unit)) trivial w hs
  refine ⟨hexec.1, ?_⟩
  change Machine.outcome _ _ (execCommit env s w).1 (execCommit env s w).2.1 _
  have hkept := hexec.2
  change ∀ d ∈ (execCommit env s w).2.1.statements, _ at hkept
  revert hkept
  unfold execCommit
  split
  · exact fun hkept => ⟨F, hR, hkept⟩
  · split
    · exact fun hkept => ⟨F, hR, hkept⟩
    · exact fun _ => rfl

/-- The end of a transaction leaves an empty session behind. -/
theorem among_endTransaction {φ : Prop} :
    (server env).Among R' R ((recording R).knowing φ) (endTransaction env)
      (fun _ => blank.knowing φ) fun _ => recording R := by
  refine .of_knowing fun hφ => ?_
  unfold endTransaction
  refine .ite (fun _ => ?_) fun _ => ?_
  · exact among_rollback.weaken (fun _ _ => id) (fun _ _ _ hs => ⟨hφ, hs⟩) fun _ _ _ => id
  · exact among_commit.weaken (fun _ _ => id) (fun _ _ _ hs => ⟨hφ, hs⟩) fun _ _ _ => id

/-- **The transaction around a script.** -/
theorem among_getDbSession {P : Assertion Session R'} {p : Async V D α}
    {Q Q' : α → Assertion Session R'}
    (hp : (server env).Among R' R P p Q fun _ => recording R)
    (hend : ∀ a, (server env).Among R' R (Q a) (endTransaction env) (fun _ => Q' a)
      fun _ => recording R) :
    (server env).Among R' R P (getDbSession env p) Q' fun _ => blank :=
  .handle (.bind hp fun a => .bind (hend a) fun _ => .ret fun _ _ hs => hs) fun _ =>
    .bind among_rollback fun _ => .raise fun _ _ hs => hs

end Sessions

/-! ## What the server does about a request -/

section Handle

variable {app : App V D} {credentials : Credentials} {R R' : Rely (World V D)}

/-- The principal is read from the token and the table of users. -/
theorem Within.currentUserOptional {F : Footprint} :
    Within F (currentUserOptional app.env app.crypto app.reader credentials :
      Async V D (Option PrincipalDetails)) := by
  unfold Rooti.currentUserOptional
  split
  · exact .ret
  · exact .bind .parseToken fun _ => .ret

/-- The roles of a principal are compared in memory. -/
theorem Within.requireRoles {F : Footprint} {crypto : Crypto V} {roles : List UserRole}
    {me : PrincipalDetails} :
    Within F (requireRoles crypto roles me : Async V D PrincipalDetails) :=
  .bind .raiseIf fun _ => .ret

/-- **The principal of a request** is one it may be taken to be from. -/
theorem among_currentUser (hidle : ({} : Footprint).Allows R) :
    (server app.env).Among R' R blank
      (currentUser app.env app.crypto app.reader credentials : Async V D PrincipalDetails)
      (fun me => blank.knowing (SpeaksFor app.env app.crypto app.reader credentials me))
      (fun _ => recording R) := by
  have hraise : ∀ (s : Session) (w : World V D), (blank : Assertion Session R') s w →
      (recording R : Assertion Session R') s w :=
    fun _ _ hs => recording_of_drafts hidle (drafts_of_blank hs)
  refine .bind (Q := fun found => blank.knowing
    (∀ me ∈ found, SpeaksFor app.env app.crypto app.reader credentials me)) ?_ fun found =>
      .of_knowing fun hfound => .orRaise (fun me hme _ _ hs => ⟨hfound me hme, hs⟩) hraise
  unfold Rooti.currentUserOptional
  split
  · exact .ret fun _ _ hs => ⟨by rintro _ ⟨⟩, hs⟩
  · next text htext =>
      rw [Option.filter_eq_some_iff] at htext
      obtain ⟨htoken, hne⟩ := htext
      refine .bind (Q := fun payload => blank.knowing (∃ n, parseTokenAt app.env.settings app.crypto
        (some .access) (app.env.clock n) (app.reader.read text) = .ok payload)) ?_ fun payload =>
          .of_knowing fun hpayload => .ret fun _ _ hs => ⟨fun me hme => ?_, hs⟩
      · refine .bind (Q := fun t => blank.knowing (∃ n, t = app.env.clock n))
          (.lift fun s w hs => ⟨hidle.seq w w.seq, ⟨w.ticks, rfl⟩, hs⟩) fun t =>
            .of_knowing fun ht => .ofExcept (fun payload hok _ _ hs => ⟨?_, hs⟩) fun _ _ => hraise
        obtain ⟨n, rfl⟩ := ht
        exact ⟨n, hok⟩
      · obtain ⟨n, hok⟩ := hpayload
        obtain rfl := Option.some.inj hme
        exact ⟨n, text, payload, htoken, by simpa using hne, hok, rfl⟩

/-- The roles a guard asks for. -/
theorem among_requireRoles {crypto : Crypto V} {env : Env} {roles : List UserRole}
    {me : PrincipalDetails} (hidle : ({} : Footprint).Allows R) :
    (server env).Among R' R blank (requireRoles crypto roles me : Async V D PrincipalDetails)
      (fun me' => blank.knowing (me' = me ∧ HasOneOf (some roles) me)) (fun _ => recording R) := by
  refine .bind (Q := fun _ => blank.knowing (HasOneOf (some roles) me))
    (.raiseIf (fun hany _ _ hs => ⟨?_, hs⟩)
      fun _ _ hs => recording_of_drafts hidle (drafts_of_blank hs))
    fun _ => .ret fun _ _ hs => ⟨⟨rfl, hs.1⟩, hs.2⟩
  rintro _ ⟨⟩
  rw [Bool.not_eq_false', List.any_eq_true] at hany
  obtain ⟨value, hvalue, hmem⟩ := hany
  obtain ⟨role, hrole, rfl⟩ := List.mem_map.mp (List.mem_dedup.mp hvalue)
  exact ⟨role, hrole, of_decide_eq_true hmem⟩

/-- **The guard lets those pass who have the roles it asks for.** -/
theorem among_guarded {roles : Option (List UserRole)} (hidle : ({} : Footprint).Allows R) :
    (server app.env).Among R' R blank (guarded app roles credentials : Async V D PrincipalDetails)
      (fun me => blank.knowing
        (SpeaksFor app.env app.crypto app.reader credentials me ∧ HasOneOf roles me))
      (fun _ => recording R) := by
  refine .bind (among_currentUser hidle) fun me => .of_knowing fun hme => ?_
  cases roles with
  | none => exact .ret fun _ _ hs => ⟨⟨hme, by rintro _ ⟨⟩⟩, hs⟩
  | some roles =>
      refine (among_requireRoles hidle).weaken (fun _ _ => id) ?_ fun _ _ _ => id
      rintro me' s w ⟨⟨rfl, hroles⟩, hs⟩
      exact ⟨⟨hme, hroles⟩, hs⟩

/-- The scope is looked up for administrators and chargers. -/
theorem among_getCompanyScope {me : PrincipalDetails} (hidle : ({} : Footprint).Allows R) :
    (server app.env).Among R' R blank
      (getCompanyScope app.crypto me : Async V D CompanyScopeValue)
      (fun _ => blank.knowing (HasOneOf (some [.admin, .charger]) me)) (fun _ => recording R) := by
  refine .bind (among_requireRoles hidle) fun me' => .of_knowing fun hme => ?_
  obtain ⟨rfl, hroles⟩ := hme
  have hlookup : Within {} (if me'.hasRole UserRole.admin.value then return none
      else do
        let rows ← select [.int me'.userId] (chargedCompanies me'.userId)
        let found ← scalarOneOrNone rows
        let companyId ← Prog.orRaise
          (authForbiddenExceptionWith "담당 회사가 지정되지 않았습니다.") found
        return some companyId : Async V D CompanyScopeValue) :=
    .ite .ret (.bind .select fun _ => .bind .scalarOneOrNone fun _ => .bind .orRaise fun _ => .ret)
  exact (among_reading hlookup hidle).weaken (fun _ _ => id) (fun _ _ _ hs => ⟨hroles, hs⟩)
    fun _ _ _ => id

/-! ### The tasks after a response -/

/-- A response of these kinds leaves nothing to do. -/
theorem returns_background {α : Type} {F : Footprint} {f : α → ApiResponse V}
    (h : ∀ a, ApiRequest.background app (f a) = .ret ()) {p : Async V D α} :
    (p.bind fun a => .ret (f a)).Returns fun response =>
      Within F (ApiRequest.background app response) :=
  .bind fun a => by
    change Within F (ApiRequest.background app (f a))
    rw [h]
    exact .ret

/-- No request of the public leaves a task behind. -/
theorem PublicRequest.returns_background [DecidableEq V] (request : PublicRequest V) :
    (request.endpoint app).Returns fun response =>
      Within request.footprint (ApiRequest.background app response) := by
  cases request <;> exact Rooti.returns_background fun _ => rfl

/-- Nor does a request of a principal that is not in a scope. -/
theorem MemberRequest.returns_background {me : PrincipalDetails} (request : MemberRequest) :
    (request.endpoint app me).Returns fun response =>
      Within (request.footprint me) (ApiRequest.background app response) := by
  cases request <;> exact Rooti.returns_background fun _ => rfl

/-- The task of a bulk mail is within the footprint of its request. -/
theorem ScopedRequest.returns_background {me : PrincipalDetails} {scope : CompanyScopeValue}
    (request : ScopedRequest) :
    (request.endpoint app.env app.renderers app.ilike me scope :
      Async V D ScopedResponse).Returns fun response =>
        Within request.footprint (ApiRequest.background app (.confined response)) := by
  cases request with
  | bulkEmail req =>
      refine .bind fun answer => ?_
      obtain ⟨result, task⟩ := answer
      cases task with
      | bulkEmailJob jobId => exact .runBulkEmailJob rfl Set.subset_union_right
      | bulkEmailInert companyId day recipientEmail fmt => exact .runBulkEmailInert rfl
  | _ => exact .bind fun _ => .ret

namespace ApiRequest

variable {request : ApiRequest V}

/-- Somebody passes the guard of the request, if it has one. -/
def Authorized (app : App V D) (credentials : Credentials) (request : ApiRequest V) : Prop :=
  (∃ open', request = anyone open') ∨ ∃ me, PassesGuard app credentials request me

/-- **What an answer shows**: what is left to do does not leave `R`, and the guard was passed. -/
structure Answered (app : App V D) (credentials : Credentials) (request : ApiRequest V)
    (R : Rely (World V D)) (response : ApiResponse V) : Prop where
  leaves : ∃ F : Footprint, F.Allows R ∧ Within F (background app response)
  authorized : request.Authorized app credentials

/-- **A request with its guard**, while others are under way. -/
theorem among_endpoint [DecidableEq V] (h : request.Keeps app credentials R) :
    (server app.env).Among R' R blank (request.endpoint app credentials)
      (fun response => (recording R).knowing (request.Answered app credentials R response))
      (fun _ => recording R) := by
  have hidle := (h none (by rintro _ ⟨⟩)).idle
  cases request with
  | anyone request =>
      have hF : request.footprint.Allows R := h none (by rintro _ ⟨⟩)
      refine ((among_of_blank request.within_endpoint hF).returning
        request.returns_background).weaken (fun _ _ => id) ?_ fun _ _ _ => id
      exact fun _ _ _ hs => ⟨⟨⟨_, hF, hs.1⟩, .inl ⟨request, rfl⟩⟩, hs.2⟩
  | member request =>
      refine .bind (among_guarded hidle) fun me => .of_knowing fun hme => ?_
      have hF : (request.footprint me).Allows R := h (some me) (by
        rintro _ ⟨⟩
        exact hme)
      refine ((among_of_blank request.within_endpoint hF).returning
        request.returns_background).weaken (fun _ _ => id) ?_ fun _ _ _ => id
      exact fun _ _ _ hs => ⟨⟨⟨_, hF, hs.1⟩, .inr ⟨me, hme⟩⟩, hs.2⟩
  | confined request =>
      refine .bind (among_currentUser hidle) fun me => .of_knowing fun hme =>
        .bind (among_getCompanyScope hidle) fun scope => .of_knowing fun hroles => ?_
      have hF : request.footprint.Allows R := h (some me) (by
        rintro _ ⟨⟩
        exact ⟨hme, hroles⟩)
      refine .bind ((among_of_blank request.within_endpoint hF).returning
        request.returns_background) fun response => .of_knowing fun hleaves =>
          .ret fun _ _ hs => ⟨⟨⟨_, hF, hleaves⟩, .inr ⟨me, hme, hroles⟩⟩, hs⟩

/-- **All the server does about a request**, while others are under way: if the request does not
leave `R`, no command of it does, and it is answered only if its guard was passed. -/
theorem among_handle [DecidableEq V] (h : request.Keeps app credentials R) :
    (server app.env).Among R' R blank (request.handle app credentials)
      (fun _ => (recording R).knowing (request.Authorized app credentials))
      (fun _ => recording R) := by
  have hidle := (h none (by rintro _ ⟨⟩)).idle
  have hsession : (server app.env).Among R' R blank
      (getDbSession app.env (request.endpoint app credentials))
      (fun response => blank.knowing (request.Answered app credentials R response))
      fun _ => recording R :=
    (among_getDbSession (among_endpoint h) fun _ => among_endTransaction).weaken (fun _ _ => id)
      (fun _ _ _ => id) fun _ _ _ hs => recording_of_drafts hidle (drafts_of_blank hs)
  refine .bind hsession fun response => .of_knowing fun hanswered =>
    .bind (Q := fun _ => recording R) ?_ fun _ =>
      .ret fun _ _ hs => ⟨hanswered.authorized, hs⟩
  obtain ⟨F, hF, hwithin⟩ := hanswered.leaves
  exact .handle (among_of_blank hwithin hF) fun _ => .ret fun _ _ hs => hs

end ApiRequest

end Handle

/-! ## Requests at once -/

section Arrivals

variable {ι : Type} [DecidableEq ι] [DecidableEq V]

/-- **Any number of requests**, each with its credentials, before anything has been done about
them. -/
def arrivals (app : App V D) (requests : ι → Credentials × ApiRequest V) (w : World V D) :
    Pool (Cmd V D) Err Session (World V D) ι (ApiResponse V) where
  prog i := (requests i).2.handle app (requests i).1
  loc _ := {}
  shared := w

/-- **What no request leaves is not left**, in whatever order their commands take turns. -/
theorem keeps_play {app : App V D} {requests : ι → Credentials × ApiRequest V}
    {R : Rely (World V D)} (h : ∀ i, (requests i).2.Keeps app (requests i).1 R) (w : World V D)
    (sched : List ι) :
    R.may w (Pool.play (server app.env) (arrivals app requests w) sched).shared := by
  have hamong : (arrivals app requests w).Among (server app.env) (fun _ => R) (fun _ => R)
      fun i => Machine.outcome
        (fun _ => (recording R).knowing ((requests i).2.Authorized app (requests i).1))
        fun _ => recording R :=
    fun i => ApiRequest.among_handle (h i) {} w rfl
  exact hamong.total (fun _ _ _ _ _ hstep => hstep) (fun _ _ _ hstep => hstep) sched

end Arrivals

end Rooti
