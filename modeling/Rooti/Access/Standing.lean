import Rooti.Access.Tokens

/-!
# Nobody gains a role

Any number of requests are under way, each with a token of its own choice, and signing is taken to
be what it is for: a token that is accepted was issued for an account there was at the beginning,
or has been given out by a request that was answered before (`Unforged`).  Then every principal
that takes part is an account, and an account with the roles its token says (`standing_play`).

No request adds an account of an administrator or a charger, and no account changes its role, so
the administrators and chargers there are have been there from the beginning.

## Main definitions

* `GivenOut`, `Unforged` — where the tokens of requests come from
* `speakers` — the principals of the requests of a schedule
* `answered_account` — who is answered
* `rows_of_no_staff` — the tables that stay as they are where nobody has the role
-/

namespace Rooti

open Relational Program

variable {V D : Type}

/-! ## Requests of accounts -/

section Standing

variable {app : App V D}

/-- Whoever a request speaks for is an account. -/
def Standing (app : App V D) (credentials : Credentials) (db : Db) : Prop :=
  ∀ me, SpeaksFor app.env app.crypto app.reader credentials me → AccountOf db me

theorem Standing.of_may {credentials : Credentials} {db db' : Db} {P : Set PrincipalDetails}
    (h : Standing app credentials db) (hmay : (apiCycle P).May db db') :
    Standing app credentials db' := fun me hme => (h me hme).of_may hmay

/-- **What is known of an answer**: the guard was passed, by an account, and tokens in it are those
of accounts. -/
def answering (app : App V D) (P : Set PrincipalDetails) (sent : Credentials × ApiRequest V)
    (response : ApiResponse V) : Assertion Session (cycleRely P : Rely (World V D)) :=
  (((recording (cycleRely P)).knowing (sent.2.Authorized app sent.1)).both
    ((recording (cycleRely P)).both (tokensIssued app response))).both
      (.shared (fun w => Standing app sent.1 w.db) fun hmay h => h.of_may hmay)

/-- **A request of an account** that is served among others. -/
theorem ApiRequest.among_standing [DecidableEq V] {sent : Credentials × ApiRequest V}
    {P : Set PrincipalDetails} (hP : actors app sent ⊆ P) :
    (server app.env).Among (cycleRely P) (cycleRely P)
      (blank.both (.shared (fun w => Standing app sent.1 w.db) fun hmay h => h.of_may hmay))
      (sent.2.handle app sent.1) (answering app P sent) fun _ => recording (cycleRely P) := by
  have hkeeps := keeps_cycle (D := D) hP
  exact (((among_handle hkeeps).both (sent.2.among_tokens hkeeps)).frame (fun _ _ => id)
    (fun w => Standing app sent.1 w.db) fun hmay h => h.of_may hmay).weaken
      (fun _ _ hs => ⟨⟨hs.1, hs.1⟩, hs.2⟩) (fun _ _ _ => id) fun _ _ _ hs => hs.1.1

/-- A transaction has at least to be ended. -/
theorem getDbSession_ne_ret {α : Type} (env : Env) (p : Async V D α) (a : α) :
    getDbSession env p ≠ .ret a := by
  unfold getDbSession endTransaction
  cases p with
  | ret a' => split <;> rintro ⟨⟩
  | raise e => rintro ⟨⟩
  | call c k => rintro ⟨⟩

theorem handle_ne_ret [DecidableEq V] (credentials : Credentials) (request : ApiRequest V)
    (response : ApiResponse V) : request.handle app credentials ≠ .ret response := by
  have hsession := getDbSession_ne_ret app.env (request.endpoint app credentials)
  unfold ApiRequest.handle
  cases h : getDbSession app.env (request.endpoint app credentials) with
  | ret response' => exact absurd h (hsession response')
  | raise e => rintro ⟨⟩
  | call c k => rintro ⟨⟩

end Standing

/-! ## Schedules without forgery -/

section Unforged

variable {ι : Type} {app : App V D} {requests : ι → Credentials × ApiRequest V} {w : World V D}
  {sched : List ι}

/-- A token of an account there was at the beginning, or of an answer. -/
def GivenOut (app : App V D) (db : Db)
    (p : Pool (Cmd V D) Err Session (World V D) ι (ApiResponse V)) (token : V) : Prop :=
  Issued app db token ∨
    ∃ i pair, p.Returned i (.tokens pair) ∧ (token = pair.accessToken ∨ token = pair.refreshToken)

/-- **The principals of a schedule.** -/
def speakers (app : App V D) (requests : ι → Credentials × ApiRequest V) (sched : List ι) :
    Set PrincipalDetails := {me | ∃ i ∈ sched, me ∈ actors app (requests i)}

variable [DecidableEq V]

/-- **What holds of a pool in which no token is forged.** -/
structure Sound (app : App V D) (requests : ι → Credentials × ApiRequest V) (w : World V D)
    (P : Set PrincipalDetails)
    (p : Pool (Cmd V D) Err Session (World V D) ι (ApiResponse V)) : Prop where
  arriving : Pool.Arriving (server app.env) (fun _ => cycleRely P) (fun _ => cycleRely P)
    (fun i => Machine.outcome (answering app P (requests i)) fun _ => recording (cycleRely P))
    (arrivals app requests w) p
  lives : (apiCycle P).May w.db p.shared.db
  standing : ∀ i, p.prog i ≠ (arrivals app requests w).prog i →
    Standing app (requests i).1 p.shared.db

namespace Sound

variable {P : Set PrincipalDetails}
  {p : Pool (Cmd V D) Err Session (World V D) ι (ApiResponse V)}

/-- What is known of an answer that has been given. -/
theorem answered (h : Sound app requests w P p) {i : ι} {response : ApiResponse V}
    (hi : p.Returned i response) : answering app P (requests i) response (p.loc i) p.shared := by
  obtain ⟨hprog, -⟩ | hsafe := h.arriving i
  · exact absurd (hprog.symm.trans hi) (handle_ne_ret _ _ _)
  · rw [show p.prog i = .ret response from hi] at hsafe
    exact hsafe p.shared ((cycleRely P).refl p.shared)

/-- **A token that has been given out is one of an account.** -/
theorem issued (h : Sound app requests w P p) {token : V} (htoken : GivenOut app w.db p token) :
    Issued app p.shared.db token := by
  obtain hissued | ⟨i, pair, hi, rfl | rfl⟩ := htoken
  · exact hissued.of_may h.lives
  · exact (h.answered hi).1.2.2.1
  · exact (h.answered hi).1.2.2.2

/-- **Whoever moves is an account.** -/
theorem standing_moving (hstr : ∀ s, app.crypto.str (.str s) = s) (h : Sound app requests w P p)
    {i : ι} (hi : p.prog i = (arrivals app requests w).prog i →
      ∀ me, SpeaksFor app.env app.crypto app.reader (requests i).1 me →
        ∃ text, resolveBearerToken (requests i).1 = some text ∧
          GivenOut app w.db p (app.reader.read text)) :
    Standing app (requests i).1 p.shared.db := by
  by_cases hbegun : p.prog i = (arrivals app requests w).prog i
  · intro me hme
    obtain ⟨text, htext, htoken⟩ := hi hbegun me hme
    exact accountOf_of_issued hstr htext (h.issued htoken) hme
  · exact h.standing i hbegun

/-- One step. -/
theorem step [DecidableEq ι] (h : Sound app requests w P p) {i : ι}
    (hP : actors app (requests i) ⊆ P)
    (hi : Standing app (requests i).1 p.shared.db) :
    Sound app requests w P (Pool.step (server app.env) p i) ∧
      (apiCycle P).May p.shared.db (Pool.step (server app.env) p i).shared.db := by
  obtain ⟨harriving, hstep⟩ := h.arriving.step (fun _ _ _ _ _ => id) (i := i) fun _ _ =>
    ApiRequest.among_standing hP {} p.shared ⟨rfl, hi⟩
  refine ⟨⟨harriving, h.lives.trans hstep, fun j hj => ?_⟩, hstep⟩
  by_cases hji : j = i
  · subst hji
    exact hi.of_may hstep
  · rw [Pool.step_prog_of_ne hji] at hj
    exact (h.standing j hj).of_may hstep

end Sound

variable [DecidableEq ι]

/-- **No token is forged**: when a request begins, a token of it that would be accepted has been
given out. -/
def Unforged (app : App V D) (requests : ι → Credentials × ApiRequest V) (w : World V D)
    (sched : List ι) : Prop :=
  Pool.Guarded (server app.env) (fun p i => p.prog i = (arrivals app requests w).prog i →
    ∀ me, SpeaksFor app.env app.crypto app.reader (requests i).1 me →
      ∃ text, resolveBearerToken (requests i).1 = some text ∧
        GivenOut app w.db p (app.reader.read text)) (arrivals app requests w) sched

/-- **Where no token is forged** every principal that takes part is an account, and the rows live
by the life cycles of those that do. -/
theorem standing_play (hstr : ∀ s, app.crypto.str (.str s) = s)
    (h : Unforged app requests w sched) :
    Sound app requests w (speakers app requests sched)
        (Pool.play (server app.env) (arrivals app requests w) sched) ∧
      ∀ i ∈ sched, Standing app (requests i).1
        (Pool.play (server app.env) (arrivals app requests w) sched).shared.db := by
  have hstart : Sound app requests w (speakers app requests sched) (arrivals app requests w) :=
    ⟨fun _ => .inl ⟨rfl, rfl⟩, .refl _, fun _ hi => absurd rfl hi⟩
  have hspeakers : ∀ {i}, i ∈ sched → actors app (requests i) ⊆ speakers app requests sched :=
    fun hi _ hme => ⟨_, hi, hme⟩
  constructor
  · refine h.mem.invariant (fun p i hok hp => ?_) hstart
    exact (hp.step (hspeakers hok.1) (hp.standing_moving hstr hok.2)).1
  · refine h.mem.gather (I := Sound app requests w (speakers app requests sched))
      (φ := fun i p => Standing app (requests i).1 p.shared.db) (fun p i hok hp => ?_)
      (fun p i hok hp => hp.standing_moving hstr hok.2) (fun p i j hok hp hj => ?_) hstart
    · exact (hp.step (hspeakers hok.1) (hp.standing_moving hstr hok.2)).1
    · exact hj.of_may (hp.step (hspeakers hok.1) (hp.standing_moving hstr hok.2)).2

/-! ### What nobody gains -/

theorem UserRole.value_injective : Function.Injective UserRole.value := by
  intro role role' h
  cases role <;> cases role' <;> first | rfl | exact absurd h (by decide)

/-- **An account of staff has been there from the beginning.** -/
theorem AccountOf.of_staff {P : Set PrincipalDetails} {db db' : Db} {me : PrincipalDetails}
    (h : AccountOf db' me) (hmay : (apiCycle P).May db db') {role : UserRole}
    (hrole : role.value ∈ me.roles) (hstaff : role = .admin ∨ role = .charger) :
    AccountOf db me := by
  obtain ⟨u', hu', rfl⟩ := h
  obtain rfl : role = u'.role := UserRole.value_injective (List.mem_singleton.mp hrole)
  obtain ⟨u, hu, hbecomes⟩ | ⟨u, hborn, hbecomes⟩ := hmay.origin .user u' hu'
  · exact ⟨u, hu, (principalOf_of_columns hbecomes.1).symm⟩
  · -- the accounts that are added are those of caregivers and workers
    obtain ⟨-, -, hsame⟩ : apiColumns .user u u' := hbecomes.1
    rw [hsame] at hstaff
    obtain hborn | ⟨hborn, -⟩ := hborn <;> rw [hborn] at hstaff <;> simp at hstaff

/-- **Who is answered**: a request with a guard is answered to an account with a role
the guard asks for, and an administrator or a charger has been one from the beginning.

Tokens are taken at their word by the guards, so this is a statement about all tokens
that are around: each was issued for an account with its roles, and no request changes
the role of an account or adds an administrator or a charger (`standing_play`). -/
theorem answered_account (hstr : ∀ s, app.crypto.str (.str s) = s)
    (h : Unforged app requests w sched) {i : ι} {response : ApiResponse V}
    (hi : (Pool.play (server app.env) (arrivals app requests w) sched).Returned i response) :
    (∃ request, (requests i).2 = .anyone request) ∨
      ∃ me, PassesGuard app (requests i).1 (requests i).2 me ∧
        AccountOf (Pool.play (server app.env) (arrivals app requests w) sched).shared.db me ∧
        ∀ role : UserRole, role.value ∈ me.roles → role = .admin ∨ role = .charger →
          AccountOf w.db me := by
  obtain ⟨hsound, -⟩ := standing_play hstr h
  obtain ⟨⟨⟨hauthorized, -⟩, -⟩, hstanding⟩ := hsound.answered hi
  refine hauthorized.imp_right fun ⟨me, hme⟩ => ?_
  have hthere := hstanding me hme.1
  exact ⟨me, hme, hthere, fun role hrole => hthere.of_staff hsound.lives hrole⟩

/-- An installation on which one text spells a token, and the others spell none. -/
def App.knowing (token : Json) : App Json (List String) where
  env := still
  crypto := .plain
  reader := ⟨fun text => if text = "token" then token else .null, fun _ => none⟩
  pydantic := .plain
  renderers := .plain
  files := { StorageService.memory with openKey := fun _ _ => .ok [] }
  ilike := fun _ _ => true
  lower := id

/-- Somebody signs up, and somebody presents the access token of the first account. -/
def newcomer : Bool → Credentials × ApiRequest Json
  | false => ({}, .anyone (.signupCaregiver
      { username := "carer", email := "carer@rooti", password := "secret", name := "Carer" }))
  | true => ({ authorization := some "Bearer token" }, .member .caregiverMe)

/-- The token, and the schedule in which it is presented after it has been given out. -/
def newcomerToken : Json := tokenClaims {} 1 "carer" ["CAREGIVER"] .access 0

def newcomerWorld : World Json (List String) := World.fresh (Database.empty schema) []

/-- The signup, and what follows it. -/
def enrolled (later : List Bool) :
    Pool (Cmd Json (List String)) Err Session (World Json (List String)) Bool (ApiResponse Json) :=
  Pool.play (server still) (arrivals (.knowing newcomerToken) newcomer newcomerWorld)
    (List.replicate 11 false ++ later)

/-- The signup has been answered the token. -/
def SignedUp
    (p : Pool (Cmd Json (List String)) Err Session (World Json (List String)) Bool
      (ApiResponse Json)) : Prop :=
  ∃ pair, p.Returned false (.tokens pair) ∧ pair.accessToken = newcomerToken

/-- The access token an answer gives out. -/
def answeredToken : Option (ApiResponse Json) → Option Json
  | some (.tokens pair) => some pair.accessToken
  | _ => none

theorem enrolled_nil : SignedUp (enrolled []) := by
  have hanswer : answeredToken ((enrolled []).answer? false) = some newcomerToken := by
    decide +kernel
  unfold SignedUp Pool.Returned
  unfold Pool.answer? at hanswer
  cases hprog : (enrolled []).prog false with
  | ret response =>
      rw [hprog] at hanswer
      cases response with
      | tokens pair => exact ⟨pair, rfl, Option.some.inj hanswer⟩
      | _ => cases hanswer
  | raise e => simp [hprog, answeredToken] at hanswer
  | call c k => simp [hprog, answeredToken] at hanswer

/-- The caregiver who has just signed up on an empty installation is served. -/
theorem answered_account_newcomer :
    ∃ response, (enrolled [true, true, true]).Returned true response ∧
      ((∃ request, (newcomer true).2 = .anyone request) ∨
        ∃ me, PassesGuard (.knowing newcomerToken) (newcomer true).1 (newcomer true).2 me ∧
          AccountOf (enrolled [true, true, true]).shared.db me ∧
          ∀ role : UserRole, role.value ∈ me.roles → role = .admin ∨ role = .charger →
            AccountOf newcomerWorld.db me) := by
  obtain ⟨response, hresponse⟩ : ∃ response, (enrolled [true, true, true]).Returned true response :=
    Pool.returned_of_answer? (by decide +kernel)
  have hsignup : Unforged (.knowing newcomerToken) newcomer newcomerWorld
      (List.replicate 11 false) := by
    refine .of_invariant (I := fun _ => True) (fun _ _ i hi _ me hme => ?_) (fun _ _ _ _ => trivial)
      trivial
    obtain rfl := List.eq_of_mem_replicate hi
    obtain ⟨-, text, -, htext, -⟩ := hme
    exact absurd htext nofun
  refine ⟨response, hresponse, answered_account (fun _ => rfl)
    (hsignup.append (.of_invariant (I := SignedUp) (fun q hq i hi _ me _ => ?_)
      (fun q hq i hi => ?_) enrolled_nil)) hresponse⟩
  · obtain rfl : i = true := by simpa using hi
    obtain ⟨pair, hpair, htoken⟩ := hq
    exact ⟨"token", by decide +kernel, .inr ⟨false, pair, hpair, .inl htoken.symm⟩⟩
  · obtain rfl : i = true := by simpa using hi
    obtain ⟨pair, hpair, htoken⟩ := hq
    exact ⟨pair, (Pool.step_prog_of_ne (by decide)).trans hpair, htoken⟩

/-- The roles without which a table stays as it is. -/
def supervisors : Entity → Option (List UserRole)
  | .company | .companyCharger => some [.admin]
  | .companyWorker | .jobStandard | .jobProcess | .jobWorker | .companyKiosk | .leave
  | .journalEmailSchedule | .bulkEmailJob => some [.admin, .charger]
  | .caregiverDocumentType => some []
  | _ => none

/-- **A table is left alone** without the roles that supervise it. -/
theorem rows_of_supervisors {P : Set PrincipalDetails} {db db' : Db} {t : Entity}
    {roles : List UserRole} (ht : supervisors t = some roles) (hnone : ∀ role ∈ roles, ¬Has P role)
    (hmay : (apiCycle P).May db db') (r : Row t) : r ∈ db'.rows t ↔ r ∈ db.rows t := by
  have hquiet : (∀ r, ¬apiBorn P t r) ∧ (∀ r r', (apiCycle P).becomes t r r' → r' = r) ∧
      ¬apiMortal P t := by
    cases t <;> simp only [supervisors, reduceCtorEq, Option.some.injEq] at ht
    all_goals
      subst ht
      simp only [List.forall_mem_cons, List.not_mem_nil, IsEmpty.forall_iff, implies_true,
        and_true] at hnone
      refine ⟨fun r => ?_, fun r r' hr => ?_, ?_⟩
      all_goals first
        | exact hr.1
        | exact (hr.2.resolve_left fun hhas => by simp_all [Staff])
        | simp_all [apiBorn, apiMortal, Staff]
  obtain ⟨hborn, hsame, himmortal⟩ := hquiet
  constructor
  · intro hr
    obtain ⟨r₀, hr₀, hbecomes⟩ | ⟨r₀, hr₀, -⟩ := hmay.origin t r hr
    · rwa [hsame r₀ r hbecomes]
    · exact absurd hr₀ (hborn r₀)
  · intro hr
    obtain ⟨r', hr', hbecomes⟩ := hmay.fate t himmortal r hr
    rwa [← hsame r r' hbecomes]

/-- **Nobody gains a role**: the rows that only staff of some roles changes stay as they are if
there is no account with one of these roles at the beginning, whoever signs up and whatever tokens
are given out meanwhile. -/
theorem rows_of_no_staff (hstr : ∀ s, app.crypto.str (.str s) = s)
    (h : Unforged app requests w sched) {t : Entity} {roles : List UserRole}
    (ht : supervisors t = some roles) (hnone : ∀ u ∈ w.db.rows .user, u.role ∉ roles) (r : Row t) :
    r ∈ (Pool.play (server app.env) (arrivals app requests w) sched).shared.db.rows t ↔
      r ∈ w.db.rows t := by
  obtain ⟨hsound, hstanding⟩ := standing_play hstr h
  refine rows_of_supervisors ht (fun role hrole => ?_) hsound.lives r
  rintro ⟨me, ⟨i, hi, -, hme⟩, hvalue⟩
  have hstaff : role = .admin ∨ role = .charger := by
    cases t <;> simp only [supervisors, reduceCtorEq, Option.some.injEq] at ht
    all_goals
      subst ht
      simp_all
  obtain ⟨u, hu, rfl⟩ := (hstanding i hi me hme.1).of_staff hsound.lives hvalue hstaff
  obtain rfl : role = u.role := UserRole.value_injective (List.mem_singleton.mp hvalue)
  exact hnone u hu hrole

end Unforged

/-- The token of the charger of the sample. -/
def chargerToken : Json := tokenClaims {} 2 "charger" ["CHARGER"] .access 0

/-- Whoever presents it is taken for the charger. -/
theorem charger_of_speaksFor {request : Credentials} {me : PrincipalDetails}
    (h : SpeaksFor still .plain (App.knowing chargerToken).reader request me) :
    me = ⟨2, "charger", ["CHARGER"], true, true⟩ := by
  obtain ⟨n, text, payload, -, -, hparse, rfl⟩ := h
  have hcharger : parseTokenAt {} Crypto.plain (some .access) 0 chargerToken =
      .ok (issuedPayload {} 2 "charger" ["CHARGER"] .access 0) := by decide +kernel
  have hnone : (parseTokenAt {} Crypto.plain (some .access) 0 .null).toOption.isNone := by
    decide +kernel
  change parseTokenAt {} Crypto.plain (some .access) 0
    (if text = "token" then chargerToken else .null) = .ok payload at hparse
  split at hparse
  · obtain rfl := Except.ok.inj (hparse.symm.trans hcharger)
    rfl
  · rw [hparse] at hnone
    cases hnone

/-- A charger who asks to switch off the company. -/
def presumption : Unit → Credentials × ApiRequest Json :=
  fun _ => ({ authorization := some "Bearer token" }, .member (.deactivateCompany 1))

/-- The charger of the sample is no administrator, and its company stays as it is. -/
theorem rows_of_no_staff_charger :
    ⟨1, "Workshop", none, true, none, none, none, none, none⟩ ∈ (Pool.play (server still)
      (arrivals (.knowing chargerToken) presumption (World.fresh Db.sample []))
        (List.replicate 9 ())).shared.db.rows .company ↔
      ⟨1, "Workshop", none, true, none, none, none, none, none⟩ ∈ Db.sample.rows .company := by
  have hissued : Issued (.knowing chargerToken) Db.sample chargerToken :=
    ⟨principalOf ⟨2, "charger", none, "", "Charger", none, .charger, true, none⟩,
      ⟨_, by decide +kernel, rfl⟩, .access, 0, rfl⟩
  have htext : resolveBearerToken { authorization := some "Bearer token" } = some "token" := by
    decide +kernel
  have hunforged : Unforged (.knowing chargerToken) presumption (World.fresh Db.sample [])
      (List.replicate 9 ()) :=
    .of_invariant (I := fun _ => True) (fun _ _ _ _ _ _ _ => ⟨"token", htext, .inl hissued⟩)
      (fun _ _ _ _ => trivial) trivial
  have hnone : ∀ u ∈ Db.sample.rows .user, u.role ∉ [UserRole.admin] := by decide +kernel
  exact rows_of_no_staff (t := .company) (fun _ => rfl) hunforged rfl hnone _

end Rooti
