import Rooti.Access.Registration
import Rooti.Auth.Tokens
import Rooti.RefreshTokens.Rotation

/-!
# Whose tokens there are

The principal of a request is what its token says; the account is not looked up.  That is sound
because accounts keep their names and roles (`apiCycle`): a token that was issued for an account
goes on saying what is true of it, whatever has happened in between.

`Issued` says of a token that it was issued for an account of the database, and is stable.  Logging
in, refreshing and signing up return issued tokens; the account of somebody who signs up is there
once the transaction has ended.  A request whose token was issued is taken to be from an account
(`accountOf_of_issued`).

## Main definitions

* `principalOf`, `AccountOf` — the principals that are accounts
* `Issued` — the tokens of accounts

## What carries the proof

The claims of a token are fixed when it is created, and the columns of an account that
they name are never assigned to. So `Issued` is stable under everything that requests do
(`Issued.of_may`), and it has to be shown only where tokens come from. That is three
places, which all end in `issueTokenPair` for an account the session has seen: one that
was looked up is committed, and stays an account whatever the others do; one that signs
up is in the database only after the commit, so its tokens are those of an account when
the transaction has ended, and not before.
-/

namespace Rooti

open Relational Program

variable {V D : Type}

/-! ## Accounts and their tokens -/

section Accounts

variable {app : App V D} {P : Set PrincipalDetails} {db db' : Db} {token : V}

/-- The principal an account is. -/
def principalOf (u : User) : PrincipalDetails where
  userId := u.id
  username := u.username
  roles := [u.role.value]

/-- The principal is an account of the database. -/
def AccountOf (db : Db) (me : PrincipalDetails) : Prop := ∃ u ∈ db.rows .user, principalOf u = me

/-- **The token was issued for an account of the database.** -/
def Issued (app : App V D) (db : Db) (token : V) : Prop :=
  ∃ me, AccountOf db me ∧ ∃ tokenType iat, app.crypto.jwt.verify token =
    .ok (tokenClaims app.env.settings me.userId me.username me.roles tokenType iat)

/-- The principal is made of columns that stay as they are. -/
theorem principalOf_of_columns {u u' : User} (h : apiColumns .user u u') :
    principalOf u' = principalOf u := by
  obtain ⟨hid, hname, hrole⟩ := h
  unfold principalOf
  rw [hid, hname, hrole]

/-- **An account stays one.** -/
theorem AccountOf.of_may {me : PrincipalDetails} (h : AccountOf db me)
    (hmay : (apiCycle P).May db db') : AccountOf db' me := by
  obtain ⟨u, hu, rfl⟩ := h
  obtain ⟨u', hu', hbecomes⟩ := hmay.fate .user id u hu
  exact ⟨u', hu', principalOf_of_columns hbecomes.1⟩

/-- A token that was issued stays one. -/
theorem Issued.of_may (h : Issued app db token) (hmay : (apiCycle P).May db db') :
    Issued app db' token :=
  h.imp fun _ hme => ⟨hme.1.of_may hmay, hme.2⟩

/-- The ids of stored rows can be written and read. -/
theorem strFits_of_bigint {n : ℤ} (h : bigint n) : Py.strFits n := by
  have hrange : -2 ^ 63 ≤ n ∧ n < 2 ^ 63 := of_decide_eq_true h
  have habs : n.natAbs < 10 ^ 19 := by omega
  have hdigits : 19 ≤ Py.maxStrDigits := by decide
  exact habs.trans_le (Nat.pow_le_pow_right (by decide) hdigits)

/-- **A token that was issued speaks for an account.** -/
theorem accountOf_of_issued (hstr : ∀ s, app.crypto.str (.str s) = s) {request : Credentials}
    {text : String} (htext : resolveBearerToken request = some text)
    (h : Issued app db (app.reader.read text)) {me : PrincipalDetails}
    (hme : SpeaksFor app.env app.crypto app.reader request me) : AccountOf db me := by
  obtain ⟨n, text', payload, htext', -, hparse, rfl⟩ := hme
  obtain rfl : text' = text := Option.some.inj (htext'.symm.trans htext)
  obtain ⟨_, ⟨u, hu, rfl⟩, tokenType, iat, hverify⟩ := h
  obtain ⟨claims, hclaims, hpayload⟩ := parseTokenAt_ok hparse
  obtain rfl := Except.ok.inj (hclaims.symm.trans hverify)
  have hid : Py.strFits (principalOf u).userId :=
    strFits_of_bigint (bigint_of_find? (Table.find?_eq_some.mpr ⟨hu, rfl⟩))
  rw [payloadOfClaims_tokenClaims hstr hid] at hpayload
  split at hpayload
  · obtain rfl := Except.ok.inj hpayload
    refine ⟨u, hu, ?_⟩
    simp [JwtPayload.principal, issuedPayload, principalOf]
  · cases hpayload

end Accounts

/-! ## Who issues tokens -/

section Issuers

variable {app : App V D} {P : Set PrincipalDetails}

/-- The tokens of a pair were created for a principal. -/
def CreatedFor (app : App V D) (me : PrincipalDetails) (pair : TokenResponse V) : Prop :=
  ∀ token, token = pair.accessToken ∨ token = pair.refreshToken → ∃ tokenType iat,
    app.crypto.jwt.verify token =
      .ok (tokenClaims app.env.settings me.userId me.username me.roles tokenType iat)

/-- Both tokens of a pair are created for the account. -/
theorem returns_issueTokenPair (user : User) :
    (issueTokenPair app.env app.crypto user : Async V D (TokenResponse V)).Returns
      (CreatedFor app (principalOf user)) := by
  have hcreate : ∀ tokenType : TokenType,
      (createToken app.env app.crypto user.id user.username [user.role.value] tokenType :
        Async V D V).Returns fun token => ∃ iat, app.crypto.jwt.verify token =
          .ok (tokenClaims app.env.settings user.id user.username [user.role.value] tokenType iat) :=
    fun tokenType => .bind fun t => ⟨nowEpoch t, app.crypto.jwt.verify_encode _⟩
  refine (hcreate .access).andThen fun access haccess =>
    (hcreate .refresh).andThen fun refresh hrefresh => .bind fun _ => ?_
  rintro token (rfl | rfl)
  · exact ⟨.access, haccess⟩
  · exact ⟨.refresh, hrefresh⟩

/-- The account is there, now and later. -/
def account (me : PrincipalDetails) : Assertion Session (cycleRely P : Rely (World V D)) :=
  .shared (fun w => AccountOf w.db me) fun hmay h => h.of_may hmay

/-- **The tokens returned are those of accounts.** -/
def issuing (app : App V D) (pair : TokenResponse V) :
    Assertion Session (cycleRely P : Rely (World V D)) :=
  .shared (fun w => Issued app w.db pair.accessToken ∧ Issued app w.db pair.refreshToken)
    fun hmay h => ⟨h.1.of_may hmay, h.2.of_may hmay⟩

/-- A pair that is created for an account holds tokens that were issued. -/
theorem issuing_of_account {me : PrincipalDetails} {pair : TokenResponse V}
    (hpair : CreatedFor app me pair) {s : Session} {w : World V D}
    (h : (account me : Assertion Session (cycleRely P)) s w) :
    (issuing app pair : Assertion Session (cycleRely P)) s w :=
  ⟨⟨me, h, hpair _ (.inl rfl)⟩, ⟨me, h, hpair _ (.inr rfl)⟩⟩

/-- An answer with tokens is one with tokens of accounts. -/
def tokensIssued (app : App V D) : ApiResponse V → Assertion Session (cycleRely P : Rely (World V D))
  | .tokens pair => issuing app pair
  | _ => .own fun _ => True

/-- A script within the life cycles, about an account that is there. -/
theorem among_about {F : Footprint} {α : Type} {p : Async V D α} {me : PrincipalDetails}
    (hp : Within F p) (hF : F.Allows (cycleRely P : Rely (World V D))) :
    (server app.env).Among (cycleRely P) (cycleRely P) (blank.both (account me)) p
      (fun _ => (recording (cycleRely P)).both (account me)) fun _ => recording (cycleRely P) :=
  ((among_of_blank hp hF).frame (fun _ _ => id) (fun w => AccountOf w.db me)
    fun hmay h => h.of_may hmay).weaken (fun _ _ => id) (fun _ _ _ => id) fun _ _ _ h => h.1

variable (hidle : ({} : Footprint).Allows (cycleRely P : Rely (World V D)))

include hidle in
/-- **A login returns tokens of the account.** -/
theorem among_login {req : LoginRequest}
    (hF : (PublicRequest.login (V := V) req).footprint.Allows (cycleRely P : Rely (World V D))) :
    (server app.env).Among (cycleRely P) (cycleRely P) blank
      (AuthService.login app.env app.crypto req)
      (fun pair => (recording (cycleRely P)).both (issuing app pair))
      fun _ => recording (cycleRely P) := by
  refine .bind (Q := fun found => blank.both (.shared
    (fun w => ∀ u ∈ found, AccountOf w.db (principalOf u)) fun hmay h u hu => (h u hu).of_may hmay))
    ?_ fun found => ?_
  · refine .bind (among_select hidle (fun users db => ∀ u ∈ users, AccountOf db (principalOf u))
      (fun _ _ _ hmay h u hu => (h u hu).of_may hmay)
      fun _ _ u hu => ⟨u, List.mem_of_mem_filter hu, rfl⟩) fun users => ?_
    rcases users with _ | ⟨u, _ | ⟨u', users⟩⟩
    · exact .ret fun _ _ hs => ⟨hs.1, by rintro _ ⟨⟩⟩
    · refine .ret fun _ _ hs => ⟨hs.1, ?_⟩
      rintro _ ⟨⟩
      exact hs.2 u List.mem_cons_self
    · exact .raise fun _ _ hs => recording_of_drafts hidle (drafts_of_blank hs.1)
  · refine .bind (Q := fun user => blank.both (account (principalOf user)))
      (.orRaise (fun user huser _ _ hs => ⟨hs.1, hs.2 user huser⟩)
        fun _ _ hs => recording_of_drafts hidle (drafts_of_blank hs.1)) fun user => ?_
    have hrest : Within (PublicRequest.login (V := V) req).footprint
        ((Prog.raiseIf (!user.enabled) authAccountDisabledException).bind fun _ =>
          (Prog.raiseIf (!verifyPassword app.crypto.bcrypt req.password user.passwordHash)
            authInvalidCredentialsException).bind fun _ =>
              (AuthService.recordLogin app.env user req.fcmToken).bind fun _ =>
                issueTokenPair app.env app.crypto user : Async V D (TokenResponse V)) :=
      .bind .raiseIf fun _ => .bind .raiseIf fun _ =>
        .bind (.recordLogin Set.subset_union_left Set.subset_union_right) fun _ =>
          .issueTokenPair subset_rfl
    refine ((among_about hrest hF).returning (φ := CreatedFor app (principalOf user))
      ?_).weaken (fun _ _ => id) ?_ fun _ _ _ => id
    · exact .bind fun _ => .bind fun _ => .bind fun _ => returns_issueTokenPair user
    · exact fun pair _ _ hs => ⟨hs.2.1, issuing_of_account hs.1 hs.2.2⟩

include hidle in
/-- **A refresh returns tokens of the account** that is looked up. -/
theorem among_refresh [DecidableEq V] {refreshToken : V}
    (hF : (PublicRequest.refresh refreshToken).footprint.Allows (cycleRely P : Rely (World V D))) :
    (server app.env).Among (cycleRely P) (cycleRely P) blank
      (AuthService.refresh app.env app.crypto refreshToken)
      (fun pair => (recording (cycleRely P)).both (issuing app pair))
      fun _ => recording (cycleRely P) := by
  refine .bind (among_reading .parseToken hidle) fun payload =>
    .bind (among_reading (.bind .redisGet fun _ => .ret) hidle) fun matched => ?_
  have hrevoke : (server app.env).Among (cycleRely P) (cycleRely P) blank
      ((RefreshTokenStore.remove payload.userId).bind fun _ =>
        Prog.raise authRefreshNotFoundException : Async V D (TokenResponse V))
      (fun pair => (recording (cycleRely P)).both (issuing app pair))
      fun _ => recording (cycleRely P) :=
    .bind (among_of_blank (F := (PublicRequest.refresh refreshToken).footprint)
      (.redisDel ⟨_, rfl⟩) hF) fun _ => .raise fun _ _ hs => hs
  refine .ite (fun _ => ?_) fun _ => hrevoke
  refine .bind (among_select hidle (fun found db => ∀ u ∈ found, AccountOf db (principalOf u))
    (fun _ _ _ hmay h u hu => (h u hu).of_may hmay)
    fun _ _ u hu => ⟨u, Table.find?_mem hu, rfl⟩) fun found => ?_
  refine .bind (Q := fun user => blank.both (account (principalOf user)))
    (.orRaise (fun user huser _ _ hs => ⟨hs.1, hs.2 user huser⟩)
      fun _ _ hs => recording_of_drafts hidle (drafts_of_blank hs.1)) fun user => ?_
  refine .ite (fun _ => ?_) fun _ => hrevoke.weaken (fun _ _ h => h.1) (fun _ _ _ => id)
    fun _ _ _ => id
  refine ((among_about (.issueTokenPair subset_rfl) hF).returning
    (returns_issueTokenPair user)).weaken (fun _ _ => id) ?_ fun _ _ _ => id
  exact fun pair _ _ hs => ⟨hs.2.1, issuing_of_account hs.1 hs.2.2⟩

/-! ### Signing up -/

variable {req : CaregiverSignupRequest}
  (hF : (PublicRequest.signupCaregiver (V := V) req).footprint.Allows
    (cycleRely P : Rely (World V D)))

include hF in
/-- **A signup announces its account** before it returns tokens for it. -/
theorem among_signup :
    (server app.env).Among (cycleRely P) (cycleRely P) blank
      (AuthService.signupAsCaregiver app.env app.crypto req : Async V D (TokenResponse V))
      (fun pair => (drafts (PublicRequest.signupCaregiver (V := V) req).footprint).both
        (announcing app.env fun u => CreatedFor app (principalOf u) pair ∧
          u.username = req.username))
      fun _ => recording (cycleRely P) := by
  have hsplit : (AuthService.signupAsCaregiver app.env app.crypto req :
      Async V D (TokenResponse V)) =
      ((AuthService.existsUsername req.username).bind fun taken =>
        (Prog.raiseIf taken (userUsernameDuplicatedException req.username)).bind fun _ =>
          (AuthService.existsEmail req.email).bind fun used =>
            (Prog.raiseIf used (userEmailDuplicatedException req.email)).bind fun _ =>
              hashPassword app.crypto.bcrypt req.password).bind fun passwordHash =>
        (add .user (AuthService.caregiverUser req passwordHash)).bind fun newUser =>
          flush.bind fun _ => (add .caregiver fun new => { id := new.id, userId :=
            (AuthService.caregiverUser req passwordHash newUser).id }).bind fun _ =>
              flush.bind fun _ => issueTokenPair app.env app.crypto
                (AuthService.caregiverUser req passwordHash newUser) := by
    simp only [AuthService.signupAsCaregiver, Prog.bind_eq, Prog.bind_assoc]
  rw [hsplit]
  refine among_register hF ?_ (fun c new => ?_) (fun c new => ?_) (fun c new => ?_) fun c new => ?_
  · exact .bind .select fun _ => .bind .raiseIf fun _ => .bind .select fun _ =>
      .bind .raiseIf fun _ => .hashPassword
  · exact .inl ⟨_, ⟨rfl, rfl⟩, rfl⟩
  · exact .bind (.add Set.subset_union_right (fun _ => trivial) fun _ => rfl) fun _ =>
      .bind .flush fun _ => .issueTokenPair subset_rfl
  · exact .bind (.lift rfl) fun _ => .bind (.lift rfl) fun _ =>
      .bind (.bind (.lift rfl) fun _ => .ret) fun _ => .bind (.bind (.lift rfl) fun _ => .ret)
        fun _ => .bind (.lift rfl) fun _ => .ret
  · exact .bind fun _ => .bind fun _ =>
      (returns_issueTokenPair _).mono fun pair hpair => ⟨hpair, rfl⟩

include hF in
/-- **The end of the transaction adds the account** that was announced. -/
theorem among_endTransaction_announced {pair : TokenResponse V} {φ : User → Prop} :
    (server app.env).Among (cycleRely P) (cycleRely P)
      ((drafts (PublicRequest.signupCaregiver (V := V) req).footprint).both
        (announcing app.env fun u => CreatedFor app (principalOf u) pair ∧ φ u))
      (endTransaction app.env) (fun _ => blank.both (issuing app pair))
      fun _ => recording (cycleRely P) := by
  rintro s w ⟨hs, hannounced⟩
  rw [endTransaction_eq_commit hannounced]
  obtain ⟨-, u, ⟨hpair, -⟩, hsent⟩ := hannounced
  -- what the session is about to do is known of it alone
  refine Machine.Among.lift (P := (drafts (PublicRequest.signupCaregiver (V := V) req).footprint).both
    (.own (sent u))) (fun s w ⟨hs, hsent⟩ => ?_) s w ⟨hs, hsent⟩
  have hexec := hF.exec app.env (c := (.commit : Cmd V D Unit)) trivial w hs
  refine ⟨hexec.1, ?_⟩
  have hdrafts := hexec.2
  change ∀ d ∈ (execCommit app.env s w).2.1.statements, _ at hdrafts
  change Machine.outcome _ _ (execCommit app.env s w).1 (execCommit app.env s w).2.1
    (execCommit app.env s w).2.2
  cases h : (execCommit app.env s w).1 with
  | error e => exact recording_of_drafts hF hdrafts
  | ok =>
      obtain ⟨hblank, ds, hds, hinsert, happly⟩ := execCommit_sent hs hsent h
      obtain ⟨u', hu', hbecomes⟩ := LifeCycle.exists_of_insert (L := apiCycle P) hinsert happly id
        fun ds' hds' db₁ happly' => hF.commit { w with db := db₁ } ds' _
          (fun d hd => hds d (hds' hd)) happly'
      rw [hblank]
      exact ⟨rfl, issuing_of_account hpair ⟨u', hu', principalOf_of_columns hbecomes.1⟩⟩

/-! ### Answers with tokens -/

/-- The end of a transaction leaves the accounts of tokens where they are. -/
theorem among_endTransaction_issuing {pair : TokenResponse V} :
    (server app.env).Among (cycleRely P) (cycleRely P)
      ((recording (cycleRely P)).both (issuing app pair)) (endTransaction app.env)
      (fun _ => blank.both (issuing app pair)) fun _ => recording (cycleRely P) := by
  have hend : (server app.env).Among (cycleRely P) (cycleRely P)
      ((recording (cycleRely P)).knowing True) (endTransaction app.env : Async V D Unit)
      (fun _ => blank.knowing True) fun _ => recording (cycleRely P) := among_endTransaction
  refine (hend.frame (fun _ _ => id) (fun w => Issued app w.db pair.accessToken ∧
    Issued app w.db pair.refreshToken) fun hmay h => ⟨h.1.of_may hmay, h.2.of_may hmay⟩).weaken
      (fun _ _ hs => ⟨⟨trivial, hs.1⟩, hs.2⟩) (fun _ _ _ hs => ⟨hs.1.2, hs.2⟩) fun _ _ _ hs => hs.1

/-- **The tokens a request without a principal is answered** are those of accounts, once its
transaction has ended. -/
theorem PublicRequest.among_session [DecidableEq V] (request : PublicRequest V)
    (hF : request.footprint.Allows (cycleRely P : Rely (World V D))) :
    (server app.env).Among (cycleRely P) (cycleRely P) blank
      (getDbSession app.env (request.endpoint app))
      (fun response => blank.both (tokensIssued app response)) fun _ => blank := by
  have hother : ∀ R : Rely (World V D), (server app.env).Among (cycleRely P) R
      ((recording R).both (.own fun _ => True)) (endTransaction app.env)
      (fun _ => blank.both (.own fun _ => True)) fun _ => recording R := fun R =>
    (among_endTransaction (φ := True)).weaken (fun _ _ hs => ⟨trivial, hs.1⟩)
      (fun _ _ _ hs => ⟨hs.2, trivial⟩) fun _ _ _ => id
  -- a request that has its tokens before its transaction ends
  have hissued : ∀ p : Async V D (TokenResponse V), (server app.env).Among (cycleRely P)
      (cycleRely P) blank p (fun pair => (recording (cycleRely P)).both (issuing app pair))
      (fun _ => recording (cycleRely P)) →
      (server app.env).Among (cycleRely P) (cycleRely P) blank
        (getDbSession app.env (p.bind fun pair => .ret (.tokens pair)))
        (fun response => blank.both (tokensIssued app response)) fun _ => blank := by
    intro p hp
    refine among_getDbSession (hp.bind fun pair => .ret (a := ApiResponse.tokens pair)
      fun _ _ hs => hs : (server app.env).Among _ _ _ _ (fun response =>
        (recording (cycleRely P)).both (tokensIssued app response)) _) fun response => ?_
    cases response with
    | tokens pair => exact among_endTransaction_issuing
    | _ => exact hother _
  cases request with
  | login req => exact hissued _ (among_login hF.idle hF)
  | refresh refreshToken => exact hissued _ (among_refresh hF.idle hF)
  | signupCaregiver req =>
      refine among_getDbSession ((among_signup hF).bind fun pair => .ret
        (a := ApiResponse.tokens pair) fun _ _ hs => hs : (server app.env).Among _ _ _ _
          (fun response => match response with
            | .tokens pair => (drafts (PublicRequest.signupCaregiver (V := V) req).footprint).both
                (announcing app.env fun u => CreatedFor app (principalOf u) pair ∧
                  u.username = req.username)
            | _ => (recording (cycleRely P)).both (.own fun _ => True)) _) fun response => ?_
      cases response with
      | tokens pair => exact among_endTransaction_announced hF
      | _ => exact hother _

end Issuers

/-! ### The answers of all requests -/

section Answers

variable {app : App V D} {credentials : Credentials} {P : Set PrincipalDetails}

/-- The transaction around a script changes nothing about its answers. -/
theorem returns_getDbSession {α : Type} {φ : α → Prop} {env : Env} {p : Async V D α}
    (h : p.Returns φ) : (getDbSession env p).Returns φ :=
  .handle (h.andThen fun _ ha => .bind fun _ => ha) fun _ => .bind fun _ => trivial

/-- No other endpoint returns tokens. -/
theorem MemberRequest.returns_other {me : PrincipalDetails} (request : MemberRequest) :
    (request.endpoint app me).Returns fun response => ∀ pair, response ≠ .tokens pair := by
  cases request <;> exact .bind fun _ => by rintro pair ⟨⟩

/-- **Only the requests without a principal are answered tokens.** -/
theorem ApiRequest.returns_other [DecidableEq V] {request : ApiRequest V}
    (h : ∀ request', request ≠ .anyone request') :
    (request.handle app credentials).Returns fun response => ∀ pair, response ≠ .tokens pair := by
  refine (returns_getDbSession (φ := fun response => ∀ pair : TokenResponse V,
    response ≠ ApiResponse.tokens pair) ?_).andThen fun _ hother => .bind fun _ => hother
  cases request with
  | anyone request => exact absurd rfl (h request)
  | member request => exact .bind fun _ => request.returns_other
  | confined request => exact .bind fun _ => .bind fun _ => .bind fun _ => by rintro pair ⟨⟩

/-- **Whatever a request is answered, the tokens in it are those of accounts.** -/
theorem ApiRequest.among_tokens [DecidableEq V] (request : ApiRequest V)
    (h : request.Keeps app credentials (cycleRely P : Rely (World V D))) :
    (server app.env).Among (cycleRely P) (cycleRely P) blank (request.handle app credentials)
      (fun response => (recording (cycleRely P)).both (tokensIssued app response))
      fun _ => recording (cycleRely P) := by
  by_cases hother : ∀ request', request ≠ .anyone request'
  · refine ((among_handle h).returning (returns_other hother)).weaken (fun _ _ => id) ?_
      fun _ _ _ => id
    rintro response s w ⟨hresponse, -, hs⟩
    cases response with
    | tokens pair => exact absurd rfl (hresponse pair)
    | _ => exact ⟨hs, trivial⟩
  · push Not at hother
    obtain ⟨request, rfl⟩ := hother
    have hF : request.footprint.Allows (cycleRely P : Rely (World V D)) := h none (by rintro _ ⟨⟩)
    refine .bind (((request.among_session hF).returning
      (returns_getDbSession request.returns_background)).weaken (fun _ _ => id) (fun _ _ _ => id)
        fun _ _ _ hs => recording_of_drafts hF (drafts_of_blank hs)) fun response =>
          .of_knowing fun hwithin => ?_
    have htask : (server app.env).Among (cycleRely P) (cycleRely P) blank
        ((background app response).handle fun _ => .ret ()) (fun _ => recording (cycleRely P))
        fun _ => recording (cycleRely P) :=
      .handle (among_of_blank hwithin hF) fun _ => .ret fun _ _ hs => hs
    -- an answer with tokens leaves nothing to do
    cases response with
    | tokens pair => exact .ret fun _ _ hs => ⟨recording_of_drafts hF (drafts_of_blank hs.1), hs.2⟩
    | _ =>
        refine .bind (Q := fun _ => recording (cycleRely P)) (htask.weaken ?_ (fun _ _ _ => id)
          fun _ _ _ => id) fun _ => .ret fun _ _ hs => ⟨hs, trivial⟩
        exact fun _ _ hs => hs.1

end Answers

end Rooti
