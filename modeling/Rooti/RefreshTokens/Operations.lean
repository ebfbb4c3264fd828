import Rooti.Core.Transactions
import Rooti.Services.Auth

/-!
# What the account operations do to the stored refresh tokens

The six operations that issue, consume or revoke refresh tokens, as single
requests, and the one thing each of them can do to the token store: put the
refresh token of a new pair under its user, or remove a user's token.

## Main definitions

* `AuthOp`, `AuthOp.script` — the operations
* `TokenEvent` — an issuance or a revocation
* `AuthOp.event` — the event of an operation, read off its request, the state it
  starts in and its result
* `AuthOp.redis_serve` — the store after an operation is the store before with
  that event applied

## From six scripts to one effect

Results on refresh tokens are about histories of issuances and revocations, not about
requests. This module is the bridge. `AuthOp.event` reads the event off what an
operation did, and `redis_serve` shows that the store afterwards is the store before
with this event applied, whatever else the operation wrote and whether it was answered.

Login and signup have the same shape: a prologue that leaves Redis alone (`Quiet`), then
a pair that is signed and stored. `run_issue` does both at once. A refresh is run by
cases (`run_refresh`), since here reading, comparing and revoking alternate. The store
is written before the transaction of the request ends and is not rolled back with it, so
the events are those of the script, also when the commit fails.
-/

namespace Rooti

open Relational Program

variable {V D : Type}

/-- **The account operations.** -/
inductive AuthOp (V : Type)
  | login (req : LoginRequest)
  | signup (req : CaregiverSignupRequest)
  | refresh (token : V)
  | logout (userId : ℤ)
  | changePassword (userId : ℤ) (current new : String)
  | setEnabled (userId : ℤ) (enabled : Bool)

/-- An issued token and the last instant it is served at, or a revocation. -/
inductive TokenEvent (V : Type)
  | issued (userId : ℤ) (token : V) (expires : ℤ)
  | revoked (userId : ℤ)

namespace TokenEvent

/-- The user an event is about. -/
def userId : TokenEvent V → ℤ
  | issued u _ _ => u
  | revoked u => u

/-- The effect of an event on the store. -/
def apply (e : TokenEvent V) (redis : KeyValue.Store String V) : KeyValue.Store String V :=
  match e with
  | issued u token expires => redis.set (RefreshTokenStore.key u) token expires
  | revoked u => redis.del (RefreshTokenStore.key u)

end TokenEvent

/-- The response of a token issuance whose clocks start to be read at tick `n`. -/
def issuedPair (env : Env) (crypto : Crypto V) (user : User) (n : ℕ) : TokenResponse V where
  accessToken := crypto.jwt.encode
    (tokenClaims env.settings user.id user.username [user.role.value] .access
      (nowEpoch (env.clock n)))
  refreshToken := crypto.jwt.encode
    (tokenClaims env.settings user.id user.username [user.role.value] .refresh
      (nowEpoch (env.clock (n + 1))))
  accessTtlSeconds := accessTtlSeconds env.settings
  refreshTtlSeconds := refreshTtlSeconds env.settings

/-- The last instant a token stored by the command at tick `n` is served at. -/
def storedUntil (env : Env) (n : ℕ) : ℤ :=
  env.redisClock n + refreshTtlSeconds env.settings * 1000

variable (env : Env) (crypto : Crypto V)

/-- **Issuing a pair**: two readings of the clock and one SET. A lifetime that is not
positive makes Redis refuse the SET. -/
theorem run_issueTokenPair (user : User) (s : Session) (w : World V D) :
    (server env).run (issueTokenPair env crypto user) s w =
      if refreshTtlSeconds env.settings ≤ 0 then
        (.error (.python "ResponseError" "invalid expire time in 'set' command"), s,
          w.tick.tick.tick)
      else
        (.ok (issuedPair env crypto user w.ticks), s,
          { w.tick.tick.tick with
            redis := w.redis.set (RefreshTokenStore.key user.id)
              (issuedPair env crypto user w.ticks).refreshToken
              (storedUntil env (w.ticks + 2)) }) := by
  simp only [issueTokenPair, createAccessToken, createRefreshToken, createToken,
    RefreshTokenStore.save, Prog.bind_eq, Prog.pure_eq, Prog.bind_assoc, run_now_bind,
    Prog.ret_bind, run_redisSet_bind]
  rfl

namespace AuthOp

variable [DecidableEq V]

/-- The script of an operation; issuing operations answer with the new pair. -/
def script : AuthOp V → Async V D (Option (TokenResponse V))
  | login req => do return some (← AuthService.login env crypto req)
  | signup req => do return some (← AuthService.signupAsCaregiver env crypto req)
  | refresh token => do return some (← AuthService.refresh env crypto token)
  | logout userId => do
      AuthService.logout userId
      return none
  | changePassword userId current new => do
      AuthService.changePassword crypto userId current new
      return none
  | setEnabled userId enabled => do
      let _ ← UserService.setEnabled userId enabled
      return none

/-- One operation, served by itself. -/
def serve (op : AuthOp V) (w : World V D) : Except Err (Option (TokenResponse V)) × World V D :=
  Rooti.serve env (op.script env crypto) w

/-- The run of an operation's script, before its transaction ends. -/
def run (op : AuthOp V) (w : World V D) :
    Except Err (Option (TokenResponse V)) × Session × World V D :=
  (server env).run (op.script env crypto) {} w

/-- **The event of an operation**: the issuance of the pair it returns, or the
revocation it makes.  A refresh revokes when the token is validly signed and
unexpired but not the stored one, and when it is the stored one of a disabled
user. -/
def event (op : AuthOp V) (w : World V D) : Option (TokenEvent V) :=
  match op, op.run env crypto w with
  | login req, (.ok (some pair), _, w') =>
      ((w.db.rows .user).find? fun u => u.username = req.username).map fun user =>
        .issued user.id pair.refreshToken (storedUntil env (w'.ticks - 1))
  | signup _, (.ok (some pair), _, w') =>
      some (.issued (w.seq .user + 1) pair.refreshToken (storedUntil env (w'.ticks - 1)))
  | refresh token, (r, _, w') =>
      match parseTokenAt env.settings crypto (some .refresh) (env.clock w.ticks) token with
      | .error _ => none
      | .ok p =>
          if w.redis.get (env.redisClock (w.ticks + 1)) (RefreshTokenStore.key p.userId) ≠
              some token then
            some (.revoked p.userId)
          else
            match w.db.find? .user p.userId, r with
            | none, _ => none
            | some user, .ok (some pair) =>
                if user.enabled then
                  some (.issued p.userId pair.refreshToken (storedUntil env (w'.ticks - 1)))
                else some (.revoked p.userId)
            | some user, _ => if user.enabled then none else some (.revoked p.userId)
  | logout userId, (.ok _, _, _) => some (.revoked userId)
  | changePassword userId _ _, (.ok _, _, _) => some (.revoked userId)
  | _, _ => none

end AuthOp

/-- The store after the event of an operation, if it has one. -/
def TokenEvent.applyOption (e : Option (TokenEvent V)) (redis : KeyValue.Store String V) :
    KeyValue.Store String V :=
  match e with
  | none => redis
  | some e => e.apply redis

/-! ## Issuing operations -/

/-- **An issuance after a quiet prologue.**  A script that first finds its user
without changing the shared state and then issues a pair either raises, leaving
the store as it was, or stores exactly the refresh token it returns. -/
theorem run_issue {p : Async V D User} (hp : Quiet p) (w : World V D) :
    (∃ e s w', (server env).run
        (Prog.bind p fun user => Prog.bind (issueTokenPair env crypto user) fun pair =>
          Prog.ret (some pair)) {} w = (.error e, s, w') ∧ Unchanged w w') ∨
      ∃ user s w₁, (server env).run p {} w = (.ok user, s, w₁) ∧ Unchanged w w₁ ∧
        0 < refreshTtlSeconds env.settings ∧
        (server env).run
            (Prog.bind p fun user => Prog.bind (issueTokenPair env crypto user) fun pair =>
              Prog.ret (some pair)) {} w =
          (.ok (some (issuedPair env crypto user w₁.ticks)), s,
            { w₁.tick.tick.tick with
              redis := w.redis.set (RefreshTokenStore.key user.id)
                (issuedPair env crypto user w₁.ticks).refreshToken
                (storedUntil env (w₁.ticks + 2)) }) := by
  rw [Machine.run_bind]
  rcases hrun : (server env).run p {} w with ⟨e | user, s, w₁⟩
  · exact .inl ⟨e, s, w₁, rfl, hp.run_eq hrun⟩
  · have hw := hp.run_eq hrun
    simp only [Machine.run_bind, run_issueTokenPair]
    by_cases httl : refreshTtlSeconds env.settings ≤ 0
    · refine .inl ⟨.python "ResponseError" "invalid expire time in 'set' command", s,
        w₁.tick.tick.tick, ?_, hw.tick.tick.tick⟩
      simp [httl]
    · refine .inr ⟨user, s, w₁, rfl, hw, Int.not_le.mp httl, ?_⟩
      simp [httl, hw.redis]

/-- The part of a login before the issuance. -/
def loginPrologue (req : LoginRequest) : Async V D User := do
  let found ← AuthService.fetchByUsername req.username
  let user ← Prog.orRaise authInvalidCredentialsException found
  Prog.raiseIf (!user.enabled) authAccountDisabledException
  Prog.raiseIf (!verifyPassword crypto.bcrypt req.password user.passwordHash)
    authInvalidCredentialsException
  AuthService.recordLogin env user req.fcmToken
  return user

/-- Storing a push token leaves Redis alone. -/
theorem quiet_syncFcm (user : User) (token : String) :
    Quiet (AuthService.syncFcm user token : Async V D Unit) := by
  refine .ite (fun _ => .ret) fun _ => .bind .select fun l => .bind .scalarOneOrNone fun o => ?_
  cases o with
  | none => exact .ret
  | some worker => exact .modify

/-- So do all writes that come with a login. -/
theorem quiet_recordLogin (user : User) (fcmToken : Option String) :
    Quiet (AuthService.recordLogin env user fcmToken : Async V D Unit) := by
  refine .ite (fun _ => .ret) fun _ => .bind ?_ fun _ => .bind .datetimeNow fun t => .modify
  cases fcmToken with
  | none => exact .ret
  | some token => exact .ite (fun _ => quiet_syncFcm user _) fun _ => .ret

/-- And everything else a login does before the pair. -/
theorem quiet_loginPrologue (req : LoginRequest) :
    Quiet (loginPrologue env crypto req : Async V D User) :=
  .bind (.bind .select fun _ => .scalarOneOrNone) fun _ => .bind .orRaise fun user =>
    .bind .raiseIf fun _ => .bind .raiseIf fun _ =>
      .bind (quiet_recordLogin env user _) fun _ => .ret

/-- The part of a self-signup before the issuance. -/
def signupPrologue (req : CaregiverSignupRequest) : Async V D User := do
  let taken ← AuthService.existsUsername req.username
  Prog.raiseIf taken (userUsernameDuplicatedException req.username)
  let used ← AuthService.existsEmail req.email
  Prog.raiseIf used (userEmailDuplicatedException req.email)
  let passwordHash ← hashPassword crypto.bcrypt req.password
  let newUser ← add .user (AuthService.caregiverUser req passwordHash)
  flush
  let user := AuthService.caregiverUser req passwordHash newUser
  let _ ← add .caregiver fun new => { id := new.id, userId := user.id }
  flush
  return user

/-- A self-signup writes two tables before the pair, and Redis not. -/
theorem quiet_signupPrologue (req : CaregiverSignupRequest) :
    Quiet (signupPrologue crypto req : Async V D User) :=
  .bind .select fun _ => .bind .raiseIf fun _ => .bind .select fun _ => .bind .raiseIf fun _ =>
    .bind (.bind .gensalt fun _ => .ret) fun _ => .bind .add fun _ => .bind .flush fun _ =>
      .bind .add fun _ => .bind .flush fun _ => .ret

/-- The user a login finds is the one of its username. -/
theorem run_loginPrologue_user {req : LoginRequest} {w w' : World V D} {user : User}
    {s : Session}
    (h : (server env).run (loginPrologue env crypto req) {} w = (.ok user, s, w')) :
    (w.db.rows .user).find? (fun u => u.username = req.username) = some user := by
  obtain ⟨o, s₁, w₁, hfetch, h⟩ := Machine.run_bind_eq_ok h
  obtain ⟨l, s₂, w₂, hselect, hone⟩ := Machine.run_bind_eq_ok hfetch
  obtain ⟨-, rfl, rfl, rfl⟩ := run_select_clean_eq_ok hselect
  obtain ⟨hl, rfl, rfl⟩ := run_scalarOneOrNone_eq_ok hone
  obtain ⟨u, s₃, w₃, hraise, h⟩ := Machine.run_bind_eq_ok h
  obtain ⟨rfl, rfl, rfl⟩ := Machine.run_orRaise_eq_ok hraise
  obtain ⟨_, s₄, w₄, -, h⟩ := Machine.run_bind_eq_ok h
  obtain ⟨_, s₅, w₅, -, h⟩ := Machine.run_bind_eq_ok h
  obtain ⟨_, s₆, w₆, -, h⟩ := Machine.run_bind_eq_ok h
  obtain rfl : u = user := by cases h; rfl
  rw [← List.head?_filter, hl]
  rfl

/-- The user a self-signup creates has the next id. -/
theorem run_signupPrologue_user {req : CaregiverSignupRequest} {w w' : World V D} {user : User}
    {s : Session}
    (h : (server env).run (signupPrologue crypto req) {} w = (.ok user, s, w')) :
    user.id = w.seq .user + 1 := by
  obtain ⟨_, s₁, w₁, hname, h⟩ := Machine.run_bind_eq_ok h
  obtain ⟨-, rfl, rfl, rfl⟩ := run_select_clean_eq_ok hname
  obtain ⟨_, s₂, w₂, hfree, h⟩ := Machine.run_bind_eq_ok h
  obtain ⟨-, rfl, rfl⟩ := Machine.run_raiseIf_eq_ok hfree
  obtain ⟨_, s₃, w₃, hmail, h⟩ := Machine.run_bind_eq_ok h
  obtain ⟨-, rfl, rfl, rfl⟩ := run_select_clean_eq_ok hmail
  obtain ⟨_, s₄, w₄, hfree, h⟩ := Machine.run_bind_eq_ok h
  obtain ⟨-, rfl, rfl⟩ := Machine.run_raiseIf_eq_ok hfree
  simp only [hashPassword, Prog.bind_eq, Prog.pure_eq, Prog.bind_assoc, run_gensalt_bind,
    Prog.ret_bind, run_add_bind] at h
  obtain ⟨_, s₅, w₅, -, h⟩ := Machine.run_bind_eq_ok h
  rw [run_add_bind] at h
  obtain ⟨_, s₆, w₆, -, h⟩ := Machine.run_bind_eq_ok h
  cases h
  rfl

/-! ## Refreshing -/

section Refresh

variable [DecidableEq V]

/-- **A refresh, case by case.** -/
theorem run_refresh (token : V) (w : World V D) :
    (server env).run (AuthService.refresh env crypto token) {} w =
      match parseTokenAt env.settings crypto (some .refresh) (env.clock w.ticks) token with
      | .error e => (.error e, {}, w.tick)
      | .ok p =>
          if w.redis.get (env.redisClock (w.ticks + 1)) (RefreshTokenStore.key p.userId) =
              some token then
            if bigint p.userId then
              match w.db.find? .user p.userId with
              | none => (.error (userNotFoundException p.userId), {}, w.tick.tick.tick)
              | some user =>
                  if user.enabled then
                    (server env).run (issueTokenPair env crypto user) {} w.tick.tick.tick
                  else
                    (.error authRefreshNotFoundException, {},
                      { w.tick.tick.tick.tick with
                        redis := w.redis.del (RefreshTokenStore.key p.userId) })
            else (.error (.database "22000"), { failed := true }, w.tick.tick.tick)
          else
            (.error authRefreshNotFoundException, {},
              { w.tick.tick.tick with
                redis := w.redis.del (RefreshTokenStore.key p.userId) }) := by
  simp only [AuthService.refresh, parseToken, RefreshTokenStore.matches, RefreshTokenStore.find,
    RefreshTokenStore.remove, Prog.bind_eq, Prog.pure_eq, Prog.bind_assoc, run_now_bind,
    Prog.ret_bind]
  cases parseTokenAt env.settings crypto (some .refresh) (env.clock w.ticks) token with
  | error e => rfl
  | ok p =>
      simp only [Prog.ofExcept, Prog.ret_bind, run_redisGet_bind, decide_eq_true_eq,
        World.tick_redis, World.tick_ticks]
      by_cases hstored : w.redis.get (env.redisClock (w.ticks + 1))
          (RefreshTokenStore.key p.userId) = some token
      · simp only [hstored, if_true]
        rw [run_dbGet_bind_clean]
        by_cases hid : bigint p.userId
        · simp only [hid, if_true, World.tick_db]
          cases w.db.find? .user p.userId with
          | none => rfl
          | some user =>
              simp only [Prog.orRaise_some, Prog.ret_bind, Machine.run_ite]
              rfl
        -- the user id is one that no row can have, and the database refuses to compare
        -- with it
        · simp [hid]
      · simp only [hstored, if_false]
        rfl

end Refresh

/-! ## The effect of an operation -/

/-- **What an operation can do to the shared state**, with the event recording
it: nothing, an issuance whose clocks are read from tick `n` on, or a
revocation.  The database is as before until the transaction ends. -/
inductive Effect (w w' : World V D) : Option (TokenEvent V) → Prop
  | none (h : Unchanged w w') : Effect w w' none
  | issued (user : User) (n : ℕ) (ticks : w.ticks ≤ n ∧ w'.ticks = n + 3)
      (ttl : 0 < refreshTtlSeconds env.settings) (db : w'.db = w.db)
      (redis : w'.redis = w.redis.set (RefreshTokenStore.key user.id)
        (issuedPair env crypto user n).refreshToken (storedUntil env (n + 2))) :
      Effect w w' (some (.issued user.id (issuedPair env crypto user n).refreshToken
        (storedUntil env (n + 2))))
  | revoked (userId : ℤ) (ticks : w.ticks ≤ w'.ticks) (db : w'.db = w.db)
      (redis : w'.redis = w.redis.del (RefreshTokenStore.key userId)) :
      Effect w w' (some (.revoked userId))

/-- The part of a password change before the revocation. -/
def changePasswordPrologue (userId : ℤ) (current new : String) : Async V D Unit := do
  let found ← dbGet .user userId
  let user ← Prog.orRaise (userNotFoundException userId) found
  Prog.raiseIf (!verifyPassword crypto.bcrypt current user.passwordHash)
    authInvalidCredentialsException
  let newHash ← hashPassword crypto.bcrypt new
  modify .user user fun u => { u with passwordHash := newHash }

/-- The new hash is computed and assigned. -/
theorem quiet_changePasswordPrologue (userId : ℤ) (current new : String) :
    Quiet (changePasswordPrologue crypto userId current new : Async V D Unit) :=
  .bind .dbGet fun _ => .bind .orRaise fun _ => .bind .raiseIf fun _ =>
    .bind (.bind .gensalt fun _ => .ret) fun _ => .modify

/-- Disabling an account leaves its refresh token stored. It is revoked when it is next
used. -/
theorem quiet_setEnabled (userId : ℤ) (enabled : Bool) :
    Quiet (UserService.setEnabled userId enabled : Async V D User) :=
  .bind (.bind .dbGet fun _ => .orRaise) fun _ => .bind .modify fun _ => .ret

namespace AuthOp

variable [DecidableEq V]

/-- A login is its prologue, followed by the issuance. -/
theorem script_login (req : LoginRequest) :
    (login req : AuthOp V).script env crypto =
      (Prog.bind (loginPrologue env crypto req) fun user =>
        Prog.bind (issueTokenPair env crypto user) fun pair => Prog.ret (some pair) :
        Async V D _) := by
  simp [script, AuthService.login, loginPrologue]

/-- So is a self-signup. -/
theorem script_signup (req : CaregiverSignupRequest) :
    (signup req : AuthOp V).script env crypto =
      (Prog.bind (signupPrologue crypto req) fun user =>
        Prog.bind (issueTokenPair env crypto user) fun pair => Prog.ret (some pair) :
        Async V D _) := by
  simp [script, AuthService.signupAsCaregiver, signupPrologue]

/-- A password change is its prologue, followed by the revocation. -/
theorem script_changePassword (userId : ℤ) (current new : String) :
    (changePassword userId current new : AuthOp V).script env crypto =
      (Prog.bind (changePasswordPrologue crypto userId current new) fun _ =>
        Prog.bind (RefreshTokenStore.remove userId) fun _ => Prog.ret none : Async V D _) := by
  simp [script, AuthService.changePassword, changePasswordPrologue]

/-- **A login** issues, for the user of the username, or does nothing. -/
theorem effect_login (req : LoginRequest) (w : World V D) :
    Effect env crypto w ((login req : AuthOp V).run env crypto w).2.2
      ((login req : AuthOp V).event env crypto w) := by
  unfold event run
  rw [script_login]
  obtain ⟨e, s, w', h, hw⟩ | ⟨user, s, w₁, hrun, hw, httl, h⟩ :=
    run_issue env crypto (quiet_loginPrologue env crypto req) w
  · rw [h]
    exact .none hw
  · rw [h]
    simp only [run_loginPrologue_user env crypto hrun, Option.map_some]
    exact .issued user w₁.ticks ⟨hw.ticks, rfl⟩ httl hw.db rfl

/-- **A self-signup** issues, for the user with the next id, or does nothing. -/
theorem effect_signup (req : CaregiverSignupRequest) (w : World V D) :
    Effect env crypto w ((signup req : AuthOp V).run env crypto w).2.2
      ((signup req : AuthOp V).event env crypto w) := by
  unfold event run
  rw [script_signup]
  obtain ⟨e, s, w', h, hw⟩ | ⟨user, s, w₁, hrun, hw, httl, h⟩ :=
    run_issue env crypto (quiet_signupPrologue crypto req) w
  · rw [h]
    exact .none hw
  · rw [h, ← run_signupPrologue_user env crypto hrun]
    exact .issued user w₁.ticks ⟨hw.ticks, rfl⟩ httl hw.db rfl

/-- **A password change** revokes, or does nothing. -/
theorem effect_changePassword (userId : ℤ) (current new : String) (w : World V D) :
    Effect env crypto w ((changePassword userId current new : AuthOp V).run env crypto w).2.2
      ((changePassword userId current new : AuthOp V).event env crypto w) := by
  unfold event run
  rw [script_changePassword, Machine.run_bind]
  rcases hrun : (server env).run (changePasswordPrologue crypto userId current new) {} w with
    ⟨e | _, s, w₁⟩
  · exact .none ((quiet_changePasswordPrologue crypto userId current new).run_eq hrun)
  · have hw := (quiet_changePasswordPrologue crypto userId current new).run_eq hrun
    exact .revoked userId (Nat.le_succ_of_le hw.ticks) hw.db (by rw [← hw.redis]; rfl)

/-- **Enabling and disabling** do nothing to the store. -/
theorem effect_setEnabled (userId : ℤ) (enabled : Bool) (w : World V D) :
    Effect env crypto w ((setEnabled userId enabled : AuthOp V).run env crypto w).2.2
      ((setEnabled userId enabled : AuthOp V).event env crypto w) :=
  .none (((quiet_setEnabled userId enabled).bind fun _ => .ret).run env {} w)

/-- **A refresh** issues if the token was the stored one of an enabled account, revokes
if it was validly signed and not the stored one, or the stored one of a disabled
account, and does nothing else. -/
theorem effect_refresh (token : V) (w : World V D) :
    Effect env crypto w ((refresh token : AuthOp V).run env crypto w).2.2
      ((refresh token : AuthOp V).event env crypto w) := by
  unfold event run script
  simp only [Prog.bind_eq, Prog.pure_eq, Machine.run_bind, run_refresh]
  cases parseTokenAt env.settings crypto (some .refresh) (env.clock w.ticks) token with
  | error e => exact .none (.tick (.refl w))
  | ok p =>
      simp only
      by_cases hstored : w.redis.get (env.redisClock (w.ticks + 1))
          (RefreshTokenStore.key p.userId) = some token
      · simp only [hstored, if_true, ne_eq, not_true_eq_false, if_false]
        cases hfind : w.db.find? .user p.userId with
        | none =>
            by_cases hid : bigint p.userId <;> simp only [hid, if_true] <;>
              exact .none (.tick (.tick (.tick (.refl w))))
        | some user =>
            have hid := bigint_of_find? hfind
            have hkey : user.id = p.userId := Table.find?_key hfind
            simp only [hid, if_true]
            by_cases hen : user.enabled
            · simp only [hen, if_true, run_issueTokenPair]
              by_cases httl : refreshTtlSeconds env.settings ≤ 0
              · simp only [httl, hen, if_true]
                exact .none (.tick (.tick (.tick (.tick (.tick (.tick (.refl w)))))))
              · simp only [httl, hen, if_true, if_false, Machine.run_ret, ← hkey]
                exact .issued user (w.ticks + 3) ⟨Nat.le_add_right _ _, rfl⟩ (Int.not_le.mp httl)
                  rfl rfl
            · simp only [hen, Bool.false_eq_true, if_false]
              exact .revoked p.userId (Nat.le_add_right w.ticks 4) rfl rfl
      · simp only [hstored, if_false, ne_eq, not_false_eq_true, if_true]
        exact .revoked p.userId (Nat.le_add_right w.ticks 3) rfl rfl

/-- **The effect of an operation is its event.** -/
theorem effect (op : AuthOp V) (w : World V D) :
    Effect env crypto w (op.run env crypto w).2.2 (op.event env crypto w) := by
  cases op with
  | login req => exact effect_login env crypto req w
  | signup req => exact effect_signup env crypto req w
  | refresh token => exact effect_refresh env crypto token w
  | logout userId => exact .revoked userId (Nat.le_succ _) rfl rfl
  | changePassword userId current new => exact effect_changePassword env crypto userId current new w
  | setEnabled userId enabled => exact effect_setEnabled env crypto userId enabled w

end AuthOp

namespace AuthOp

variable [DecidableEq V]

/-- **The token store after an operation.** -/
theorem redis_serve (op : AuthOp V) (w : World V D) :
    (op.serve env crypto w).2.redis =
      TokenEvent.applyOption (op.event env crypto w) w.redis := by
  rw [AuthOp.serve, (serve_redis env (op.script env crypto) w).1]
  have heffect := op.effect env crypto w
  generalize op.event env crypto w = event at heffect ⊢
  cases heffect with
  | none h => exact h.redis
  | issued user n _ _ _ h => exact h
  | revoked userId _ _ h => exact h

end AuthOp

end Rooti
