import Rooti.Core.Security

/-!
# Authentication

Login, refresh-token rotation, logout, password change and the caregivers'
self-signup.  Redis keeps one refresh token per user under
`rooti:refresh:<user id>`.

## Main definitions

* `RefreshTokenStore.save`, `find`, `remove`, `matches` — the token store
* `issueTokenPair` — a new pair, its refresh token stored
* `AuthService.login`, `refresh`, `logout`, `changePassword`, `signupAsCaregiver`,
  `updateProfile`
* `UserService.setEnabled`, `findByEmail`
-/

namespace Rooti

open Relational Program

variable {V D : Type}

/-! ## Requests and responses -/

/-- `LoginRequest`. -/
structure LoginRequest where
  username : String
  password : String
  fcmToken : Option String := none

/-- `CaregiverSignupRequest`. -/
structure CaregiverSignupRequest where
  username : String
  email : String
  password : String
  name : String
  phoneNumber : Option String := none

/-- `UpdateMeRequest`. -/
structure UpdateMeRequest where
  name : String
  email : Option String := none
  phoneNumber : Option String := none

/-- The attribute assignments of a profile update: the name, and what else was
sent. -/
def UpdateMeRequest.apply (req : UpdateMeRequest) (u : User) : User :=
  { u with
    email := req.email.orElse fun _ => u.email
    phoneNumber := req.phoneNumber.orElse fun _ => u.phoneNumber
    name := req.name }

/-- `TokenResponse`. -/
structure TokenResponse (V : Type) where
  accessToken : V
  refreshToken : V
  accessTtlSeconds : ℤ
  refreshTtlSeconds : ℤ
  tokenType : String := "Bearer"

/-- `MeResponse`. -/
structure MeResponse where
  id : ℤ
  username : String
  email : Option String
  name : String
  phoneNumber : Option String
  role : UserRole

/-- The response about a user's own account. -/
def MeResponse.ofUser (user : User) : MeResponse where
  id := user.id
  username := user.username
  email := user.email
  name := user.name
  phoneNumber := user.phoneNumber
  role := user.role

/-! ## The refresh-token store -/

namespace RefreshTokenStore

/-- `_key`. -/
def key (userId : ℤ) : String := "rooti:refresh:" ++ toString userId

/-- `save`. -/
def save (userId : ℤ) (token : V) (ttlSeconds : ℤ) : Async V D Unit :=
  redisSet (key userId) token ttlSeconds

/-- `find`. -/
def find (userId : ℤ) : Async V D (Option V) := redisGet (key userId)

/-- `remove`. -/
def remove (userId : ℤ) : Async V D Unit := redisDel (key userId)

/-- `matches`. -/
def «matches» [DecidableEq V] (userId : ℤ) (token : V) : Async V D Bool := do
  let stored ← find userId
  return stored = some token

end RefreshTokenStore

/-- `issue_token_pair`. -/
def issueTokenPair (env : Env) (crypto : Crypto V) (user : User) :
    Async V D (TokenResponse V) := do
  let roles := [user.role.value]
  let access ← createAccessToken env crypto user.id user.username roles
  let refresh ← createRefreshToken env crypto user.id user.username roles
  RefreshTokenStore.save user.id refresh (refreshTtlSeconds env.settings)
  return { accessToken := access, refreshToken := refresh
           accessTtlSeconds := accessTtlSeconds env.settings
           refreshTtlSeconds := refreshTtlSeconds env.settings }

namespace AuthService

/-- `_fetch_by_username`. -/
def fetchByUsername (username : String) : Async V D (Option User) := do
  let users ← select [.text username] fun _ db =>
    (db.rows .user).filter fun u => u.username = username
  scalarOneOrNone users

/-- `_exists_username`. -/
def existsUsername (username : String) : Async V D Bool :=
  select [.text username] fun _ db => (db.rows .user).any fun u => u.username = username

/-- `_exists_email`. -/
def existsEmail (email : String) : Async V D Bool :=
  select [.text email] fun _ db => (db.rows .user).any fun u => u.email = some email

/-- `_sync_fcm`: only workers receive push notifications. -/
def syncFcm (user : User) (fcmToken : String) : Async V D Unit :=
  if user.role ≠ .worker then pure ()
  else do
    let workers ← select [.int user.id] fun _ db =>
      (db.rows .challengedWorker).filter fun w => w.userId = user.id
    match ← scalarOneOrNone workers with
    | none => pure ()
    | some worker =>
        modify .challengedWorker worker fun w => { w with fcmToken := some fcmToken }

/-- The FCM token sent along with a login, unless blank. -/
def syncLoginFcm (user : User) : Option String → Async V D Unit
  | some token => if Py.strip token ≠ "" then syncFcm user (Py.strip token) else pure ()
  | none => pure ()

/-- The writes that come with a login, left out in read-only mode. -/
def recordLogin (env : Env) (user : User) (fcmToken : Option String) : Async V D Unit :=
  if env.settings.appReadOnly then pure ()
  else do
    syncLoginFcm user fcmToken
    let t ← datetimeNow env
    modify .user user fun u => { u with lastLoginAt := some t }

/-- `login`. -/
def login (env : Env) (crypto : Crypto V) (req : LoginRequest) :
    Async V D (TokenResponse V) := do
  let found ← fetchByUsername req.username
  let user ← Prog.orRaise authInvalidCredentialsException found
  Prog.raiseIf (!user.enabled) authAccountDisabledException
  Prog.raiseIf (!verifyPassword crypto.bcrypt req.password user.passwordHash)
    authInvalidCredentialsException
  recordLogin env user req.fcmToken
  issueTokenPair env crypto user

/-- `refresh`: rotation and reuse detection. -/
def refresh [DecidableEq V] (env : Env) (crypto : Crypto V) (refreshToken : V) :
    Async V D (TokenResponse V) := do
  let payload ← parseToken env crypto (some .refresh) refreshToken
  let matched ← RefreshTokenStore.matches payload.userId refreshToken
  if matched then do
    let found ← dbGet .user payload.userId
    let user ← Prog.orRaise (userNotFoundException payload.userId) found
    if user.enabled then issueTokenPair env crypto user
    else do
      -- the tokens of a disabled account are revoked on first use
      RefreshTokenStore.remove payload.userId
      Prog.raise authRefreshNotFoundException
  else do
    -- a validly signed token that is not the stored one: revoke all sessions
    RefreshTokenStore.remove payload.userId
    Prog.raise authRefreshNotFoundException

/-- `logout`. -/
def logout (userId : ℤ) : Async V D Unit := RefreshTokenStore.remove userId

/-- `change_password`. -/
def changePassword (crypto : Crypto V) (userId : ℤ) (current newPassword : String) :
    Async V D Unit := do
  let found ← dbGet .user userId
  let user ← Prog.orRaise (userNotFoundException userId) found
  Prog.raiseIf (!verifyPassword crypto.bcrypt current user.passwordHash)
    authInvalidCredentialsException
  let newHash ← hashPassword crypto.bcrypt newPassword
  modify .user user fun u => { u with passwordHash := newHash }
  RefreshTokenStore.remove userId

/-- The account a self-signup creates. -/
def caregiverUser (req : CaregiverSignupRequest) (passwordHash : String) (new : NewRow) :
    User where
  id := new.id
  username := req.username
  email := some req.email
  passwordHash := passwordHash
  name := req.name
  phoneNumber := req.phoneNumber
  role := .caregiver
  enabled := true
  lastLoginAt := none

/-- `signup_as_caregiver`. -/
def signupAsCaregiver (env : Env) (crypto : Crypto V) (req : CaregiverSignupRequest) :
    Async V D (TokenResponse V) := do
  let taken ← existsUsername req.username
  Prog.raiseIf taken (userUsernameDuplicatedException req.username)
  let used ← existsEmail req.email
  Prog.raiseIf used (userEmailDuplicatedException req.email)
  let passwordHash ← hashPassword crypto.bcrypt req.password
  let newUser ← add .user (caregiverUser req passwordHash)
  flush
  let user := caregiverUser req passwordHash newUser
  let _ ← add .caregiver fun new => { id := new.id, userId := user.id }
  flush
  issueTokenPair env crypto user

/-- `me`. -/
def me (principal : PrincipalDetails) : Async V D MeResponse := do
  let found ← dbGet .user principal.userId
  let user ← Prog.orRaise (userNotFoundException principal.userId) found
  return MeResponse.ofUser user

/-- A new e-mail address of a user must be free. -/
def checkEmailFree (user : User) (userId : ℤ) : Option String → Async V D Unit
  | some email =>
      if some email ≠ user.email then do
        let dup ← select [.text email, .int userId] fun _ db =>
          (db.rows .user).any fun u => u.email = some email ∧ u.id ≠ userId
        Prog.raiseIf dup (userEmailDuplicatedException email)
      else pure ()
  | none => pure ()

/-- `update_profile`. -/
def updateProfile (userId : ℤ) (req : UpdateMeRequest) : Async V D MeResponse := do
  let found ← dbGet .user userId
  let user ← Prog.orRaise (userNotFoundException userId) found
  checkEmailFree user userId req.email
  modify .user user req.apply
  flush
  return MeResponse.ofUser (req.apply user)

end AuthService

/-! ## Administration of users -/

namespace UserService

/-- `get_by_id`. -/
def getById (userId : ℤ) : Async V D User := do
  let found ← dbGet .user userId
  Prog.orRaise (userNotFoundException userId) found

/-- `find_by_email`. -/
def findByEmail (email : String) : Async V D (Option User) := do
  let users ← select [.text email] fun o db =>
    o.scan ((db.rows .user).filter fun u => u.email = some email)
  scalarOneOrNone users

/-- `set_enabled`; the response shows the account as it now is. -/
def setEnabled (userId : ℤ) (enabled : Bool) : Async V D User := do
  let user ← getById userId
  modify .user user fun u => { u with enabled := enabled }
  return { user with enabled := enabled }

end UserService

end Rooti
