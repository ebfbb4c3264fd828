import Rooti.Core.Database

/-!
# Passwords, tokens and principals

Tokens are JSON web tokens over an opaque text type `V`.  `PyJWT` is the library
under the server's secret: it signs a claim set, and hands the claim set of a
validly signed token back.  The checks its decoder then makes on the registered
claims are `validateClaims`.

## Main definitions

* `Bcrypt`, `PyJWT` — the libraries
* `createToken`, `parseToken` — issuing and reading tokens
* `PrincipalDetails` — the caller of a request
-/

namespace Rooti

open Program

variable {V D : Type}

/-! ## Passwords -/

/-- `bcrypt`: hashing under a salt, and checking; `none` is a `ValueError` or
`TypeError`. -/
structure Bcrypt where
  hashpw : ℕ → Bytes → String
  checkpw : Bytes → String → Option Bool

/-- `_to_bcrypt_input`: the first 72 bytes of the UTF-8 encoding. -/
def toBcryptInput (plain : String) : Bytes := plain.toUTF8.toList.take 72

/-- `hash_password`. -/
def hashPassword (bcrypt : Bcrypt) (plain : String) : Async V D String := do
  let salt ← gensalt
  return bcrypt.hashpw salt (toBcryptInput plain)

/-- `verify_password`. -/
def verifyPassword (bcrypt : Bcrypt) (plain hashed : String) : Bool :=
  (bcrypt.checkpw (toBcryptInput plain) hashed).getD false

/-! ## JSON web tokens -/

/-- `TokenType`. -/
inductive TokenType
  | access | refresh
  deriving DecidableEq, Repr

def TokenType.value : TokenType → String
  | access => "ACCESS"
  | refresh => "REFRESH"

/-- **PyJWT under the server's secret and algorithm.** -/
structure PyJWT (V : Type) where
  /-- `jwt.encode` -/
  encode : Json → V
  /-- the claims of a token with a valid signature, or the error's text -/
  verify : V → Except String Json
  verify_encode : ∀ claims, verify (encode claims) = .ok claims

/-- Encoding is injective: the claims can be read back. -/
theorem PyJWT.encode_injective (jwt : PyJWT V) : Function.Injective jwt.encode := by
  intro c c' h
  have := jwt.verify_encode c'
  rw [← h, jwt.verify_encode] at this
  exact Except.ok.inj this

/-- The exceptions of `jwt.decode`: PyJWT's own, and those of a conversion it does not handle. -/
inductive JwtError
  | expired
  | invalid (text : String)
  | typeError
  | overflowError
  deriving DecidableEq, Repr

/-- A registered claim read with `int(...)`. -/
def intClaim (errorText : String) (j : Json) : Except JwtError ℤ :=
  match Py.intOf j with
  | .ok n => .ok n
  | .error .valueError => .error (.invalid errorText)
  | .error .typeError => .error .typeError
  | .error .overflowError => .error .overflowError

/-- The error raised where a condition fails. -/
def check (b : Bool) (e : JwtError) : Except JwtError Unit := if b then .ok () else .error e

/-- A claim of type string, where present. -/
def isStringClaim : Option Json → Bool
  | none => true
  | some (.str _) => true
  | some _ => false

/-- A claim that is absent or falsy. -/
def isFalsyClaim : Option Json → Bool
  | none => true
  | some j => j = .null ∨ j = .bool false ∨ j = .int 0 ∨ j = .str "" ∨ j = .arr [] ∨ j = .obj []

/-- The issuer is there, and the expected one. -/
def checkIssuer (issuer : String) : Option Json → Except JwtError Unit
  | none => .error (.invalid "Token is missing the \"iss\" claim")
  | some (.str s) => check (s = issuer) (.invalid "Invalid issuer")
  | some _ => .error (.invalid "Payload Issuer (iss) must be a string")

/-- The checks of `jwt.decode` on a verified claim set at instant `now` (in
microseconds): the required claims, `iat`, `nbf`, `exp`, `iss`, `aud`, `sub`,
`jti`, in this order. -/
def validateClaims (issuer : String) (now : ℤ) (claims : Json) : Except JwtError Unit := do
  ["exp", "iat", "sub", "typ"].forM fun name =>
    check ((claims.field? name).any (· ≠ .null))
      (.invalid ("Token is missing the \"" ++ name ++ "\" claim"))
  match claims.field? "iat" with
  | none => .ok ()
  | some j => do
      let iat ← intClaim "Issued At claim (iat) must be an integer." j
      check (iat * 1000000 ≤ now) (.invalid "The token is not yet valid (iat)")
  match claims.field? "nbf" with
  | none => .ok ()
  | some j => do
      let nbf ← intClaim "Not Before claim (nbf) must be an integer." j
      check (nbf * 1000000 ≤ now) (.invalid "The token is not yet valid (nbf)")
  match claims.field? "exp" with
  | none => .ok ()
  | some j => do
      let exp ← intClaim "Expiration Time claim (exp) must be an integer." j
      check (now < exp * 1000000) .expired
  checkIssuer issuer (claims.field? "iss")
  check (isFalsyClaim (claims.field? "aud")) (.invalid "Invalid audience")
  check (isStringClaim (claims.field? "sub")) (.invalid "Subject must be a string")
  check (isStringClaim (claims.field? "jti")) (.invalid "JWT ID must be a string")

/-- `jwt.decode(token, secret, algorithms, issuer, options)`. -/
def PyJWT.decode (jwt : PyJWT V) (issuer : String) (now : ℤ) (token : V) :
    Except JwtError Json :=
  match jwt.verify token with
  | .error text => .error (.invalid text)
  | .ok claims => do
      validateClaims issuer now claims
      return claims

/-- `JwtPayload`. -/
structure JwtPayload where
  userId : ℤ
  username : String
  roles : List Json
  tokenType : TokenType
  issuedAt : ℤ
  expiresAt : ℤ
  deriving DecidableEq

/-- The libraries the token code rests on: PyJWT, bcrypt and Python's `str(...)`
of a JSON value. -/
structure Crypto (V : Type) where
  jwt : PyJWT V
  bcrypt : Bcrypt
  str : Json → String

/-- The plainest libraries: a token is its claim set, a hash shows its password. -/
def Crypto.plain : Crypto Json where
  jwt := { encode := id, verify := .ok, verify_encode := fun _ => rfl }
  bcrypt :=
    { hashpw := fun _ bytes => String.ofList (bytes.map fun b => Char.ofNat b.toNat)
      checkpw := fun bytes hashed =>
        some (hashed = String.ofList (bytes.map fun b => Char.ofNat b.toNat)) }
  str := fun j => match j with
    | .str s => s
    | _ => ""

/-- `_now_epoch`, from the wall clock in microseconds. -/
def nowEpoch (micros : ℤ) : ℤ := micros.tdiv 1000000

/-- The lifetime of a token in seconds. -/
def ttlSeconds (settings : Settings) : TokenType → ℤ
  | .access => settings.jwtAccessTtlMinutes * 60
  | .refresh => settings.jwtRefreshTtlDays * 86400

/-- `access_ttl_seconds`. -/
def accessTtlSeconds (settings : Settings) : ℤ := settings.jwtAccessTtlMinutes * 60

/-- `refresh_ttl_seconds`. -/
def refreshTtlSeconds (settings : Settings) : ℤ := settings.jwtRefreshTtlDays * 86400

/-- The claims of a token issued at second `iat`. -/
def tokenClaims (settings : Settings) (userId : ℤ) (username : String) (roles : List String)
    (tokenType : TokenType) (iat : ℤ) : Json :=
  .obj
    [("iss", .str settings.jwtIssuer),
      ("sub", .str (toString userId)),
      ("iat", .int iat),
      ("exp", .int (iat + ttlSeconds settings tokenType)),
      ("usn", .str username),
      ("roles", .arr (roles.map .str)),
      ("typ", .str tokenType.value)]

/-- The token that is issued at an instant. -/
def tokenAt (settings : Settings) (crypto : Crypto V) (userId : ℤ) (username : String)
    (roles : List String) (tokenType : TokenType) (t : ℤ) : V :=
  crypto.jwt.encode (tokenClaims settings userId username roles tokenType (nowEpoch t))

/-- `create_token`. -/
def createToken (env : Env) (crypto : Crypto V) (userId : ℤ) (username : String)
    (roles : List String) (tokenType : TokenType) : Async V D V := do
  let t ← now
  return tokenAt env.settings crypto userId username roles tokenType t

/-- `create_access_token`. -/
def createAccessToken (env : Env) (crypto : Crypto V) (userId : ℤ) (username : String)
    (roles : List String) : Async V D V :=
  createToken env crypto userId username roles .access

/-- `create_refresh_token`. -/
def createRefreshToken (env : Env) (crypto : Crypto V) (userId : ℤ) (username : String)
    (roles : List String) : Async V D V :=
  createToken env crypto userId username roles .refresh

/-- An uncaught `TypeError`. -/
def typeError : Err := .python "TypeError" ""

/-- An uncaught `ValueError`. -/
def valueError : Err := .python "ValueError" ""

/-- An uncaught `OverflowError`. -/
def overflowError : Err := .python "OverflowError" ""

/-- `int(x)` outside any `try`. -/
def intOrRaise (j : Json) : Except Err ℤ :=
  match Py.intOf j with
  | .ok n => .ok n
  | .error .valueError => .error valueError
  | .error .typeError => .error typeError
  | .error .overflowError => .error overflowError

/-- The `typ` claim must be the expected one, if any. -/
def checkType (crypto : Crypto V) (expectedType : Option TokenType) (typ : Json) :
    Except Err Unit :=
  match expectedType with
  | some t =>
      if typ = .str t.value then .ok ()
      else .error (authTokenInvalidException ("Unexpected token type: expected " ++ t.value ++
        ", got " ++ crypto.str typ))
  | none => .ok ()

/-- `int(claims["sub"])`. -/
def subjectOf (claims : Json) : Except Err ℤ :=
  match (claims.field? "sub").map Py.intOf with
  | some (.ok n) => .ok n
  | some (.error .overflowError) => .error overflowError
  | some (.error _) | none =>
      .error (authTokenInvalidException "missing or invalid 'sub' claim")

/-- `list(claims.get("roles", []))`. -/
def rolesOf (claims : Json) : Except Err (List Json) :=
  match Py.listOf ((claims.field? "roles").getD (.arr [])) with
  | some roles => .ok roles
  | none => .error typeError

/-- What `parse_token` makes of decoded claims. -/
def payloadOfClaims (crypto : Crypto V) (expectedType : Option TokenType) (claims : Json) :
    Except Err JwtPayload := do
  let typ := (claims.field? "typ").getD .null
  checkType crypto expectedType typ
  let userId ← subjectOf claims
  let roles ← rolesOf claims
  let issuedAt ← intOrRaise ((claims.field? "iat").getD (.int 0))
  let expiresAt ← intOrRaise ((claims.field? "exp").getD (.int 0))
  return { userId, roles, issuedAt, expiresAt
           username := crypto.str ((claims.field? "usn").getD (.str ""))
           tokenType := if typ = .str "REFRESH" then .refresh else .access }

/-- The `iat` of a payload is that of its claims. -/
theorem issuedAt_of_payloadOfClaims {crypto : Crypto V} {expectedType : Option TokenType}
    {claims : Json} {p : JwtPayload} (h : payloadOfClaims crypto expectedType claims = .ok p) :
    intOrRaise ((claims.field? "iat").getD (.int 0)) = .ok p.issuedAt := by
  unfold payloadOfClaims at h
  cases hty : checkType crypto expectedType ((claims.field? "typ").getD .null) with
  | error e => simp [hty, bind, Except.bind] at h
  | ok _ =>
  cases hsub : subjectOf claims with
  | error e => simp [hty, hsub, bind, Except.bind] at h
  | ok u =>
  cases hroles : rolesOf claims with
  | error e => simp [hty, hsub, hroles, bind, Except.bind] at h
  | ok roles =>
  cases hiat : intOrRaise ((claims.field? "iat").getD (.int 0)) with
  | error e => simp [hty, hsub, hroles, hiat, bind, Except.bind] at h
  | ok iat =>
  cases hexp : intOrRaise ((claims.field? "exp").getD (.int 0)) with
  | error e => simp [hty, hsub, hroles, hiat, hexp, bind, Except.bind] at h
  | ok exp =>
      simp only [hty, hsub, hroles, hiat, hexp, bind, Except.bind, pure, Except.pure,
        Except.ok.injEq] at h
      rw [← h]

/-- `parse_token` at instant `now`. -/
def parseTokenAt (settings : Settings) (crypto : Crypto V) (expectedType : Option TokenType)
    (now : ℤ) (token : V) : Except Err JwtPayload :=
  match crypto.jwt.decode settings.jwtIssuer now token with
  | .error .expired => .error authTokenExpiredException
  | .error (.invalid text) => .error (authTokenInvalidException text)
  | .error .typeError => .error typeError
  | .error .overflowError => .error overflowError
  | .ok claims => payloadOfClaims crypto expectedType claims

/-- `parse_token`. -/
def parseToken (env : Env) (crypto : Crypto V) (expectedType : Option TokenType) (token : V) :
    Async V D JwtPayload := do
  let t ← now
  Prog.ofExcept (parseTokenAt env.settings crypto expectedType t token)

/-! ## Principals -/

/-- `PrincipalDetails`: who a request is made by. -/
structure PrincipalDetails where
  userId : ℤ
  username : String
  roles : List String
  enabled : Bool := true
  accountNonLocked : Bool := true

/-- `has_role`: equality up to a `ROLE_` prefix on either side. -/
def PrincipalDetails.hasRole (me : PrincipalDetails) (role : String) : Bool :=
  me.roles.any fun r => Py.removeprefix "ROLE_" r = Py.removeprefix "ROLE_" role

end Rooti
