import Rooti.Core.RateLimit

/-!
# Who sends a request

A request carries its access token in the `Authorization` header, or where the old mobile client
puts it.  The principal is what the token says; the account is not looked up.

## Main definitions

* `Credentials`, `resolveBearerToken` — the token of a request
* `currentUserOptional`, `currentUser` — the principal
* `SpeaksFor` — the principals a request may be taken to be from, at the times the server reads
-/

namespace Rooti

open Program

variable {V D : Type}

/-- Where a request may carry a token. -/
structure Credentials where
  authorization : Option String := none
  /-- the `accesstoken` header of the old mobile client -/
  legacyHeader : Option String := none
  /-- the `accessToken` cookie of the old mobile client -/
  legacyCookie : Option String := none

/-- A header or cookie of the old mobile client; an empty one counts as none. -/
def legacyToken (value : Option String) : Option String :=
  (value.filter fun text => text ≠ "").map Py.strip

/-- `_resolve_bearer_token`. -/
def resolveBearerToken (request : Credentials) : Option String :=
  ((bearerText request.authorization).orElse fun _ => legacyToken request.legacyHeader).orElse
    fun _ => legacyToken request.legacyCookie

/-- The principal a payload is about; a role is a text. -/
def JwtPayload.principal (payload : JwtPayload) : PrincipalDetails where
  userId := payload.userId
  username := payload.username
  roles := payload.roles.filterMap fun role =>
    match role with
    | .str text => some text
    | _ => none

/-- `current_user_optional`. -/
def currentUserOptional (env : Env) (crypto : Crypto V) (reader : TokenReader V)
    (request : Credentials) : Async V D (Option PrincipalDetails) :=
  match (resolveBearerToken request).filter fun text => text ≠ "" with
  | none => return none
  | some text => do
      let payload ← parseToken env crypto (some .access) (reader.read text)
      return some payload.principal

/-- `current_user`. -/
def currentUser (env : Env) (crypto : Crypto V) (reader : TokenReader V)
    (request : Credentials) : Async V D PrincipalDetails := do
  let principal ← currentUserOptional env crypto reader request
  Prog.orRaise (authTokenInvalidException "missing bearer token") principal

/-- **The principal of a request**, read at some command: its token was accepted then. -/
def SpeaksFor (env : Env) (crypto : Crypto V) (reader : TokenReader V) (request : Credentials)
    (me : PrincipalDetails) : Prop :=
  ∃ n text payload, resolveBearerToken request = some text ∧ text ≠ "" ∧
    parseTokenAt env.settings crypto (some .access) (env.clock n) (reader.read text) = .ok payload ∧
      me = payload.principal

end Rooti
