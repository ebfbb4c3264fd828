import Rooti.Core.Security
import Rooti.Core.Values

/-!
# The key of the rate limiter

Requests are counted by the subject their token names, or else by the address they come
from.  The subject is read without verifying the signature of the token, and whatever goes wrong
on the way (a text that is no token, a payload without subject, a subject that cannot be written)
leaves the address.

## Main definitions

* `TokenReader` — the tokens texts spell, and what they say unverified
* `bearerText` — the token of an `Authorization` header
* `claimedSub` — the subject that the payload of a token claims
* `identifier` — the key of a request
* `Accepted` — a header with a token that `parse_token` accepts
-/

namespace Rooti

variable {V : Type}

/-- **PyJWT on the texts of headers.** -/
structure TokenReader (V : Type) where
  /-- the token a text spells -/
  read : String → V
  /-- `jwt.decode(token, options={"verify_signature": False})`: the items of the payload, if it
  does not raise -/
  peek : String → Option (List (String × Py.Value))

/-- `auth[7:].strip()` of a header that starts with `"Bearer "`. -/
def bearerText (authorization : Option String) : Option String :=
  let auth := authorization.getD ""
  if "Bearer ".toList.isPrefixOf auth.toList then
    some (Py.strip (String.ofList (auth.toList.drop 7)))
  else none

/-- `payload.get("sub")` of the token of a header, which nobody has verified. -/
def claimedSub (reader : TokenReader V) (authorization : Option String) : Option Py.Value := do
  let text ← bearerText authorization
  let payload ← reader.peek text
  payload.lookup "sub"

/-- `_identifier`; `printable` are the letters beyond ASCII that `repr` leaves as they are. -/
def identifier (reader : TokenReader V) (printable : Char → Bool) (remoteAddress : String)
    (authorization : Option String) : String :=
  match (claimedSub reader authorization).filter Py.Value.truthy with
  | some sub => match sub.str? printable with
      | some text => "user:" ++ text
      | none => "ip:" ++ remoteAddress
  | none => "ip:" ++ remoteAddress

/-- The key of the requests of an account. -/
def userKey (userId : ℤ) : String := "user:" ++ toString userId

/-- **The header carries a token that `parse_token` accepts.** -/
def Accepted (settings : Settings) (crypto : Crypto V) (reader : TokenReader V) (now : ℤ)
    (authorization : Option String) : Prop :=
  ∃ text payload, bearerText authorization = some text ∧
    parseTokenAt settings crypto none now (reader.read text) = .ok payload

end Rooti
