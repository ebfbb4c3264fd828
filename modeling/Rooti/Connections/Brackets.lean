import Rooti.Core.Decimal
import Rooti.Lib.Percent
import Rooti.Lib.Splitting

/-!
# Brackets in the authority of a URL

`urllib.parse` refuses an authority with a bracket that has no counterpart, and one whose
brackets hold anything but an IPv6 address or an address of a future version.  Up to Python
3.12.8 it looks for brackets in the whole authority, the user information included: a password
with a pair of brackets is refused unless an address is in them.  Later releases take the host
for what the brackets are about, so that the same password makes them refuse the host.

The address is read as `ipaddress` does: hextets between colons, of which one run is left out
at most, a dotted tail in place of the last two, and a zone behind a percent sign.

## Main definitions

* `isIPv6`, `isFuture` — what brackets may hold
* `bracketsFit` — the check of an authority
* `bracketsFit_of_not_mem` — an authority without brackets passes
-/

namespace Rooti.Brackets

open Splitting Percent

/-- `_parse_octet`: no leading zeros. -/
def isOctet (s : List Char) : Bool :=
  s.all Char.isDigit ∧ s.length ≤ 3 ∧ (s = ['0'] ∨ s.head? ≠ some '0') ∧
    (Py.int? (String.ofList s)).any fun n => n ≤ 255

/-- `IPv4Address`. -/
def isIPv4 (s : List Char) : Bool :=
  (s.splitOn '.').length = 4 ∧ (s.splitOn '.').all isOctet

/-- `_parse_hextet`. -/
def isHextet (s : List Char) : Bool :=
  s ≠ [] ∧ s.length ≤ 4 ∧ s.all fun c => (hexValue c).isSome

/-- What stands between the colons; a dotted tail is two hextets. -/
def hextets (s : List Char) : Option (List (List Char)) :=
  let parts := s.splitOn ':'
  let tail := parts.getLastD []
  if '.' ∉ tail then some parts
  else if isIPv4 tail then some (parts.dropLast ++ [['0'], ['0']])
  else none

/-- One side of the hextets that are left out: nothing at all, or hextets. -/
def fitsSide (side : List (List Char)) : Bool := side = [[]] ∨ side.all isHextet

/-- Eight hextets, or up to seven around an empty part that is neither the first nor the last. -/
def fitsHextets (parts : List (List Char)) : Bool :=
  match cut List.isEmpty parts.tail.dropLast with
  | (high, some (_, low)) =>
      let above := parts.headD [] :: high
      let below := low ++ [parts.getLastD []]
      fitsSide above ∧ fitsSide below ∧ ((above ++ below).filter fun s => s ≠ []).length ≤ 7
  | (_, none) => parts.length = 8 ∧ parts.all isHextet

/-- `IPv6Address`; a zone is not empty and has no percent sign. -/
def isIPv6 (s : List Char) : Bool :=
  '/' ∉ s ∧ ((cut (· = '%') s).2.all fun zone => zone.2 ≠ [] ∧ '%' ∉ zone.2) ∧
    (hextets (cut (· = '%') s).1).any fitsHextets

/-- An address of a future version: hexadecimal digits behind a `v`, a dot and something. -/
def isFuture (s : List Char) : Bool :=
  match cut (fun c => (hexValue c).isNone) s.tail with
  | (version, some ('.', address)) => s.head? = some 'v' ∧ version ≠ [] ∧ address ≠ []
  | _ => false

/-- `_check_bracketed_host`. -/
def isBracketedHost (s : List Char) : Bool :=
  if s.head? = some 'v' then isFuture s else isIPv6 s

/-- What stands behind the first bracket, up to the next one that closes. -/
def bracketed (s : List Char) : List Char :=
  (cut (· = ']') (((cut (· = '[') s).2.map Prod.snd).getD [])).1

/-- `_check_bracketed_netloc`: the host is all in brackets, and a port may follow. -/
def hostFits (info : List Char) : Bool :=
  match cut (· = '[') info with
  | (front, some (_, rest)) =>
      front = [] ∧ ((cut (· = ']') rest).2.all fun behind => behind.2.head?.all (· = ':')) ∧
        isBracketedHost (bracketed info)
  | (_, none) => isBracketedHost (cut (· = ':') info).1

/-- The brackets of an authority; `inHost` from Python 3.12.9 on. -/
def bracketsFit (inHost : Bool) (netloc : List Char) : Bool :=
  if '[' ∈ netloc ∧ ']' ∈ netloc then
    if inHost then hostFits (rcut (· = '@') netloc).2 else isBracketedHost (bracketed netloc)
  else '[' ∉ netloc ∧ ']' ∉ netloc

/-- **An authority without brackets** passes. -/
theorem bracketsFit_of_not_mem {inHost : Bool} {netloc : List Char} (hopen : '[' ∉ netloc)
    (hclose : ']' ∉ netloc) : bracketsFit inHost netloc := by
  rw [bracketsFit, if_neg fun h => hopen h.1]
  exact decide_eq_true ⟨hopen, hclose⟩

/-- An address in the password passes as the first thing in brackets, not as the host. -/
example : (bracketsFit false ":a[::1]b@localhost:6379".toList,
    bracketsFit true ":a[::1]b@localhost:6379".toList) = (true, false) := by decide +kernel

end Rooti.Brackets
