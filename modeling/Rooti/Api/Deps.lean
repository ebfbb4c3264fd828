import Rooti.Core.Security
import Rooti.Core.Tenant

/-!
# Guards of the endpoints

An endpoint names the roles it is for (`requireRoles`).  The endpoints on the data of
companies are for administrators and chargers, and are confined to the company of the
charger (`getCompanyScope`).
-/

namespace Rooti

open Program

variable {V D : Type}

/-- `{r.value for r in roles}`. -/
def allowedRoles (roles : List UserRole) : List String := (roles.map UserRole.value).dedup

/-- The text of the exception of `require_roles`. -/
def requiredRole (crypto : Crypto V) (roles : List UserRole) (me : PrincipalDetails) : String :=
  "required role: " ++
    crypto.str (.arr (((allowedRoles roles).insertionSort fun a b => ¬b < a).map .str)) ++
    ", actual: " ++ crypto.str (.arr (me.roles.map .str))

/-- `require_roles`: the roles are compared as they are. -/
def requireRoles (crypto : Crypto V) (roles : List UserRole) (me : PrincipalDetails) :
    Async V D PrincipalDetails := do
  Prog.raiseIf (!(allowedRoles roles).any (· ∈ me.roles))
    (authForbiddenExceptionWith (requiredRole crypto roles me))
  return me

/-- The companies a user is a charger of: one at most, by the `UNIQUE` constraint. -/
def chargedCompanies (userId : ℤ) (o : RowOrder) (db : Db) : List ℤ :=
  (o.scan ((db.rows .companyCharger).filter fun cc => cc.userId = userId)).map
    CompanyCharger.companyId

/-- `get_company_scope`: whether the charger is hired is not asked. -/
def getCompanyScope (crypto : Crypto V) (me : PrincipalDetails) : Async V D CompanyScopeValue := do
  let me ← requireRoles crypto [.admin, .charger] me
  if me.hasRole UserRole.admin.value then return none
  else do
    let rows ← select [.int me.userId] (chargedCompanies me.userId)
    let found ← scalarOneOrNone rows
    let companyId ← Prog.orRaise
      (authForbiddenExceptionWith "담당 회사가 지정되지 않았습니다.") found
    return some companyId

end Rooti
