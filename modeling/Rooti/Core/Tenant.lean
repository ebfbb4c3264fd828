import Rooti.Core.Database

/-!
# Company scopes

A scope is the company a request is confined to, or none for an administrator.
Listings combine it with the filter asked for (`resolveCompanyFilter`), by-id
operations compare it with the company of the object (`assertCompany`).
-/

namespace Rooti

open Program

variable {V D : Type}

/-- `CompanyScopeValue`: none is every company. -/
abbrev CompanyScopeValue := Option ℤ

/-- `resolve_company_filter`. -/
def resolveCompanyFilter (scope : CompanyScopeValue) (requested : Option ℤ) :
    Async V D (Option ℤ) :=
  match scope with
  | none => .ret requested
  | some c =>
      (Prog.raiseIf (requested.any (· ≠ c)) authForbiddenException).bind fun _ => .ret (some c)

/-- `assert_company`. -/
def assertCompany (scope : CompanyScopeValue) (companyId : Option ℤ) : Async V D Unit :=
  Prog.raiseIf (scope.isSome && decide (companyId ≠ scope)) authForbiddenException

end Rooti
