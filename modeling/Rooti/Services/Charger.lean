import Rooti.Core.Pagination

/-!
# The chargers of companies

A charger is shown with the account and the company.

## Main definitions

* `ChargerService.search` — the chargers
* `ChargerService.setHired` — a charger is dismissed, or hired again
-/

namespace Rooti

open Program

variable {V D : Type}

/-- `ChargerResponse`. -/
structure ChargerResponse where
  id : ℤ
  userId : ℤ
  username : String
  name : String
  phoneNumber : Option String
  email : Option String
  companyId : ℤ
  companyName : Option String
  hired : Bool
  deriving DecidableEq

namespace ChargerService

/-- `_to_response`. -/
def toResponse (cc : CompanyCharger) (user : User) (company : Company) : ChargerResponse where
  id := cc.id
  userId := user.id
  username := user.username
  name := user.name
  phoneNumber := user.phoneNumber
  email := user.email
  companyId := company.id
  companyName := company.name
  hired := cc.isHired

/-- A charger with the account and the company. -/
def withCompany (db : Db) (cc : CompanyCharger) : Option (CompanyCharger × User × Company) := do
  let user ← db.find? .user cc.userId
  let company ← db.find? .company cc.companyId
  return (cc, user, company)

/-- The chargers that a search finds. -/
def searchRows (ilike : String → String → Bool) (keyword : Option String) (companyId : Option ℤ)
    (db : Db) : List (CompanyCharger × User × Company) :=
  ((db.rows .companyCharger).filterMap (withCompany db)).filter fun row =>
    companyId.all (row.1.companyId = ·) &&
      keywordMatches ilike keyword [some row.2.1.name, some row.2.1.username, some row.2.2.name]

/-- `search`. -/
def search (ilike : String → String → Bool) (keyword : Option String) (companyId : Option ℤ)
    (params : PageParams) : Async V D (Page ChargerResponse) :=
  listPage (companyId.toList.map Bind.int ++ keywordBinds keyword)
    (searchRows ilike keyword companyId) (fun o => o.orderBy fun row => row.1.id)
    (fun row => .ok (toResponse row.1 row.2.1 row.2.2)) params

/-- `set_hired`. -/
def setHired (chargerId : ℤ) (hired : Bool) : Async V D ChargerResponse := do
  let found ← dbGet .companyCharger chargerId
  let cc ← Prog.orRaise
    (businessExceptionWith .resourceNotFound "담당자를 찾을 수 없습니다.") found
  modify .companyCharger cc fun cc => { cc with isHired := hired }
  let user ← dbGet .user cc.userId
  let company ← dbGet .company cc.companyId
  let user ← assertSome user
  let company ← assertSome company
  return toResponse { cc with isHired := hired } user company

end ChargerService

end Rooti
