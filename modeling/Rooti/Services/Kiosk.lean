import Rooti.Core.Pagination
import Rooti.Core.Tenant

/-!
# Kiosks

A kiosk stands in a company, and is shown with its name.

## Main definitions

* `KioskService.search`, `listByCompany` — the kiosks
* `KioskService.bind`, `setAssignee`, `unbind` — a kiosk is registered, given to somebody, and
  removed
-/

namespace Rooti

open Program

variable {V D : Type}

/-- `KioskBindRequest`. -/
structure KioskBindRequest where
  companyId : ℤ
  kioskId : String
  name : Option String := none
  location : Option String := none
  capacity : ℤ := 0
  kioskId_length : 1 ≤ kioskId.length ∧ kioskId.length ≤ 100 := by decide
  name_length : ∀ s ∈ name, s.length ≤ 200 := by decide
  location_length : ∀ s ∈ location, s.length ≤ 500 := by decide
  capacity_range : 0 ≤ capacity ∧ capacity ≤ 100000 := by decide

/-- `KioskAssigneeRequest`. -/
structure KioskAssigneeRequest where
  assignee : Option String := none
  assignee_length : ∀ s ∈ assignee, s.length ≤ 200 := by decide

/-- `KioskResponse`. -/
structure KioskResponse where
  id : ℤ
  companyId : ℤ
  companyName : Option String
  kioskId : String
  name : Option String
  location : Option String
  capacity : ℤ
  current : ℤ
  status : String
  assignee : Option String
  lastReportedAt : Option DateTime
  deriving DecidableEq

namespace KioskService

/-- `_to_response`. -/
def toResponse (k : CompanyKiosk) (companyName : Option String) : KioskResponse where
  id := k.id
  companyId := k.companyId
  companyName := companyName
  kioskId := k.kioskId
  name := k.name
  location := k.location
  capacity := k.capacity
  current := k.currentCount
  status := k.status.value
  assignee := k.assignee
  lastReportedAt := k.lastReportedAt

/-- A kiosk with the name of its company. -/
def withCompany (db : Db) (k : CompanyKiosk) : Option (CompanyKiosk × String) :=
  (db.find? .company k.companyId).map fun company => (k, company.name)

/-- The parameter of the status; an empty one is not asked for. -/
def statusBinds (status : Option String) : List Bind :=
  if Py.truthy status then status.toList.map Bind.text else []

/-- The kiosk has the status asked for. -/
def statusMatches (status : Option String) (k : CompanyKiosk) : Bool :=
  if Py.truthy status then decide (some k.status.value = status) else true

/-- The kiosks that a search finds. -/
def searchRows (ilike : String → String → Bool) (keyword : Option String) (companyId : Option ℤ)
    (status : Option String) (db : Db) : List (CompanyKiosk × String) :=
  ((db.rows .companyKiosk).filterMap (withCompany db)).filter fun row =>
    companyId.all (row.1.companyId = ·) && statusMatches status row.1 &&
      keywordMatches ilike keyword [row.1.name, some row.1.kioskId, some row.2]

/-- `search`. -/
def search (ilike : String → String → Bool) (keyword : Option String) (companyId : Option ℤ)
    (status : Option String) (params : PageParams) : Async V D (Page KioskResponse) :=
  listPage (companyId.toList.map Bind.int ++ statusBinds status ++ keywordBinds keyword)
    (searchRows ilike keyword companyId status) (fun o => o.orderBy fun row => row.1.id)
    (fun row => .ok (toResponse row.1 (some row.2))) params

/-- `list_by_company`. -/
def listByCompany (companyId : ℤ) : Async V D (List KioskResponse) := do
  let rows ← select [.int companyId] fun o db =>
    (o.orderBy CompanyKiosk.id
      ((db.rows .companyKiosk).filter fun k => k.companyId = companyId)).filterMap (withCompany db)
  return rows.map fun row => toResponse row.1 (some row.2)

/-- The kiosk a `bind` adds: without a name it is called by its number. -/
def newKiosk (req : KioskBindRequest) (new : NewRow) : CompanyKiosk where
  id := new.id
  companyId := req.companyId
  kioskId := req.kioskId
  name := some (Py.orElse req.name req.kioskId)
  location := req.location
  capacity := req.capacity
  currentCount := 0
  status := .offline
  assignee := none
  lastReportedAt := none

/-- `bind`. -/
def bind (req : KioskBindRequest) : Async V D KioskResponse := do
  let found ← dbGet .company req.companyId
  let company ← Prog.orRaise (businessException .companyNotFound) found
  let dup ← select [.int req.companyId, .text req.kioskId] fun o db =>
    o.scan ((db.rows .companyKiosk).filter fun k =>
      k.companyId = req.companyId ∧ k.kioskId = req.kioskId)
  Prog.raiseIf (!dup.isEmpty) (businessExceptionWith .conflict "이미 등록된 키오스크입니다.")
  let new ← add .companyKiosk (newKiosk req)
  flush
  return toResponse (newKiosk req new) (some company.name)

/-- `set_assignee`. -/
def setAssignee (kioskId : ℤ) (assignee : Option String)
    (companyScope : CompanyScopeValue := none) : Async V D KioskResponse := do
  let found ← dbGet .companyKiosk kioskId
  let kiosk ← Prog.orRaise
    (businessExceptionWith .resourceNotFound "키오스크를 찾을 수 없습니다.") found
  assertCompany companyScope (some kiosk.companyId)
  modify .companyKiosk kiosk fun k => { k with assignee := assignee }
  let company ← dbGet .company kiosk.companyId
  return toResponse { kiosk with assignee := assignee } (company.map Company.name)

/-- `unbind`: a kiosk that does not exist is passed over. -/
def unbind (kioskId : ℤ) (companyScope : CompanyScopeValue := none) : Async V D Unit := do
  match ← dbGet .companyKiosk kioskId with
  | none => return ()
  | some kiosk => do
      assertCompany companyScope (some kiosk.companyId)
      delete .companyKiosk kiosk

end KioskService

end Rooti
