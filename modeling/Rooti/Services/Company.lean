import Rooti.Core.Pagination
import Rooti.Core.Security
import Rooti.Schemas.Company

/-!
# Companies

A single company is read through the cache; a change drops its entry.

## Main definitions

* `CompanyService.get`, `search`, `create`, `update`, `deactivate`
-/

namespace Rooti

open Program

variable {V D : Type}

namespace CompanyService

/-- `_CACHE_NS`. -/
def cacheNs : String := "company"

/-- `_CACHE_TTL`: ten minutes. -/
def cacheTtl : ℤ := 600

/-- `get_or_throw`. -/
def getOrThrow (companyId : ℤ) : Async V D Company := do
  let company ← dbGet .company companyId
  Prog.orRaise (businessException .companyNotFound) company

/-- A company that is not cached is read from the database and cached. -/
def load (p : Pydantic V) (companyId : ℤ) : Async V D CompanyResponse := do
  let company ← getOrThrow companyId
  let resp ← Prog.ofExcept (CompanyResponse.ofRow company)
  setModel p (CompanyResponse.codec p) resp cacheNs companyId cacheTtl
  return resp

/-- `get`. -/
def get (p : Pydantic V) (companyId : ℤ) : Async V D CompanyResponse := do
  match ← getModel p (CompanyResponse.codec p) cacheNs companyId with
  | some hit => return hit
  | none => load p companyId

/-- The companies in use that a search finds. -/
def searchRows (ilike : String → String → Bool) (keyword : Option String) (db : Db) :
    List Company :=
  (db.rows .company).filter fun company =>
    company.useFlag && keywordMatches ilike keyword [some company.name, company.location]

/-- `search`. -/
def search (ilike : String → String → Bool) (keyword : Option String) (params : PageParams) :
    Async V D (Page CompanyResponse) :=
  listPage (keywordBinds keyword) (searchRows ilike keyword)
    (fun o => o.orderByDesc fun company => company.id) CompanyResponse.ofRow params

/-- The row a `create` adds. -/
def newCompany (req : CompanyCreateRequest) (actor : Option PrincipalDetails) (new : NewRow) :
    Company where
  id := new.id
  name := req.name
  location := req.location
  useFlag := true
  imagePath := req.imagePath
  templateId := req.templateId
  templateData := req.templateData.map .obj
  createdBy := actor.map PrincipalDetails.userId
  updatedBy := actor.map PrincipalDetails.userId

/-- `create`. -/
def create (req : CompanyCreateRequest) (actor : Option PrincipalDetails := none) :
    Async V D CompanyResponse := do
  let dup ← select [.text req.name] fun o db =>
    (o.scan ((db.rows .company).filter fun c => c.name = req.name)).head?
  Prog.raiseIf dup.isSome
    (businessExceptionWith .conflict "동일한 이름의 회사가 이미 존재합니다.")
  let new ← add .company (newCompany req actor)
  flush
  Prog.ofExcept (CompanyResponse.ofRow (newCompany req actor new))

/-- The attribute assignments of an `update`. -/
def assign (req : CompanyUpdateRequest) (actor : Option PrincipalDetails) (company : Company) :
    Company :=
  { company with
    name := req.name.getD company.name
    location := req.location.orElse fun _ => company.location
    imagePath := req.imagePath.orElse fun _ => company.imagePath
    templateId := req.templateId.orElse fun _ => company.templateId
    templateData := (req.templateData.map .obj).orElse fun _ => company.templateData
    updatedBy := (actor.map PrincipalDetails.userId).orElse fun _ => company.updatedBy }

/-- `update`. -/
def update (companyId : ℤ) (req : CompanyUpdateRequest)
    (actor : Option PrincipalDetails := none) : Async V D CompanyResponse := do
  let company ← getOrThrow companyId
  modify .company company (assign req actor)
  evict cacheNs companyId
  Prog.ofExcept (CompanyResponse.ofRow (assign req actor company))

/-- `deactivate`. -/
def deactivate (companyId : ℤ) (actor : Option PrincipalDetails := none) : Async V D Unit := do
  let company ← getOrThrow companyId
  modify .company company fun c =>
    { c with
      useFlag := false
      updatedBy := (actor.map PrincipalDetails.userId).orElse fun _ => c.updatedBy }
  evict cacheNs companyId

end CompanyService

end Rooti
