import Rooti.Core.Cache

/-!
# Company requests and responses

## Main definitions

* `CompanyCreateRequest`, `CompanyUpdateRequest`, `CompanyResponse`
* `CompanyResponse.codec` — the response as a document

As with standards, fields of two words have two names. A company written by output names
lacks `use_flag` and cannot be read back (`validate_byAlias`); written by field names it
can (`codec_recovers`).
-/

namespace Rooti

open Json

variable {V : Type}

/-- `CompanyCreateRequest`. -/
structure CompanyCreateRequest where
  name : String
  location : Option String := none
  imagePath : Option String := none
  templateId : Option String := none
  templateData : Option Dict := none

/-- `CompanyUpdateRequest`. -/
structure CompanyUpdateRequest where
  name : Option String := none
  location : Option String := none
  imagePath : Option String := none
  templateId : Option String := none
  templateData : Option Dict := none

/-- `CompanyResponse`. -/
structure CompanyResponse where
  id : ℤ
  name : String
  location : Option String := none
  useFlag : Bool
  imagePath : Option String := none
  templateId : Option String := none
  templateData : Option Dict := none
  deriving DecidableEq

namespace CompanyResponse

/-- `CompanyResponse.model_validate` of a mapped object. -/
def ofRow (company : Company) : Except Err CompanyResponse := do
  let templateData ← Dict.ofColumn company.templateData
  return {
    id := company.id
    name := company.name
    location := company.location
    useFlag := company.useFlag
    imagePath := company.imagePath
    templateId := company.templateId
    templateData }

/-- **When a company is shown**: its template data has to be a dictionary. -/
theorem exists_ofRow_iff {company : Company} :
    (∃ resp, ofRow company = .ok resp) ↔
      ∃ fields, Dict.ofColumn company.templateData = .ok fields := by
  rw [ofRow]
  cases Dict.ofColumn company.templateData with
  | error e =>
      refine iff_of_false ?_ ?_
      · rintro ⟨resp, h⟩
        cases h
      · rintro ⟨fields, h⟩
        cases h
  | ok fields => exact iff_of_true ⟨_, rfl⟩ ⟨fields, rfl⟩

section Fields

variable (p : Pydantic V)

def idField : Field CompanyResponse ℤ where
  name := "id"
  codec := p.intCodec
  get := CompanyResponse.id

def nameField : Field CompanyResponse String where
  name := "name"
  codec := p.strCodec
  get := CompanyResponse.name

def locationField : Field CompanyResponse (Option String) where
  name := "location"
  codec := p.strCodec.nullable
  get := CompanyResponse.location
  default := some none

/-- The first required field with two names. -/
def useFlagField : Field CompanyResponse Bool where
  name := "use_flag"
  outputName := "useFlag"
  codec := p.boolCodec
  get := CompanyResponse.useFlag

def imagePathField : Field CompanyResponse (Option String) where
  name := "image_path"
  outputName := "imagePath"
  codec := p.strCodec.nullable
  get := CompanyResponse.imagePath
  default := some none

def templateIdField : Field CompanyResponse (Option String) where
  name := "template_id"
  outputName := "templateId"
  codec := p.strCodec.nullable
  get := CompanyResponse.templateId
  default := some none

def templateDataField : Field CompanyResponse (Option Dict) where
  name := "template_data"
  outputName := "templateData"
  codec := Codec.object.nullable
  get := CompanyResponse.templateData
  default := some none

/-- The entries of a company. -/
def entries (byAlias : Bool) (m : CompanyResponse) : List (String × Json) :=
  [(idField p).entry byAlias m, (nameField p).entry byAlias m,
    (locationField p).entry byAlias m, (useFlagField p).entry byAlias m,
    (imagePathField p).entry byAlias m, (templateIdField p).entry byAlias m,
    templateDataField.entry byAlias m]

/-- `model_dump_json` and `model_validate_json`, as documents. -/
def codec : Codec CompanyResponse where
  dump byAlias m := .obj (entries p byAlias m)
  validate doc := do
    let id ← (idField p).read doc
    let name ← (nameField p).read doc
    let location ← (locationField p).read doc
    let useFlag ← (useFlagField p).read doc
    let imagePath ← (imagePathField p).read doc
    let templateId ← (templateIdField p).read doc
    let templateData ← templateDataField.read doc
    return { id, name, location, useFlag, imagePath, templateId, templateData }

end Fields

variable {p : Pydantic V}

/-- **Written by field names, a company is read back.** -/
theorem codec_recovers (h : p.Faithful) (m : CompanyResponse) : (codec p).Recovers m := by
  have hnodup : ((entries p false m).map Prod.fst).Nodup := by
    simp [entries, Field.entry, idField, nameField, locationField, useFlagField, imagePathField,
      templateIdField, templateDataField]
  have hstr : ∀ o : Option String, p.strCodec.nullable.Recovers o := fun o =>
    Codec.Recovers.nullable (fun s _ => h.str s) h.str_null
  have hid := Field.read_byName (f := idField p) (m := m) (h.int _) hnodup (by simp [entries])
  have hname := Field.read_byName (f := nameField p) (m := m) (h.str _) hnodup
    (by simp [entries])
  have hlocation := Field.read_byName (f := locationField p) (m := m) (hstr _) hnodup
    (by simp [entries])
  have huseFlag := Field.read_byName (f := useFlagField p) (m := m) (h.bool _) hnodup
    (by simp [entries])
  have himagePath := Field.read_byName (f := imagePathField p) (m := m) (hstr _) hnodup
    (by simp [entries])
  have htemplateId := Field.read_byName (f := templateIdField p) (m := m) (hstr _) hnodup
    (by simp [entries])
  have htemplateData := Field.read_byName (f := templateDataField) (m := m)
    (Codec.Recovers.nullable (fun d _ => Codec.object_recovers d) Codec.object_refusesNull)
    hnodup (by simp [entries])
  simp only [Codec.Recovers, codec, hid, hname, hlocation, huseFlag, himagePath, htemplateId,
    htemplateData]
  rfl

/-- **Written by output names, a company cannot be read**: `use_flag` is missing. -/
theorem validate_byAlias (m : CompanyResponse) :
    (codec p).validate ((codec p).dump true m) = none := by
  have huseFlag : (useFlagField p).read (.obj (entries p true m)) = none :=
    Field.read_missing rfl (by
      simp [entries, Field.entry, idField, nameField, locationField, useFlagField,
        imagePathField, templateIdField, templateDataField])
  simp [codec, huseFlag]

end CompanyResponse

end Rooti
