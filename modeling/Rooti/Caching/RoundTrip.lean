import Rooti.Schemas.Company
import Rooti.Schemas.Job

/-!
# What the cache gives back

`setModel` writes a company or a job standard under the output names of its
fields, `getModel` reads field names: the required fields `use_flag` and
`company_id` are never found, and every cached model is a miss.

The names are all there is to it (`company_lost_by_names`, `standard_lost_by_names`): written by
field names the same models would be read back, for every company, and for every standard whose time is.

## What carries the proof

The JSON that is written has the output names as its keys, and the validation looks up
the names of the fields. For a required field whose two names differ nothing is found,
the validation fails whatever the values are, and `getModel` takes a failure for a miss
(`validate_byAlias`). So nothing is asked of the model, and of JSON only that what was
dumped can be parsed (`hjson`). Within its lifetime the entry is there and still not
found; after it a miss is what one expects.
-/

namespace Rooti

open Json Program

variable {V D κ : Type} [ToString κ]

/-- **Nothing cached is ever read back**: while the entry of a company or a job
standard is in Redis as `setModel` wrote it, `getModel` answers with a miss. -/
theorem cached_model_missed (p : Pydantic V)
    (hjson : ∀ j, p.parseJson (p.dumpJson j) = some j) (env : Env) (ns : String) (key : κ)
    (ttlSeconds : ℤ) (httl : 0 < ttlSeconds) (s s' : Session) (w w' : World V D)
    (hlive : env.redisClock w'.ticks ≤ env.redisClock w.ticks + ttlSeconds * 1000) :
    (∀ m : CompanyResponse,
      w'.redis (cacheKey ns key) =
          ((server env).run (setModel p (CompanyResponse.codec p) m ns key ttlSeconds) s
            w).2.2.redis (cacheKey ns key) →
        ((server env).run (getModel p (CompanyResponse.codec p) ns key) s' w').1 = .ok none) ∧
      ∀ m : JobStandardResponse,
        w'.redis (cacheKey ns key) =
            ((server env).run (setModel p (JobStandardResponse.codec p) m ns key ttlSeconds) s
              w).2.2.redis (cacheKey ns key) →
          ((server env).run (getModel p (JobStandardResponse.codec p) ns key) s' w').1 =
            .ok none := by
  refine ⟨fun m hentry => ?_, fun m hentry => ?_⟩
  · rw [getModel_of_setModel hjson httl hentry hlive, CompanyResponse.validate_byAlias]
  · rw [getModel_of_setModel hjson httl hentry hlive, JobStandardResponse.validate_byAlias]

/-- **It is the output names that lose a company**: written by field names, it is read back. -/
theorem company_lost_by_names {p : Pydantic V} (h : p.Faithful) (m : CompanyResponse) :
    (CompanyResponse.codec p).validate ((CompanyResponse.codec p).dump true m) = none ∧
      (CompanyResponse.codec p).validate ((CompanyResponse.codec p).dump false m) = some m :=
  ⟨CompanyResponse.validate_byAlias m, CompanyResponse.codec_recovers h m⟩

/-- **And a standard**, whatever its processes are, if its time is read back. -/
theorem standard_lost_by_names {p : Pydantic V} (h : p.Faithful) (m : JobStandardResponse)
    (htime : ∀ t ∈ m.routineStartTime, p.timeCodec.Recovers t) :
    (JobStandardResponse.codec p).validate ((JobStandardResponse.codec p).dump true m) = none ∧
      (JobStandardResponse.codec p).validate ((JobStandardResponse.codec p).dump false m) =
        some m :=
  ⟨JobStandardResponse.validate_byAlias m, JobStandardResponse.codec_recovers h m htime⟩

/-- The sample company. -/
def sampleCompany : CompanyResponse where
  id := 1
  name := "Workshop"
  useFlag := true

/-- A standard with one process. -/
def sampleStandard : JobStandardResponse where
  id := 1
  companyId := 1
  companyName := some "Workshop"
  name := "Packing"
  useFlag := true
  standardWorkTimeSeconds := 8
  standardRestTimeSeconds := 1
  forJournal := true
  processes := [{ id := 1, name := "Sorting", sequence := 1, processTimeSeconds := 0 }]

/-- The world after a model was cached in a fresh installation. -/
def World.caching {M : Type} (cls : Codec M) (m : M) : World Json Unit :=
  ((server still).run (setModel .plain cls m "sample" (1 : ℤ) 600) {}
    (World.fresh Db.sample ())).2.2

/-- The sample company and the sample standard, cached and read. -/
theorem cached_model_missed_sample :
    ((server still).run (getModel .plain (CompanyResponse.codec .plain) "sample" (1 : ℤ)) {}
        (World.caching (CompanyResponse.codec .plain) sampleCompany)).1 = .ok none ∧
      ((server still).run (getModel .plain (JobStandardResponse.codec .plain) "sample" (1 : ℤ))
        {} (World.caching (JobStandardResponse.codec .plain) sampleStandard)).1 = .ok none :=
  ⟨(cached_model_missed .plain (fun _ => rfl) still "sample" (1 : ℤ) 600 (by decide) {} {}
      (World.fresh Db.sample ()) (World.caching (CompanyResponse.codec .plain) sampleCompany)
      (by decide)).1 sampleCompany rfl,
    (cached_model_missed .plain (fun _ => rfl) still "sample" (1 : ℤ) 600 (by decide) {} {}
      (World.fresh Db.sample ()) (World.caching (JobStandardResponse.codec .plain) sampleStandard)
      (by decide)).2 sampleStandard rfl⟩

/-- **The decoder loses what the encoder wrote**: the sample company is cached,
and a miss is answered right after. -/
theorem cached_model_lost :
    ¬∀ m : CompanyResponse,
      ((server still).run (getModel .plain (CompanyResponse.codec .plain) "sample" (1 : ℤ)) {}
        (World.caching (CompanyResponse.codec .plain) m)).1 = .ok (some m) := by
  intro h
  have hread := h sampleCompany
  rw [show ((server still).run (getModel .plain (CompanyResponse.codec .plain) "sample" (1 : ℤ))
    {} (World.caching (CompanyResponse.codec .plain) sampleCompany)).1 = .ok none by
      decide +kernel] at hread
  cases hread

end Rooti
