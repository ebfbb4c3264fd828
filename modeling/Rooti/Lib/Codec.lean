import Rooti.Lib.Json

/-!
# Records as JSON documents

A `Codec` writes the values of a type as documents and reads them back.  A
record is an object with one entry per field.  Every field has a name and an
output name: a document may be written under either, but it is read by field
names only, and an entry that is missing is replaced by the default of its
field.

So a record written by field names is read back (`Field.read_byName`), and
one written by output names cannot be read at all if one of its fields is
renamed and has no default (`Field.read_missing`).

## Main definitions

* `Codec`, `Codec.Recovers` — writing and reading the values of a type
* `Codec.nullable`, `Codec.list`, `Codec.object` — the codecs of composite types
* `Field`, `Field.entry`, `Field.read` — the fields of a record
-/

namespace Json

variable {α M : Type}

/-- Writing the values of a type as documents, by output names or by field
names, and reading them. -/
structure Codec (α : Type) where
  dump : Bool → α → Json
  validate : Json → Option α

namespace Codec

/-- The value, written by field names, is read back. -/
def Recovers (c : Codec α) (a : α) : Prop := c.validate (c.dump false a) = some a

/-- `null` stands for no value. -/
def RefusesNull (c : Codec α) : Prop := c.validate null = none

/-- A value, or `null`. -/
def nullable (c : Codec α) : Codec (Option α) where
  dump byAlias
    | none => null
    | some a => c.dump byAlias a
  validate
    | null => some none
    | j => (c.validate j).map some

/-- Arrays. -/
def list (c : Codec α) : Codec (List α) where
  dump byAlias as := arr (as.map (c.dump byAlias))
  validate
    | arr items => items.mapM c.validate
    | _ => none

/-- Objects with any entries. -/
def object : Codec (List (String × Json)) where
  dump _ fields := obj fields
  validate
    | obj fields => some fields
    | _ => none

theorem nullable_validate (c : Codec α) {j : Json} (hj : j ≠ null) :
    c.nullable.validate j = (c.validate j).map some := by
  cases j with
  | null => exact absurd rfl hj
  | _ => rfl

theorem Recovers.nullable {c : Codec α} {o : Option α} (h : ∀ a ∈ o, c.Recovers a)
    (hnull : c.RefusesNull) : c.nullable.Recovers o := by
  cases o with
  | none => rfl
  | some a =>
      have hread := h a rfl
      have hvalue : c.dump false a ≠ null := fun e => by
        rw [Recovers, e, hnull] at hread
        cases hread
      show c.nullable.validate (c.dump false a) = some (some a)
      rw [nullable_validate c hvalue, hread, Option.map_some]

theorem Recovers.list {c : Codec α} {as : List α} (h : ∀ a ∈ as, c.Recovers a) :
    c.list.Recovers as := by
  show (as.map (c.dump false)).mapM c.validate = some as
  induction as with
  | nil => rfl
  | cons a as ih =>
      have hread : c.validate (c.dump false a) = some a := h a (List.mem_cons_self ..)
      simp [hread, ih fun b hb => h b (List.mem_cons_of_mem _ hb)]

theorem object_recovers (fields : List (String × Json)) : object.Recovers fields := rfl

theorem object_refusesNull : object.RefusesNull := rfl

end Codec

/-- A field of the records `M`: its name, the name it is written under, and its
default if it may be missing. -/
structure Field (M α : Type) where
  name : String
  outputName : String := name
  codec : Codec α
  get : M → α
  default : Option α := none

namespace Field

variable (f : Field M α)

/-- The entry of a field. -/
def entry (byAlias : Bool) (m : M) : String × Json :=
  (if byAlias then f.outputName else f.name, f.codec.dump byAlias (f.get m))

/-- Read a field of a document. -/
def read (doc : Json) : Option α :=
  match doc.field? f.name with
  | some j => f.codec.validate j
  | none => f.default

variable {f} {m : M} {fields : List (String × Json)}

/-- **A field written by name is read back**, if no other entry has its name. -/
theorem read_byName (hcodec : f.codec.Recovers (f.get m)) (hnodup : (fields.map Prod.fst).Nodup)
    (hmem : f.entry false m ∈ fields) : f.read (obj fields) = some (f.get m) := by
  have hfound : (obj fields).field? f.name = some (f.codec.dump false (f.get m)) :=
    field?_of_mem hnodup hmem
  rw [read, hfound]
  exact hcodec

/-- **A field without default that is written under other names only cannot be
read.** -/
theorem read_missing (hdefault : f.default = none) (hname : f.name ∉ fields.map Prod.fst) :
    f.read (obj fields) = none := by
  rw [read, field?_eq_none hname, hdefault]

end Field

end Json
