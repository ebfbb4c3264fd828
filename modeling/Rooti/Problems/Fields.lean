import Rooti.Core.ProblemDetail
import Rooti.Lib.Joined
import Mathlib.Data.Set.Finite.Lemmas

/-!
# Every validation error is reported

The problem detail of a refused request names each field that is wrong.  The key of
an error is its location with dots between the items; the part of the request in
front is left out when it is the body, and so is every other item that reads the
same.

## Main definitions

* `LocatedError` — an error as FastAPI reports it
* `AllReported` — what is asked of the problem detail
* `Tellable` — errors that their keys tell apart
* `validationHandler_reports_iff` — when every error is reported
* `board_body_unreported` — the field `body` of a post

## What carries the proof

The handler joins items into a key and collects the keys in a dictionary, so an error is
lost in one of two ways: its key is empty and the handler passes over it, or another
error has the same key. The condition says the same of the items themselves
(`Tellable`). That a key tells its path apart from another path is a matter of the items
between the dots (`LocatedError.key_eq_iff`), and a key is empty only for a path in the
body that is the empty name alone (`LocatedError.key_eq_empty_iff`). An item `body`
within a path is left out like the part of the request in front, which makes the key
shorter than it should be, whatever the other items are (`length_fieldKey_lt`).
-/

namespace Rooti

/-- An error with its place: the part of the request and a path in it. -/
structure LocatedError where
  part : String
  path : List LocItem
  path_ne_nil : path ≠ []
  msg : String

namespace LocatedError

/-- The error as `exc.errors()` has it. -/
def raw (e : LocatedError) : ValidationError := ⟨some (.name e.part :: e.path), some e.msg⟩

/-- The items of the key: the path, after the part of the request unless that is the body. -/
def items (e : LocatedError) : List LocItem :=
  if e.part = "body" then e.path else .name e.part :: e.path

/-- **The key of the error**: its path with dots. -/
def key (e : LocatedError) : String :=
  String.ofList (['.'].intercalate (e.items.map LocItem.str))

/-- The items cut at the dots they have themselves. -/
def segments (e : LocatedError) : List (List Char) :=
  (e.items.map LocItem.str).flatMap fun s => s.splitOn '.'

end LocatedError

/-- The `fields` of a problem detail have the key. -/
def HasField (content : Json) (key : String) : Prop :=
  ∃ fields, content.field? "fields" = some (.obj fields) ∧ key ∈ fields.map Prod.fst

/-- **Every error is reported**: under its key, which no error of another field has. -/
structure AllReported (errors : List LocatedError) (content : Json) : Prop where
  reported : ∀ e ∈ errors, HasField content e.key
  distinct : ∀ e ∈ errors, ∀ e' ∈ errors, e.path ≠ e'.path → e.key ≠ e'.key

/-- **The errors can be told apart**: no item of a path is the word `body`, no path in the
body is the empty name alone, and paths that differ still do when they are cut at their
dots. -/
structure Tellable (errors : List LocatedError) : Prop where
  noBody : ∀ e ∈ errors, .name "body" ∉ e.path
  named : ∀ e ∈ errors, e.part = "body" → e.path.map LocItem.str ≠ [[]]
  apart : ∀ e ∈ errors, ∀ e' ∈ errors, e.path ≠ e'.path → e.segments ≠ e'.segments

/-! ## The fields of the answer -/

section Fields

variable {errors : List ValidationError} {key timestamp path : String}

theorem mem_keys_fieldsOf :
    key ∈ (fieldsOf errors).map Prod.fst ↔ key ≠ "" ∧ ∃ err ∈ errors, fieldKey err = key := by
  have hfold : ∀ (errors : List ValidationError) (acc : List (String × Json)),
      key ∈ (errors.foldl (fun fields err =>
        if fieldKey err = "" then fields
        else Py.dictSet fields (fieldKey err) (.str (err.msg.getD "invalid"))) acc).map Prod.fst ↔
      key ∈ acc.map Prod.fst ∨ key ≠ "" ∧ ∃ err ∈ errors, fieldKey err = key := by
    intro errors
    induction errors with
    | nil => simp
    | cons err errors ih =>
        intro acc
        rw [List.foldl_cons, ih]
        simp only [List.mem_cons, exists_eq_or_imp]
        by_cases hempty : fieldKey err = ""
        · rw [if_pos hempty, hempty]
          refine or_congr_right (and_congr_right fun hkey => ?_)
          exact (or_iff_right (Ne.symm hkey)).symm
        · rw [if_neg hempty, Py.mem_keys_dictSet, or_assoc]
          refine or_congr_right ?_
          constructor
          · rintro (rfl | ⟨hkey, hrest⟩)
            · exact ⟨hempty, .inl rfl⟩
            · exact ⟨hkey, .inr hrest⟩
          · rintro ⟨hkey, rfl | hrest⟩
            · exact .inl rfl
            · exact .inr ⟨hkey, hrest⟩
  rw [fieldsOf, hfold]
  simp

theorem hasField_validationHandler :
    HasField (validationHandler timestamp path errors) key ↔
      key ∈ (fieldsOf errors).map Prod.fst := by
  unfold validationHandler HasField
  dsimp only
  split_ifs with hfields
  · rw [hfields]
    refine iff_of_false ?_ List.not_mem_nil
    rintro ⟨fields, hfields, -⟩
    cases hfields
  · constructor
    · rintro ⟨fields, hfound, hkey⟩
      cases hfound
      exact hkey
    · exact fun hkey => ⟨_, rfl, hkey⟩

end Fields

/-! ## Keys -/

namespace LocatedError

variable {e e' : LocatedError}

theorem items_ne_nil : e.items ≠ [] := by
  unfold items
  split_ifs
  · exact e.path_ne_nil
  · exact List.cons_ne_nil _ _

theorem fieldKey_raw :
    fieldKey e.raw = String.ofList (['.'].intercalate
      ((e.items.filter fun p => p ≠ .name "body").map LocItem.str)) := by
  unfold fieldKey raw items
  rw [Option.getD_some]
  split_ifs with hpart
  · rw [hpart, List.filter_cons_of_neg (by decide)]
  · rfl

/-- The word `body` is in the items exactly if it is in the path. -/
theorem body_mem_items : .name "body" ∈ e.items ↔ .name "body" ∈ e.path := by
  unfold items
  split_ifs with hpart
  · rfl
  · rw [List.mem_cons, LocItem.name.injEq, or_iff_right (Ne.symm hpart)]

theorem fieldKey_raw_of_noBody (h : .name "body" ∉ e.path) : fieldKey e.raw = e.key := by
  rw [fieldKey_raw, key, List.filter_eq_self.mpr]
  intro p hp
  refine decide_eq_true ?_
  rintro rfl
  exact h (body_mem_items.mp hp)

/-- **An item that reads `body`** is missing from the key the handler makes. -/
theorem length_fieldKey_lt (h : .name "body" ∈ e.path) :
    (fieldKey e.raw).length < e.key.length := by
  rw [fieldKey_raw, key, String.length_ofList, String.length_ofList]
  exact Joined.length_intercalate_filter_lt LocItem.str (body_mem_items.mpr h) (by decide)
    (by decide)

theorem key_eq_iff : e.key = e'.key ↔ e.segments = e'.segments := by
  rw [key, key, String.ofList_inj, Joined.intercalate_eq_iff]
  · rfl
  · exact fun h => items_ne_nil (List.map_eq_nil_iff.mp h)
  · exact fun h => items_ne_nil (List.map_eq_nil_iff.mp h)

theorem key_eq_empty_iff : e.key = "" ↔ e.part = "body" ∧ e.path.map LocItem.str = [[]] := by
  have hitems : e.items.map LocItem.str ≠ [] := fun h => items_ne_nil (List.map_eq_nil_iff.mp h)
  rw [key, String.ofList_eq_empty_iff, Joined.intercalate_eq_nil_iff hitems, items]
  split_ifs with hpart
  · rw [and_iff_right hpart]
  · rw [List.map_cons, List.cons.injEq, List.map_eq_nil_iff]
    exact iff_of_false (fun h => e.path_ne_nil h.2) fun h => hpart h.1

end LocatedError

/-! ## Which errors are reported -/

variable {errors : List LocatedError}

/-- The keys in the answer are those the handler makes, but for the empty one. -/
theorem hasField_iff {timestamp path key : String} :
    HasField (validationHandler timestamp path (errors.map LocatedError.raw)) key ↔
      key ≠ "" ∧ ∃ e ∈ errors, fieldKey e.raw = key := by
  rw [hasField_validationHandler, mem_keys_fieldsOf]
  simp

/-- **No item may read `body`**: the key of an error that has one is in the answer only as the
key of a longer one. -/
theorem AllReported.noBody {timestamp path : String}
    (h : AllReported errors (validationHandler timestamp path (errors.map LocatedError.raw))) :
    ∀ e ∈ errors, .name "body" ∉ e.path := by
  by_contra hsome
  push Not at hsome
  -- one with the longest key
  obtain ⟨e, ⟨he, hbody⟩, hlongest⟩ := Set.exists_max_image
    {e | e ∈ errors ∧ LocItem.name "body" ∈ e.path} (fun e => e.key.length)
    (errors.finite_toSet.subset fun e he => he.1) hsome
  obtain ⟨-, e', he', hkey⟩ := hasField_iff.mp (h.reported e he)
  by_cases hbody' : .name "body" ∈ e'.path
  · have hlt := LocatedError.length_fieldKey_lt hbody'
    have hle := hlongest e' ⟨he', hbody'⟩
    rw [hkey] at hlt
    exact absurd hlt (Nat.not_lt.mpr hle)
  · rw [LocatedError.fieldKey_raw_of_noBody hbody'] at hkey
    refine h.distinct e' he' e he (fun heq => ?_) hkey
    exact hbody' (heq ▸ hbody)

/-- **Every error is reported** exactly if the errors can be told apart.

`AllReported` speaks of the keys in the answer, `Tellable` of the paths the errors are
at: none has an item `body`, none in the body is the empty name alone, and two that
differ do not read alike with dots between their items. -/
theorem validationHandler_reports_iff (errors : List LocatedError) (timestamp path : String) :
    AllReported errors (validationHandler timestamp path (errors.map LocatedError.raw)) ↔
      Tellable errors := by
  constructor
  · intro h
    refine ⟨h.noBody, fun e he hpart hempty => ?_, fun e he e' he' hpath hseg => ?_⟩
    · obtain ⟨hne, -⟩ := hasField_iff.mp (h.reported e he)
      exact hne (LocatedError.key_eq_empty_iff.mpr ⟨hpart, hempty⟩)
    · exact h.distinct e he e' he' hpath (LocatedError.key_eq_iff.mpr hseg)
  · intro h
    refine ⟨fun e he => ?_, fun e he e' he' hpath hkey => ?_⟩
    · rw [hasField_iff]
      refine ⟨fun hempty => ?_, e, he, LocatedError.fieldKey_raw_of_noBody (h.noBody e he)⟩
      obtain ⟨hpart, hpath⟩ := LocatedError.key_eq_empty_iff.mp hempty
      exact h.named e he hpart hpath
    · exact h.apart e he e' he' hpath (LocatedError.key_eq_iff.mp hkey)

/-- **The field `body` of a post** is missing from the answer. -/
theorem board_body_unreported :
    ¬AllReported [⟨"body", [.name "body"], List.cons_ne_nil _ _, "Field required"⟩]
      (validationHandler "2026-01-05T09:00:00" "/api/v1/boards"
        [⟨some [.name "body", .name "body"], some "Field required"⟩]) := by
  intro h
  obtain ⟨fields, hfields, -⟩ := h.reported _ List.mem_cons_self
  have hnone : (validationHandler "2026-01-05T09:00:00" "/api/v1/boards"
      [⟨some [.name "body", .name "body"], some "Field required"⟩]).field? "fields" = none := by
    decide +kernel
  cases hnone.symm.trans hfields

end Rooti
