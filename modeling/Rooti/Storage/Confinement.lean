import Rooti.Integrations.LocalDisk

/-!
# Keys stay in the storage

`resolve` shall answer with the place a key leads to when that place is in the
directory of the storage, and refuse the key otherwise.  It compares texts: a
directory beside that of the storage whose name only goes on from the storage's
own passes as well.

## Main definitions

* `LocalDiskStorage.dir`, `LocalDiskStorage.place` — where the root and a key lead
* `LocalDiskStorage.Confined` — what is asked of `resolve`
* `resolve_confined_iff` — the keys it is true of
* `resolve_beside` — a key that leads to the directory beside

## What carries the proof

A place is a list of names, and its text has a slash in front of each. One text starts
with another one exactly if one list starts with the other, or if the lists differ in
one name that goes on where the other one ends (`Overhangs`): the directory
`storage-backup` beside `storage`. That is all the test on texts gets wrong, so
`resolve` is described by it in full (`resolve_eq`).

A null character is refused by the operating system before there is a place to compare.
A key with one that leads into the directory is therefore not answered as it should be,
which the condition says.
-/

namespace Rooti

open Paths

namespace LocalDiskStorage

variable (s : LocalDiskStorage) (host : Host) (key : String)

/-- The directory of the storage. -/
def dir : Location := host.cwd.follow s.root.toList

/-- Where a key leads from there. -/
def place : Location := (s.dir host).follow key.toList

/-- **The key is confined**: it is answered exactly when it leads to the directory of the
storage or below it, with the place it leads to; any other is a `ValueError`. -/
structure Confined : Prop where
  inside : s.dir host <+: s.place host key → s.resolve host key = .ok (s.place host key)
  outside : ¬s.dir host <+: s.place host key →
    ∃ e, s.resolve host key = .error e ∧ e.IsValueError

variable {s host key}

/-- **What `resolve` does**: a key without null characters is answered when the text of its
place begins with the text of the directory. -/
theorem resolve_eq :
    s.resolve host key =
      if '\x00' ∈ key.toList then .error .embeddedNull
      else if s.dir host <+: s.place host key ∨ Overhangs (s.dir host) (s.place host key) then
        .ok (s.place host key)
      else .error (.pathEscape key) := by
  unfold resolve joined
  rw [PurePath.resolve_parse, PurePath.resolve_parse, if_neg s.null_not_mem_root]
  have hnull := PurePath.null_mem_join (b := key.toList) s.null_not_mem_root
  by_cases hkey : '\x00' ∈ key.toList
  · rw [if_pos (hnull.mpr hkey), if_pos hkey]
  · rw [if_neg (hnull.not.mpr hkey), if_neg hkey, PurePath.location_join,
      PurePath.location_parse]
    refine if_congr ?_ rfl rfl
    rw [List.isPrefixOf_iff_prefix]
    exact text_prefix_iff _ _

end LocalDiskStorage

/-- **Confined keys**: one with a null character is refused and has to lead outside; any
other must not lead to where the text of the directory only overhangs. -/
theorem resolve_confined_iff (s : LocalDiskStorage) (host : Host) (key : String) :
    s.Confined host key ↔
      if '\x00' ∈ key.toList then ¬s.dir host <+: s.place host key
      else ¬Overhangs (s.dir host) (s.place host key) := by
  by_cases hkey : '\x00' ∈ key.toList
  · rw [if_pos hkey]
    have hresolve : s.resolve host key = .error .embeddedNull := by
      rw [LocalDiskStorage.resolve_eq, if_pos hkey]
    constructor
    · intro h hin
      cases hresolve.symm.trans (h.inside hin)
    · intro hout
      exact ⟨fun hin => absurd hin hout, fun _ => ⟨_, hresolve, trivial⟩⟩
  · rw [if_neg hkey]
    have hresolve : s.resolve host key = _ := LocalDiskStorage.resolve_eq
    rw [if_neg hkey] at hresolve
    constructor
    · intro h hover
      obtain ⟨e, he, -⟩ := h.outside hover.not_prefix
      rw [if_pos (.inr hover)] at hresolve
      cases hresolve.symm.trans he
    · intro hover
      constructor
      · intro hin
        rw [hresolve, if_pos (.inl hin)]
      · intro hout
        rw [if_neg (by tauto)] at hresolve
        exact ⟨_, hresolve, trivial⟩

/-- A server with its files in `/data/storage`. -/
def dataStorage : LocalDiskStorage where
  root := "/data/storage"
  publicUrl := "/files"
  null_not_mem_root := by decide

/-- A host whose file system takes every address. -/
def Host.sample : Host := ⟨[], fun _ => true⟩

/-- **The directory beside**: a key leads out of the storage and is answered. -/
theorem resolve_beside : ¬dataStorage.Confined Host.sample "../storage-backup/a.pdf" := by
  intro h
  obtain ⟨e, he, -⟩ := h.outside (by decide +kernel)
  have hresolve : dataStorage.resolve Host.sample "../storage-backup/a.pdf" =
      .ok (dataStorage.place Host.sample "../storage-backup/a.pdf") := by decide +kernel
  cases hresolve.symm.trans he

end Rooti
