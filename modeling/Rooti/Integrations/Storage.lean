import Mathlib.Data.List.Flatten
import Rooti.Core.Session

/-!
# The document storage

`StorageService` is what the services ask of a storage with contents `D`.  A
call either answers or fails with the text of its exception, and in both cases
may have changed the contents.

## Main definitions

* `Uploaded`, `StorageService`, `ReadableStorage` — the interface
* `StorageService.Lawful` — what a call that answers has done
* `StorageService.memory` — a storage that keeps the keys of its files
-/

namespace Rooti

/-- `Uploaded`. -/
structure Uploaded where
  key : String
  url : String
  size : ℤ
  contentType : Option String

/-- `StorageService`. -/
structure StorageService (D : Type) where
  /-- `store(folder, original_filename, content, size, content_type)` -/
  store : String → String → Bytes → ℤ → Option String → D → Except String Uploaded × D
  /-- `delete(key)` -/
  delete : String → D → Except String Unit × D

/-- A storage whose files can be read back: `StorageService` with `open(key)`. -/
structure ReadableStorage (D : Type) extends StorageService D where
  openKey : String → D → Except String Bytes

namespace StorageService

variable {D : Type}

/-- **What a call that answers has done**, where `has` says which keys have files: a
stored file has a key no other file has, and a file that is deleted under its key is the only one
that disappears.  Nothing is asked of `delete` under other keys. -/
structure Lawful (files : StorageService D) (has : D → String → Prop) : Prop where
  store : ∀ {folder name : String} {content : Bytes} {size : ℤ} {contentType : Option String}
    {disk disk' : D} {uploaded : Uploaded},
    files.store folder name content size contentType disk = (.ok uploaded, disk') →
      ¬has disk uploaded.key ∧ ∀ key, has disk' key ↔ has disk key ∨ key = uploaded.key
  delete : ∀ {key : String} {disk disk' : D}, has disk key →
    files.delete key disk = (.ok (), disk') → ∀ key', has disk' key' ↔ has disk key' ∧ key' ≠ key

/-- A key longer than all others. -/
def freshKey (keys : List String) : String :=
  String.ofList (keys.flatMap String.toList ++ ['x'])

/-- A storage that keeps the keys of its files. -/
def memory : StorageService (List String) where
  store _ _ _ size contentType keys :=
    (.ok ⟨freshKey keys, "", size, contentType⟩, keys ++ [freshKey keys])
  delete key keys := (.ok (), keys.filter (· ≠ key))

theorem freshKey_not_mem (keys : List String) : freshKey keys ∉ keys := by
  intro hmem
  have hle := ((List.singleton_sublist.mpr hmem).flatMap String.toList).length_le
  rw [List.flatMap_singleton] at hle
  rw [freshKey, String.toList_ofList, List.length_append, List.length_singleton] at hle
  omega

theorem memory_lawful : memory.Lawful fun keys key => key ∈ keys where
  store h := by
    cases h
    refine ⟨freshKey_not_mem _, fun key => ?_⟩
    rw [List.mem_append, List.mem_singleton]
  delete _ h key' := by
    cases h
    simp

end StorageService

end Rooti
