import Rooti.Integrations.LocalDisk
import Rooti.Lib.Runs
import Rooti.Storage.StoredObjects

/-!
# Stored objects keep their contents

What the endpoints rely on of a storage: it gives out every key once, and what is read under a key
is what was stored under it, whatever else is stored and deleted meanwhile.  Nothing is said of
whether an object is still there.

`ReadableStorage.Faithful` says what one call has to keep, and `Faithful.accounted` carries it
through a run of calls: next to the disk the run keeps a receipt for every object that was stored,
and no call later puts anything else under the key of a receipt.

The local disk is such a storage as long as the ULIDs it draws are distinct
(`LocalDiskStorage.faithful`), wherever the prefixes of its keys lead: `open` reads only where
`store` has written.

## Main definitions

* `ReadableStorage.Keeps`, `ReadableStorage.Faithful` — what is kept, and storages that keep it
* `StorageCall`, `Receipt`, `ReadableStorage.after` — runs of calls, and what they have stored
* `LocalDiskStorage.supplied` — the local disk with a supply of ULIDs
* `LocalDiskStorage.stored_kept` — in every run on it the receipts hold
-/

namespace Rooti

variable {D : Type}

/-- A call that may change the storage; `store` is given what it is given by an upload. -/
inductive StorageCall
  | store (folder originalFilename : String) (content : Bytes) (size : ℤ)
      (contentType : Option String)
  | delete (key : String)

/-- An object that was stored: what `store` answered, and the content and the type it was given. -/
structure Receipt where
  uploaded : Uploaded
  content : Bytes
  contentType : Option String

namespace ReadableStorage

/-- One call; a call that raises may have changed the disk as well. -/
def call (files : ReadableStorage D) : StorageCall → D × List Receipt → D × List Receipt
  | .store folder originalFilename content size contentType, (disk, receipts) =>
      let r := files.store folder originalFilename content size contentType disk
      (r.2, match r.1 with
        | .ok uploaded => receipts ++ [⟨uploaded, content, contentType⟩]
        | .error _ => receipts)
  | .delete key, (disk, receipts) => ((files.delete key disk).2, receipts)

/-- **The disk after a run of calls**, and the receipts of the run. -/
def after (files : ReadableStorage D) (calls : List StorageCall) (disk : D) : D × List Receipt :=
  Runs.run files.call calls (disk, [])

/-- **Keys that were given out stay so, and nothing new is found under them.** -/
def Keeps (given : D → String → Prop) (holds : D → String → Bytes → Prop) (disk disk' : D) : Prop :=
  ∀ key, given disk key → given disk' key ∧ ∀ content, holds disk' key content →
    holds disk key content

/-- **A storage that gives out every key once**, and under it what was stored: `given` are the keys
given out so far, and `holds` says what is read under a key. -/
structure Faithful (files : ReadableStorage D) (given : D → String → Prop)
    (holds : D → String → Bytes → Prop) : Prop where
  keeps_store : ∀ folder name content size contentType disk,
    Keeps given holds disk (files.store folder name content size contentType disk).2
  keeps_delete : ∀ key disk, Keeps given holds disk (files.delete key disk).2
  stored : ∀ {folder name content size contentType disk disk' uploaded},
    files.store folder name content size contentType disk = (.ok uploaded, disk') →
      ¬given disk uploaded.key ∧ given disk' uploaded.key ∧
        (∀ content', holds disk' uploaded.key content' ↔ content' = content) ∧
          uploaded.contentType = contentType
  opened : ∀ {key disk content}, given disk key → files.openKey key disk = .ok content →
    holds disk key content

section Keeps

variable {given : D → String → Prop} {holds : D → String → Bytes → Prop} {disk disk' disk'' : D}

theorem Keeps.refl (disk : D) : Keeps given holds disk disk := fun _ hkey => ⟨hkey, fun _ => id⟩

theorem Keeps.trans (h : Keeps given holds disk disk') (h' : Keeps given holds disk' disk'') :
    Keeps given holds disk disk'' := by
  intro key hkey
  obtain ⟨hkey', hholds⟩ := h key hkey
  obtain ⟨hkey'', hholds'⟩ := h' key hkey'
  exact ⟨hkey'', fun content hcontent => hholds content (hholds' content hcontent)⟩

end Keeps

/-- **What a run of calls has done** since it started on `start`: its receipts have keys of their
own, none of which was given out before, and nothing else is found under them; and what was given
out before has been kept. -/
structure Accounted (given : D → String → Prop) (holds : D → String → Bytes → Prop) (start : D)
    (state : D × List Receipt) : Prop where
  keeps : Keeps given holds start state.1
  nodup : (state.2.map fun receipt => receipt.uploaded.key).Nodup
  fresh : ∀ receipt ∈ state.2, ¬given start receipt.uploaded.key
  given_key : ∀ receipt ∈ state.2, given state.1 receipt.uploaded.key
  content : ∀ receipt ∈ state.2, ∀ content,
    holds state.1 receipt.uploaded.key content → content = receipt.content
  contentType : ∀ receipt ∈ state.2, receipt.uploaded.contentType = receipt.contentType

section Runs

variable {files : ReadableStorage D} {given : D → String → Prop}
  {holds : D → String → Bytes → Prop} {start disk disk' : D} {receipts : List Receipt}

theorem Accounted.initial (start : D) : Accounted given holds start (start, []) where
  keeps := Keeps.refl start
  nodup := List.nodup_nil
  fresh := List.forall_mem_nil _
  given_key := List.forall_mem_nil _
  content := List.forall_mem_nil _
  contentType := List.forall_mem_nil _

/-- A change of the disk that keeps what was given out keeps the receipts. -/
theorem Accounted.mono (h : Accounted given holds start (disk, receipts))
    (hkeeps : Keeps given holds disk disk') : Accounted given holds start (disk', receipts) where
  keeps := h.keeps.trans hkeeps
  nodup := h.nodup
  fresh := h.fresh
  given_key receipt hmem := (hkeeps _ (h.given_key receipt hmem)).1
  content receipt hmem content hholds :=
    h.content receipt hmem content ((hkeeps _ (h.given_key receipt hmem)).2 content hholds)
  contentType := h.contentType

/-- **An object is stored**: its key is none of those that were given out before. -/
theorem Accounted.store (hfiles : files.Faithful given holds)
    (h : Accounted given holds start (disk, receipts)) {folder originalFilename : String}
    {content : Bytes} {size : ℤ} {contentType : Option String} {uploaded : Uploaded}
    (hstore : files.store folder originalFilename content size contentType disk =
      (.ok uploaded, disk')) :
    Accounted given holds start (disk', receipts ++ [⟨uploaded, content, contentType⟩]) := by
  obtain ⟨hnew, hgiven, hholds, htype⟩ := hfiles.stored hstore
  have hkeeps : Keeps given holds disk disk' := by
    have hstep := hfiles.keeps_store folder originalFilename content size contentType disk
    rwa [hstore] at hstep
  have hmono := h.mono hkeeps
  refine ⟨hmono.keeps, ?_, ?_, ?_, ?_, ?_⟩
  · rw [List.map_append, List.nodup_append]
    refine ⟨h.nodup, List.nodup_singleton _, ?_⟩
    rintro key hkey _ hlast rfl
    obtain ⟨receipt, hmem, hreceipt⟩ := List.mem_map.mp hkey
    rw [List.map_singleton, List.mem_singleton] at hlast
    exact hnew (hlast ▸ hreceipt ▸ h.given_key receipt hmem)
  · refine List.forall_mem_append.mpr ⟨h.fresh, List.forall_mem_singleton.mpr fun hold => ?_⟩
    exact hnew (h.keeps _ hold).1
  · exact List.forall_mem_append.mpr ⟨hmono.given_key, List.forall_mem_singleton.mpr hgiven⟩
  · exact List.forall_mem_append.mpr ⟨hmono.content,
      List.forall_mem_singleton.mpr fun content' => (hholds content').mp⟩
  · exact List.forall_mem_append.mpr ⟨h.contentType, List.forall_mem_singleton.mpr htype⟩

/-- **Every run of calls is accounted for.** -/
theorem Faithful.accounted (hfiles : files.Faithful given holds) (calls : List StorageCall)
    (start : D) : Accounted given holds start (files.after calls start) := by
  refine Runs.run_invariant ?_ (Accounted.initial start) calls
  rintro op ⟨disk, receipts⟩ h
  cases op with
  | delete key => exact h.mono (hfiles.keeps_delete key disk)
  | store folder originalFilename content size contentType =>
      cases hstore : files.store folder originalFilename content size contentType disk with
      | mk answer disk' =>
          unfold call
          dsimp only
          rw [hstore]
          cases answer with
          | error e =>
              have hstep := hfiles.keeps_store folder originalFilename content size contentType disk
              rw [hstore] at hstep
              exact h.mono hstep
          | ok uploaded => exact h.store hfiles hstore

end Runs

end ReadableStorage

/-! ## The local disk -/

namespace LocalDiskStorage

/-- ULIDs that are still to be drawn, all distinct. -/
abbrev Supply := {ulids : List Ulid // ulids.Nodup}

/-- **The local disk** with a supply of ULIDs; what it raises has a text. -/
def supplied (s : LocalDiskStorage) (host : Host) (text : StorageError → String) :
    ReadableStorage (Disk × Supply) where
  store pre originalFilename content size contentType disk :=
    match disk with
    | (files, ⟨[], h⟩) => (.error "", (files, ⟨[], h⟩))
    | (files, ⟨ulid :: ulids, h⟩) =>
        let r := s.store host ulid pre originalFilename content size contentType files
        (r.1.mapError text, (r.2, ⟨ulids, h.of_cons⟩))
  delete key disk :=
    ((s.delete host key disk.1).1.mapError text, ((s.delete host key disk.1).2, disk.2))
  openKey key disk := (s.open_ host key disk.1).mapError text

/-- A key that was made with a ULID that is not to come. -/
def given (disk : Disk × Supply) (key : String) : Prop :=
  ∃ ulid ∉ disk.2.1, ∃ pre originalFilename, key = newKey pre ulid originalFilename

/-- The object of a key. -/
def holds (s : LocalDiskStorage) (host : Host) (disk : Disk × Supply) (key : String)
    (content : Bytes) : Prop := disk.1.node (s.target host key) = some (.file content)

variable {s : LocalDiskStorage} {host : Host} {text : StorageError → String}

/-- What is read under a key is what is where it leads. -/
theorem file_of_open {key : String} {disk : Disk} {content : Bytes}
    (h : s.open_ host key disk = .ok content) :
    disk.node (s.target host key) = some (.file content) := by
  unfold open_ at h
  rw [resolve_eq] at h
  by_cases hnull : '\x00' ∈ key.toList
  · rw [if_pos hnull] at h
    cases h
  rw [if_neg hnull] at h
  split_ifs at h with hinside
  dsimp only at h
  rw [target_eq_place]
  split at h
  case h_1 hread =>
    cases h
    exact FileTree.file_of_read hread
  case h_2 => cases h

/-- What is read after `delete` was there before. -/
theorem file_of_delete {key : String} {disk : Disk} {q : Location} {content : Bytes}
    (h : (s.delete host key disk).2.node q = some (.file content)) :
    disk.node q = some (.file content) := by
  unfold delete at h
  split at h
  case h_1 => exact h
  case h_2 path hresolve =>
    have hunlink : (disk.unlink path).2.node q = some (.file content) := by
      split at h
      case h_1 disk' hdone =>
        rw [hdone]
        exact h
      case h_2 disk' hfailed =>
        rw [hfailed]
        exact h
    exact FileTree.file_of_unlink hunlink

/-- `store` says what kind of content it was given. -/
theorem contentType_of_store {ulid : Ulid} {pre originalFilename : String} {content : Bytes}
    {size : ℤ} {contentType : Option String} {disk disk' : Disk} {uploaded : Uploaded}
    (h : s.store host ulid pre originalFilename content size contentType disk =
      (.ok uploaded, disk')) : uploaded.contentType = contentType := by
  unfold store at h
  dsimp only at h
  split at h
  · cases h
  split_ifs at h with hnull
  · cases h
  split at h
  · cases h
  · cases h
    rfl

/-- The file of a key that was given out is not that of a new one. -/
theorem target_ne_of_given {ulid : Ulid} {ulids : List Ulid} {h : (ulid :: ulids).Nodup}
    {files : Disk} {key : String} (hkey : given (files, ⟨ulid :: ulids, h⟩) key)
    (pre originalFilename : String) :
    s.target host key ≠ s.target host (newKey pre ulid originalFilename) := by
  obtain ⟨ulid', hulid', pre', originalFilename', rfl⟩ := hkey
  have hne : ulid' ≠ ulid := by
    rintro rfl
    exact hulid' List.mem_cons_self
  exact target_ne hne pre' originalFilename'

theorem supplied_store {folder name : String} {content : Bytes} {size : ℤ}
    {contentType : Option String} {files : Disk} {ulid : Ulid} {ulids : List Ulid}
    {h : (ulid :: ulids).Nodup} :
    (s.supplied host text).store folder name content size contentType (files, ⟨ulid :: ulids, h⟩) =
      ((s.store host ulid folder name content size contentType files).1.mapError text,
        ((s.store host ulid folder name content size contentType files).2, ⟨ulids, h.of_cons⟩)) :=
  rfl

/-- **The local disk keeps what is stored.** -/
theorem faithful (s : LocalDiskStorage) (host : Host) (text : StorageError → String) :
    (s.supplied host text).Faithful given (s.holds host) where
  keeps_store := by
    rintro folder name content size contentType ⟨files, ulids, hulids⟩ key hkey
    cases ulids with
    | nil => exact ⟨hkey, fun _ => id⟩
    | cons ulid ulids =>
        -- a key that was given out has a ULID that will not be drawn again
        have hne : s.target host key ≠ s.target host (newKey folder ulid name) :=
          target_ne_of_given hkey folder name
        obtain ⟨ulid', hulid', hnewKey⟩ := hkey
        refine ⟨⟨ulid', fun h => hulid' (List.mem_cons_of_mem _ h), hnewKey⟩, fun old hold => ?_⟩
        rw [supplied_store] at hold
        unfold holds at hold ⊢
        dsimp only at hold ⊢
        exact (file_of_store_iff content size contentType files hne).mp hold
  keeps_delete := fun key disk key' hkey' => ⟨hkey', fun _ hold => file_of_delete hold⟩
  stored := by
    rintro folder name content size contentType ⟨files, ulids, hulids⟩ disk' uploaded h
    cases ulids with
    | nil => cases h
    | cons ulid ulids =>
        cases hstore : s.store host ulid folder name content size contentType files with
        | mk answer files' =>
            rw [supplied_store, hstore] at h
            cases answer with
            | error e => cases h
            | ok uploaded' =>
                cases h
                obtain ⟨hkey, -, hwritten⟩ := store_ok hstore
                refine ⟨fun hgiven => ?_, ⟨ulid, (List.nodup_cons.mp hulids).1, folder, name,
                  hkey⟩, fun content' => ?_, contentType_of_store hstore⟩
                · exact target_ne_of_given hgiven folder name (congrArg (s.target host) hkey)
                · unfold holds
                  dsimp only
                  rw [hwritten, Option.some_inj, FileTree.Node.file.injEq, eq_comm]
  opened := by
    rintro key disk content - h
    have hopen : (s.open_ host key disk.1).mapError text = .ok content := h
    cases hcontent : s.open_ host key disk.1 with
    | error e =>
        rw [hcontent] at hopen
        cases hopen
    | ok content' =>
        rw [hcontent] at hopen
        cases hopen
        exact file_of_open hcontent

/-- **The local disk keeps what it stores**, in every run of calls: the objects stored have keys
of their own, none of which was given out before the run, and the types they were given; what is
read under such a key at the end is the content that was stored; and under a key that was given
out before the run nothing is read but what was there at its start. -/
theorem stored_kept (s : LocalDiskStorage) (host : Host) (text : StorageError → String)
    (calls : List StorageCall) (disk : Disk × Supply) :
    (((s.supplied host text).after calls disk).2.map fun receipt => receipt.uploaded.key).Nodup ∧
      (∀ receipt ∈ ((s.supplied host text).after calls disk).2,
        ¬given disk receipt.uploaded.key ∧
          receipt.uploaded.contentType = receipt.contentType ∧
          ∀ content, (s.supplied host text).openKey receipt.uploaded.key
            ((s.supplied host text).after calls disk).1 = .ok content →
              content = receipt.content) ∧
      ∀ key, given disk key → ∀ content,
        (s.supplied host text).openKey key ((s.supplied host text).after calls disk).1 =
          .ok content → s.holds host disk key content := by
  have hfaithful := s.faithful host text
  have haccounted := hfaithful.accounted calls disk
  refine ⟨haccounted.nodup, fun receipt hmem => ?_, fun key hkey content hopen => ?_⟩
  · refine ⟨haccounted.fresh receipt hmem, haccounted.contentType receipt hmem, ?_⟩
    intro content hopen
    exact haccounted.content receipt hmem content
      (hfaithful.opened (haccounted.given_key receipt hmem) hopen)
  · obtain ⟨hgiven, hholds⟩ := haccounted.keeps key hkey
    exact hholds content (hfaithful.opened hgiven hopen)

/-- A certificate is read back, also after a second object found no ULID left. -/
example :
    let files := dataStorage.supplied Host.sample fun _ => ""
    let calls := [.store "worker/7" "cert.pdf" [37, 80] 2 none, .store "worker/7" "a.txt" [65] 1 none]
    let (disk, receipts) := files.after calls (FileTree.empty, ⟨[Ulid.sample], List.nodup_singleton _⟩)
    receipts.map (fun r => (r.content, (files.openKey r.uploaded.key disk).toOption)) =
      [([37, 80], some [37, 80])] := by decide +kernel

end LocalDiskStorage

end Rooti
