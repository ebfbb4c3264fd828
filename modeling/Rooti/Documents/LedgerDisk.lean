import Rooti.Documents.Files
import Rooti.Documents.Objects

/-!
# Documents on the local disk

That documents and files agree is proved of every storage that gives a stored file a key no other
file has, and that removes a file under its key and no other file (`StorageService.Lawful`).  The
local disk does so for the keys it has given out, and only for these: other texts may lead to the
file of such a key, and deleting under one of them would take the file away from it.

So the disk is taken together with a ledger of what the keys given out were made with.  The ledger
is part of the state and not of the code: no call reads it.  Its invariant is that every key has a
ULID of its own, which is not drawn again.

## Main definitions

* `KeyParts`, `LedgerDisk` — the disk, the ULIDs to come, and the keys given out
* `LocalDiskStorage.ledgered` — `LocalDiskStorage` on such a disk
* `LocalDiskStorage.ledgered_lawful` — what documents and files need of it
* `LocalDiskStorage.agrees_ledgered` — so they agree on the local disk
-/

namespace Rooti

open LocalDiskStorage

/-- What a key was made with. -/
structure KeyParts where
  ulid : Ulid
  folder : String
  originalFilename : String

/-- The key. -/
def KeyParts.key (parts : KeyParts) : String :=
  newKey parts.folder parts.ulid parts.originalFilename

/-- **The local disk with a ledger** of the keys given out. -/
structure LedgerDisk where
  files : Disk
  ulids : List Ulid
  ledger : List KeyParts
  apart : (ledger.map KeyParts.ulid ++ ulids).Nodup

section Ledger

variable {ulid : Ulid} {ulids : List Ulid} {ledger : List KeyParts}

/-- The ledger after a key was given out. -/
theorem apart_recorded {parts : KeyParts}
    (h : (ledger.map KeyParts.ulid ++ parts.ulid :: ulids).Nodup) :
    ((ledger ++ [parts]).map KeyParts.ulid ++ ulids).Nodup := by
  rwa [List.map_append, List.map_singleton, List.append_assoc, List.singleton_append]

/-- A ULID is used up also where nothing was stored. -/
theorem apart_dropped (h : (ledger.map KeyParts.ulid ++ ulid :: ulids).Nodup) :
    (ledger.map KeyParts.ulid ++ ulids).Nodup :=
  h.sublist (List.Sublist.append_left (List.sublist_cons_self ulid ulids) _)

/-- A ULID that is drawn is in no key of the ledger. -/
theorem ulid_ne_of_apart (h : (ledger.map KeyParts.ulid ++ ulid :: ulids).Nodup)
    {parts : KeyParts} (hparts : parts ∈ ledger) : parts.ulid ≠ ulid :=
  (List.nodup_append.mp h).2.2 _ (List.mem_map_of_mem hparts) _ List.mem_cons_self

/-- Keys of the ledger that differ have ULIDs that differ. -/
theorem ulid_ne_of_key_ne (h : (ledger.map KeyParts.ulid ++ ulids).Nodup) {parts parts' : KeyParts}
    (hparts : parts ∈ ledger) (hparts' : parts' ∈ ledger) (hne : parts.key ≠ parts'.key) :
    parts.ulid ≠ parts'.ulid := fun hulid =>
  hne (congrArg KeyParts.key
    (List.inj_on_of_nodup_map (List.nodup_append.mp h).1 hparts hparts' hulid))

end Ledger

namespace LocalDiskStorage

/-- **The local disk with a ledger**; what it raises has a text. -/
def ledgered (s : LocalDiskStorage) (host : Host) (text : StorageError → String) :
    StorageService LedgerDisk where
  store pre originalFilename content size contentType disk :=
    match disk with
    | ⟨files, [], ledger, h⟩ => (.error "", ⟨files, [], ledger, h⟩)
    | ⟨files, ulid :: ulids, ledger, h⟩ =>
        match s.store host ulid pre originalFilename content size contentType files with
        | (.ok uploaded, files') =>
            (.ok uploaded, ⟨files', ulids, ledger ++ [⟨ulid, pre, originalFilename⟩],
              apart_recorded h⟩)
        | (.error e, files') => (.error (text e), ⟨files', ulids, ledger, apart_dropped h⟩)
  delete key disk :=
    ((s.delete host key disk.files).1.mapError text,
      { disk with files := (s.delete host key disk.files).2 })

/-- The key was given out, and its file is there. -/
def hasFile (s : LocalDiskStorage) (host : Host) (disk : LedgerDisk) (key : String) : Prop :=
  ∃ parts ∈ disk.ledger, parts.key = key ∧
    ∃ content, disk.files.node (s.target host key) = some (.file content)

variable {s : LocalDiskStorage} {host : Host} {text : StorageError → String}

/-- **A file that is there is deleted** by a call that answers, and no other file is. -/
theorem delete_ok {key : String} {disk disk' : Disk} {content : Bytes}
    (hfile : disk.node (s.target host key) = some (.file content))
    (h : s.delete host key disk = (.ok (), disk')) :
    disk'.node (s.target host key) = none ∧
      ∀ q, q ≠ s.target host key → disk'.node q = disk.node q := by
  unfold delete at h
  rw [resolve_eq] at h
  split_ifs at h with hnull hinside
  · cases h
  · dsimp only at h
    rw [← target_eq_place] at h
    obtain ⟨disk₂, hunlink, hgone, hothers⟩ := FileTree.unlink_of_file hfile
    rw [hunlink] at h
    cases h
    exact ⟨hgone, hothers⟩
  · cases h

/-- **The local disk keeps its files apart**, under the keys of the ledger. -/
theorem ledgered_lawful (s : LocalDiskStorage) (host : Host) (text : StorageError → String) :
    (s.ledgered host text).Lawful (s.hasFile host) where
  store := by
    rintro folder name content size contentType ⟨files, ulids, ledger, hapart⟩ disk' uploaded h
    cases ulids with
    | nil => cases h
    | cons ulid ulids =>
        unfold ledgered at h
        dsimp only at h
        cases hstore : s.store host ulid folder name content size contentType files with
        | mk answer files' =>
            rw [hstore] at h
            cases answer with
            | error e => cases h
            | ok uploaded' =>
                cases h
                obtain ⟨hkey, -, hwritten⟩ := store_ok hstore
                -- the ULID has not been used, so no file of the ledger is where the new
                -- one goes
                have hother : ∀ parts ∈ ledger,
                    s.target host parts.key ≠ s.target host (newKey folder ulid name) :=
                  fun parts hparts => target_ne (ulid_ne_of_apart hapart hparts) _ _
                have hkept : ∀ parts ∈ ledger, ∀ old,
                    files'.node (s.target host parts.key) = some (.file old) ↔
                      files.node (s.target host parts.key) = some (.file old) := by
                  intro parts hparts old
                  rw [← file_of_store_iff content size contentType files (hother parts hparts),
                    hstore]
                refine ⟨?_, fun key => ⟨?_, ?_⟩⟩
                · rintro ⟨parts, hparts, hsame, -⟩
                  exact hother parts hparts (congrArg (s.target host) (hsame.trans hkey))
                · rintro ⟨parts, hparts, rfl, old, hfile⟩
                  obtain hparts | rfl :=
                    (List.mem_append.mp hparts).imp_right List.mem_singleton.mp
                  · exact .inl ⟨parts, hparts, rfl, old, (hkept parts hparts old).mp hfile⟩
                  · exact .inr hkey.symm
                · rintro (⟨parts, hparts, rfl, old, hfile⟩ | rfl)
                  · exact ⟨parts, List.mem_append_left _ hparts, rfl, old,
                      (hkept parts hparts old).mpr hfile⟩
                  · exact ⟨⟨ulid, folder, name⟩, List.mem_append_right _ List.mem_cons_self,
                      hkey.symm, content, hwritten⟩
  delete := by
    rintro _ ⟨files, ulids, ledger, hapart⟩ disk' ⟨parts, hparts, rfl, content, hfile⟩ h key
    have hanswer : ((s.delete host parts.key files).1.mapError text,
      (⟨(s.delete host parts.key files).2, ulids, ledger, hapart⟩ : LedgerDisk)) = (.ok (), disk') := h
    cases hdelete : s.delete host parts.key files with
    | mk answer files' =>
        rw [hdelete] at hanswer
        cases answer with
        | error e => cases hanswer
        | ok _ =>
            cases hanswer
            obtain ⟨hgone, hothers⟩ := delete_ok hfile hdelete
            constructor
            · rintro ⟨other, hother, rfl, old, hold⟩
              -- a file that is still there is not the one that was deleted
              have hne : s.target host other.key ≠ s.target host parts.key := by
                intro heq
                cases hgone.symm.trans (heq ▸ hold)
              exact ⟨⟨other, hother, rfl, old, (hothers _ hne).symm.trans hold⟩,
                fun heq => hne (congrArg (s.target host) heq)⟩
            · rintro ⟨⟨other, hother, rfl, old, hold⟩, hne⟩
              exact ⟨other, hother, rfl, old, (hothers _ (target_ne
                (ulid_ne_of_key_ne hapart hother hparts hne) _ _)).trans hold⟩

/-- **Documents and files agree on the local disk** after every request, as long as no request
ends between the two stores. -/
theorem agrees_ledgered {V : Type} (env : Env) (s : LocalDiskStorage) (host : Host)
    (text : StorageError → String) (foreign : String → Prop) {w : World V LedgerDisk}
    (h : Consistent (s.hasFile host) foreign w) {requests : List FaultyRequest}
    (hkeeps : Runs.Guarded (FaultyRequest.step env (s.ledgered host text))
      (KeepsFiles env (s.ledgered host text) (s.hasFile host)) requests w) :
    Agrees (s.hasFile host) foreign
      (Runs.run (FaultyRequest.step env (s.ledgered host text)) requests w) :=
  (hkeeps.invariant (fun request _ hrequest hconsistent =>
    consistent_step (ledgered_lawful s host text) request hrequest hconsistent) h).agrees

end LocalDiskStorage

end Rooti
