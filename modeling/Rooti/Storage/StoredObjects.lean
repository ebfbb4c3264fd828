import Rooti.Storage.Confinement

/-!
# A stored object is found again

`store` writes where the key it makes leads from the root; `open` and `delete` ask
`resolve`.  The two agree for every key that `store` makes, except that nothing
keeps the prefix from starting with a slash: the key is then a path of its own.

## Main definitions

* `LocalDiskStorage.FoundAgain` — what is asked of an object that was stored
* `file_of_store_iff` — the other files, after `store`
* `stored_found_iff` — the prefixes for which it is so
* `stored_elsewhere` — an object that is stored outside

## What carries the proof

The last name of a key starts with the ULID, so it is not empty, no dot and no pair of
dots, and has no slash: the path is the directory of the prefix and one name more
(`target_newKey`). Names with different ULIDs are different whatever the prefixes are
(`target_ne`), and so `store` and `delete` leave the files of other objects alone.

The directory is where the prefix leads. All of its characters but letters, digits, `_`,
`-` and the slash have been replaced, so there is no dot in it and it never leads
upwards (`prefix_follow`). The only question is where it starts.
-/

namespace Rooti

open Paths

namespace LocalDiskStorage

variable (s : LocalDiskStorage) (host : Host)

/-- The path that `store` writes for a key. -/
def target (key : String) : Location := (s.joined key).location host.cwd

/-- **The object is found again**: its file is strictly below the storage, where no object
with another ULID is; `resolve` finds it, `open` reads its content, and `delete` removes it
and nothing else. -/
structure FoundAgain (ulid : Ulid) (key : String) (content : Bytes) (disk : Disk) : Prop where
  below : s.dir host <+: s.target host key ∧ s.target host key ≠ s.dir host
  own : ∀ (ulid' : Ulid) (pre originalFilename : String), ulid' ≠ ulid →
    s.target host (newKey pre ulid' originalFilename) ≠ s.target host key
  written : disk.node (s.target host key) = some (.file content)
  resolved : s.resolve host key = .ok (s.target host key)
  opened : s.open_ host key disk = .ok content
  deleted : ∃ disk', s.delete host key disk = (.ok (), disk') ∧
    disk'.node (s.target host key) = none ∧
    ∀ q, q ≠ s.target host key → disk'.node q = disk.node q

section Keys

variable {s host} {pre originalFilename : String} {ulid : Ulid}

/-- `resolve` looks where `store` writes. -/
theorem target_eq_place (key : String) : s.target host key = s.place host key :=
  PurePath.location_join

/-! ## The prefix -/

/-- The prefix is not empty. -/
theorem safePrefix_ne_nil : safePrefix pre ≠ [] := by
  unfold safePrefix
  rw [ne_eq, List.map_eq_nil_iff, String.toList_eq_nil_iff]
  split_ifs with h
  · decide
  · exact h

/-- It has safe characters only. -/
theorem isSafe_of_mem {c : Char} (h : c ∈ safePrefix pre) : isSafe c := by
  obtain ⟨d, -, rfl⟩ := List.mem_map.mp h
  split_ifs with hd
  · exact hd
  · rfl

/-- The prefix keeps its leading slash. -/
theorem head?_safePrefix : (safePrefix pre).head? = some '/' ↔ pre.toList.head? = some '/' := by
  unfold safePrefix
  rw [List.head?_map]
  split_ifs with hempty
  · subst hempty
    decide
  · cases pre.toList.head? with
    | none => exact iff_of_false nofun nofun
    | some c =>
        by_cases hc : isSafe c
        · simp [hc]
        · have hslash : c ≠ '/' := fun h => hc (h ▸ rfl)
          simp [hc, hslash]

/-- **The directory of an object** is below where its prefix starts. -/
theorem prefix_follow (pre : String) (start : Location) :
    (if (safePrefix pre).head? = some '/' then [] else start) <+:
      start.follow (safePrefix pre) :=
  prefix_walk (up_not_mem_moves '/' '.' fun hdot => by
    have hsafe := isSafe_of_mem hdot
    revert hsafe
    decide)

/-! ## The last name -/

/-- The last name has a ULID in it. -/
theorem length_storedName : 26 ≤ (storedName ulid originalFilename).length := by
  unfold storedName
  rw [List.length_append, ulid.2.1]
  omega

/-- It starts with it. -/
theorem take_storedName : (storedName ulid originalFilename).take 26 = ulid.1 :=
  List.take_left' ulid.2.1

/-- It is a single name. -/
theorem slash_not_mem_storedName : '/' ∉ storedName ulid originalFilename := by
  have hulid : '/' ∉ ulid.1 := fun h => absurd (ulid.2.2 _ h) (by decide)
  have hext : '/' ∉ extension originalFilename := fun h =>
    PurePath.slash_not_mem_suffix (List.dropWhile_subset _ h)
  unfold storedName
  dsimp only
  split_ifs <;> simp [hulid, hext]

/-- It is neither empty nor made of one or two dots. -/
theorem isName_storedName : IsName '/' '.' (storedName ulid originalFilename) := by
  have hlength : 26 ≤ (storedName ulid originalFilename).length := length_storedName
  refine ⟨?_, slash_not_mem_storedName, ?_, ?_⟩ <;> intro h <;> rw [h] at hlength <;>
    exact absurd hlength (by decide)

/-! ## The path written -/

/-- The name of an object in its directory. -/
def fileName (ulid : Ulid) (originalFilename : String) : FileName :=
  ⟨storedName ulid originalFilename, isName_storedName⟩

/-- **The path of a new object**: one name more than that of its prefix. -/
theorem joined_newKey :
    s.joined (newKey pre ulid originalFilename) =
      ⟨(PurePath.parse (PurePath.join s.root.toList (safePrefix pre))).absolute,
        (PurePath.parse (PurePath.join s.root.toList (safePrefix pre))).tail ++
          [storedName ulid originalFilename]⟩ := by
  rw [joined, newKey, String.toList_ofList, PurePath.join_append safePrefix_ne_nil,
    PurePath.parse_append_name (PurePath.join_ne_nil safePrefix_ne_nil) isName_storedName]

/-- The place of a new object. -/
theorem target_newKey :
    s.target host (newKey pre ulid originalFilename) =
      (s.dir host).follow (safePrefix pre) ++ [fileName ulid originalFilename] := by
  rw [target, joined_newKey, PurePath.location_append_name isName_storedName]
  refine congrArg (· ++ _) ?_
  exact PurePath.location_join

/-- **Every object has a file of its own.** -/
theorem target_ne {ulid' : Ulid} (h : ulid' ≠ ulid) (pre' originalFilename' : String) :
    s.target host (newKey pre' ulid' originalFilename') ≠
      s.target host (newKey pre ulid originalFilename) := by
  rw [target_newKey, target_newKey]
  intro heq
  have hname : fileName ulid' originalFilename' = fileName ulid originalFilename :=
    List.append_inj_right' heq rfl |> List.singleton_inj.mp
  refine h (Subtype.ext ?_)
  exact (take_storedName.symm.trans (congrArg (fun n : FileName => n.1.take 26) hname)).trans
    take_storedName

/-- **Where an object is put**: strictly below the storage unless its prefix starts with a
slash and does not lead there. -/
theorem below_iff :
    (s.dir host <+: s.target host (newKey pre ulid originalFilename) ∧
      s.target host (newKey pre ulid originalFilename) ≠ s.dir host) ↔
    (pre.toList.head? = some '/' → s.dir host <+: Location.follow [] (safePrefix pre)) := by
  have hstrict : (s.dir host <+: s.target host (newKey pre ulid originalFilename) ∧
      s.target host (newKey pre ulid originalFilename) ≠ s.dir host) ↔
      s.dir host <+: (s.dir host).follow (safePrefix pre) := by
    rw [target_newKey, List.prefix_concat_iff]
    constructor
    · rintro ⟨heq | hdir, hne⟩
      · exact absurd heq.symm hne
      · exact hdir
    · intro hdir
      refine ⟨.inr hdir, fun heq => ?_⟩
      have hlength := hdir.length_le
      rw [← heq, List.length_append, List.length_singleton, heq] at hlength
      omega
  rw [hstrict, ← head?_safePrefix]
  have hbelow := prefix_follow pre (s.dir host)
  by_cases hslash : (safePrefix pre).head? = some '/'
  · have hfollow : (s.dir host).follow (safePrefix pre) = Location.follow [] (safePrefix pre) := by
      rw [Location.follow, Location.follow, if_pos hslash, if_pos hslash]
    rw [hfollow]
    exact ⟨fun h _ => h, fun h => h hslash⟩
  · rw [if_neg hslash] at hbelow
    exact iff_of_true hbelow fun h => absurd h hslash

/-! ## What `store` does -/

variable {content : Bytes} {size : ℤ} {contentType : Option String} {disk disk' : Disk}
  {uploaded : Uploaded}

/-- **An object that is stored**: its key is new, has no null character, and its file has the
content. -/
theorem store_ok
    (h : s.store host ulid pre originalFilename content size contentType disk =
      (.ok uploaded, disk')) :
    uploaded.key = newKey pre ulid originalFilename ∧ '\x00' ∉ uploaded.key.toList ∧
      disk'.node (s.target host uploaded.key) = some (.file content) := by
  unfold store at h
  dsimp only at h
  split at h
  · cases h
  split_ifs at h with hnull
  · cases h
  split at h
  · cases h
  case h_2 hwrite =>
    cases h
    refine ⟨rfl, hnull, ?_⟩
    rw [copyChunks_eq (Nat.lt_succ_self _), List.nil_append] at hwrite
    exact FileTree.write_ok hwrite

/-- **Other files** are left as they were, whether the object is stored or not. -/
theorem file_of_store_iff (content : Bytes) (size : ℤ) (contentType : Option String)
    (disk : Disk) {q : Location} (hq : q ≠ s.target host (newKey pre ulid originalFilename))
    {old : Bytes} :
    (s.store host ulid pre originalFilename content size contentType disk).2.node q =
        some (.file old) ↔
      disk.node q = some (.file old) := by
  have hgrown := FileTree.grown_makeDirs host.accepts disk
    ((s.joined (newKey pre ulid originalFilename)).parent.location host.cwd).inits
  unfold store
  dsimp only
  split
  case h_1 hdirs =>
    rw [hdirs] at hgrown
    exact hgrown.file_iff
  case h_2 disk₁ hdirs =>
    rw [hdirs] at hgrown
    split_ifs
    · exact hgrown.file_iff
    -- the write may fail, and changes nothing elsewhere then
    · have hwrite : (disk₁.write host.accepts
          (s.target host (newKey pre ulid originalFilename))
          (copyChunks (content.length + 1) content [])).2.node q = disk₁.node q :=
        FileTree.write_of_ne hq
      unfold target at hwrite
      split
      case h_1 hfailed =>
        rw [hfailed] at hwrite
        rw [hwrite]
        exact hgrown.file_iff
      case h_2 hwritten =>
        rw [hwritten] at hwrite
        rw [hwrite]
        exact hgrown.file_iff

end Keys

end LocalDiskStorage

open LocalDiskStorage in
/-- **An object that was stored is found again** exactly if its prefix, should it start with a
slash, leads to the storage or below it. -/
theorem stored_found_iff {s : LocalDiskStorage} {host : Host} {ulid : Ulid}
    {pre originalFilename : String} {content : Bytes} {size : ℤ} {contentType : Option String}
    {disk disk' : Disk} {uploaded : Uploaded}
    (h : s.store host ulid pre originalFilename content size contentType disk =
      (.ok uploaded, disk')) :
    s.FoundAgain host ulid uploaded.key content disk' ↔
      (pre.toList.head? = some '/' → s.dir host <+: Location.follow [] (safePrefix pre)) := by
  obtain ⟨hkey, hnull, hwritten⟩ := store_ok h
  have hiff : (s.dir host <+: s.target host uploaded.key ∧
      s.target host uploaded.key ≠ s.dir host) ↔
      (pre.toList.head? = some '/' → s.dir host <+: Location.follow [] (safePrefix pre)) := by
    rw [hkey]
    exact below_iff
  constructor
  · exact fun hfound => hiff.mp hfound.below
  · intro hprefix
    have hbelow := hiff.mpr hprefix
    have hresolved : s.resolve host uploaded.key = .ok (s.target host uploaded.key) := by
      rw [resolve_eq, if_neg hnull, ← target_eq_place, if_pos (.inl hbelow.1)]
    refine ⟨hbelow, ?_, hwritten, hresolved, ?_, ?_⟩
    · rw [hkey]
      exact fun _ pre' originalFilename' hne => target_ne hne pre' originalFilename'
    · rw [open_, hresolved]
      dsimp only
      rw [FileTree.read_of_file hwritten]
    · obtain ⟨disk₂, hunlink, hgone, hothers⟩ := FileTree.unlink_of_file hwritten
      refine ⟨disk₂, ?_, hgone, hothers⟩
      rw [LocalDiskStorage.delete, hresolved]
      dsimp only
      rw [hunlink]

/-- A ULID. -/
def Ulid.sample : Ulid := ⟨"01HZX0000000000000000000AB".toList, by decide +kernel, by
  simpa only [List.all_eq_true, decide_eq_true_eq] using
    (by decide +kernel : "01HZX0000000000000000000AB".toList.all (· ∈ digits) = true)⟩

/-- A certificate of a worker is found again. -/
theorem stored_found_sample :
    ∃ uploaded disk', dataStorage.store Host.sample Ulid.sample "worker/7" "cert.pdf" [37, 80] 2
        (some "application/pdf") FileTree.empty = (.ok uploaded, disk') ∧
      dataStorage.FoundAgain Host.sample Ulid.sample uploaded.key [37, 80] disk' := by
  have hok : ((dataStorage.store Host.sample Ulid.sample "worker/7" "cert.pdf" [37, 80] 2
      (some "application/pdf") FileTree.empty).1.toOption).isSome = true := by decide +kernel
  cases hstore : dataStorage.store Host.sample Ulid.sample "worker/7" "cert.pdf" [37, 80] 2
      (some "application/pdf") FileTree.empty with
  | mk answer disk' =>
      rw [hstore] at hok
      cases answer with
      | error e => cases hok
      | ok uploaded => exact ⟨uploaded, disk', rfl, (stored_found_iff hstore).mpr (by decide)⟩

/-- **An absolute prefix**: the object is stored beside the storage. -/
theorem stored_elsewhere :
    ∃ uploaded disk', dataStorage.store Host.sample Ulid.sample "/tmp" "cert.pdf" [37, 80] 2
        (some "application/pdf") FileTree.empty = (.ok uploaded, disk') ∧
      ¬dataStorage.FoundAgain Host.sample Ulid.sample uploaded.key [37, 80] disk' := by
  have hok : ((dataStorage.store Host.sample Ulid.sample "/tmp" "cert.pdf" [37, 80] 2
      (some "application/pdf") FileTree.empty).1.toOption).map Uploaded.key =
        some "/tmp/01HZX0000000000000000000AB.pdf" := by decide +kernel
  cases hstore : dataStorage.store Host.sample Ulid.sample "/tmp" "cert.pdf" [37, 80] 2
      (some "application/pdf") FileTree.empty with
  | mk answer disk' =>
      rw [hstore] at hok
      cases answer with
      | error e => cases hok
      | ok uploaded =>
          have hkey : uploaded.key = "/tmp/01HZX0000000000000000000AB.pdf" := Option.some.inj hok
          refine ⟨uploaded, disk', rfl, fun h => ?_⟩
          have hbelow := h.below.1
          rw [hkey] at hbelow
          revert hbelow
          decide +kernel

end Rooti
