import Rooti.Core.Pathlib
import Rooti.Integrations.Storage
import Rooti.Lib.FileTree

/-!
# Files on the local disk

`LocalDiskStorage` keeps the files below a directory of the disk.  A file is
written where its key leads from that directory; it is read and removed where
`resolve` finds the key to lead.

The working directory and what the file system refuses belong to the `Host`.
-/

namespace Rooti

open Paths

/-- The disk. -/
abbrev Disk := FileTree FileName Bytes

/-- Where the process runs: its working directory, and the addresses its file system takes. -/
structure Host where
  cwd : Location
  accepts : Location → Bool

/-- The digits of a ULID. -/
def Ulid.digits : List Char := "0123456789ABCDEFGHJKMNPQRSTVWXYZ".toList

/-- `str(ulid.ULID())`. -/
abbrev Ulid := {s : List Char // s.length = 26 ∧ ∀ c ∈ s, c ∈ Ulid.digits}

/-- What the calls of the storage raise. -/
inductive StorageError
  /-- `ValueError(f"path escape attempt: {key!r}")` -/
  | pathEscape (key : String)
  /-- the `ValueError` of a path with a null character -/
  | embeddedNull
  /-- an `OSError` -/
  | os (e : FileTree.Error)
  deriving DecidableEq, Repr

/-- The exception is a `ValueError`. -/
def StorageError.IsValueError : StorageError → Prop
  | .pathEscape _ | .embeddedNull => True
  | .os _ => False

/-- `LocalDiskStorage`; the directory of a root with a null character cannot be made. -/
structure LocalDiskStorage where
  root : String
  publicUrl : String
  null_not_mem_root : '\x00' ∉ root.toList

/-- The rounds of `while chunk := content.read(64 * 1024): f.write(chunk)`. -/
def copyChunks : ℕ → Bytes → Bytes → Bytes
  | 0, _, written => written
  | rounds + 1, content, written =>
      let chunk := content.take (64 * 1024)
      if chunk = [] then written
      else copyChunks rounds (content.drop (64 * 1024)) (written ++ chunk)

/-- **The whole content is written**, whatever its length. -/
theorem copyChunks_eq {rounds : ℕ} {content : Bytes} (h : content.length < rounds)
    (written : Bytes) : copyChunks rounds content written = written ++ content := by
  induction rounds generalizing content written with
  | zero => exact absurd h (Nat.not_lt_zero _)
  | succ rounds ih =>
      rw [copyChunks]
      by_cases hempty : content = []
      · rw [hempty, List.take_nil, if_pos rfl, List.append_nil]
      · have hpos : 0 < content.length := List.length_pos_of_ne_nil hempty
        have hchunk : content.take (64 * 1024) ≠ [] := by
          rw [ne_eq, List.take_eq_nil_iff]
          exact fun h => h.elim nofun hempty
        rw [if_neg hchunk, ih (by rw [List.length_drop]; omega), List.append_assoc,
          List.take_append_drop]

namespace LocalDiskStorage

/-- `LocalDiskStorage.__init__` -/
def init (host : Host) (storageLocalRoot storagePublicUrl : String) (disk : Disk) :
    Except StorageError LocalDiskStorage × Disk :=
  if h : '\x00' ∈ storageLocalRoot.toList then (.error .embeddedNull, disk)
  else
    match FileTree.makeDirs host.accepts disk
        ((PurePath.parse storageLocalRoot.toList).location host.cwd).inits with
    | (.ok _, disk') =>
        (.ok ⟨storageLocalRoot,
          String.ofList ((storagePublicUrl.toList.reverse.dropWhile (· = '/')).reverse), h⟩, disk')
    | (.error e, disk') => (.error (.os e), disk')

/-- The characters `re.sub` leaves in a prefix. -/
def isSafe (c : Char) : Bool := c.isAlphanum || c = '_' || c = '/' || c = '-'

/-- `re.sub(r"[^a-zA-Z0-9_/\-]", "_", prefix or "misc")` -/
def safePrefix (pre : String) : List Char :=
  (if pre = "" then "misc" else pre).toList.map fun c => if isSafe c then c else '_'

/-- `Path(original_filename or "").suffix.lstrip(".")` -/
def extension (originalFilename : String) : List Char :=
  (PurePath.parse originalFilename.toList).suffix.dropWhile (· = '.')

/-- The last name of a key. -/
def storedName (ulid : Ulid) (originalFilename : String) : List Char :=
  let ext := extension originalFilename
  ulid.1 ++ if ext = [] then [] else '.' :: ext

/-- The key of a new file. -/
def newKey (pre : String) (ulid : Ulid) (originalFilename : String) : String :=
  String.ofList (safePrefix pre ++ '/' :: storedName ulid originalFilename)

variable (s : LocalDiskStorage) (host : Host)

/-- `self.root / key` -/
def joined (key : String) : PurePath :=
  PurePath.parse (PurePath.join s.root.toList key.toList)

/-- `LocalDiskStorage.store` -/
def store (ulid : Ulid) (pre originalFilename : String) (content : Bytes) (size : ℤ)
    (contentType : Option String) (disk : Disk) : Except StorageError Uploaded × Disk :=
  let key := newKey pre ulid originalFilename
  let target := s.joined key
  match FileTree.makeDirs host.accepts disk (target.parent.location host.cwd).inits with
  | (.error e, disk') => (.error (.os e), disk')
  | (.ok _, disk') =>
      if '\x00' ∈ key.toList then (.error .embeddedNull, disk')
      else
        match disk'.write host.accepts (target.location host.cwd)
            (copyChunks (content.length + 1) content []) with
        | (.error e, disk'') => (.error (.os e), disk'')
        | (.ok _, disk'') =>
            (.ok ⟨key, s.publicUrl ++ "/" ++ key, size, contentType⟩, disk'')

/-- `LocalDiskStorage.resolve` -/
def resolve (key : String) : Except StorageError Location :=
  match (s.joined key).resolve host.cwd, (PurePath.parse s.root.toList).resolve host.cwd with
  | some target, some root =>
      if root.str.isPrefixOf target.str then .ok target else .error (.pathEscape key)
  | _, _ => .error .embeddedNull

/-- `LocalDiskStorage.open` -/
def open_ (key : String) (disk : Disk) : Except StorageError Bytes :=
  match s.resolve host key with
  | .error e => .error e
  | .ok path => match disk.read path with
      | .ok content => .ok content
      | .error e => .error (.os e)

/-- `LocalDiskStorage.delete` -/
def delete (key : String) (disk : Disk) : Except StorageError Unit × Disk :=
  match s.resolve host key with
  | .error e => (.error e, disk)
  | .ok path => match disk.unlink path with
      | (.ok _, disk') => (.ok (), disk')
      | (.error e, disk') => (if e = .notFound then .ok () else .error (.os e), disk')

end LocalDiskStorage

end Rooti
