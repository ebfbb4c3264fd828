import Mathlib.Data.List.Infix
import Mathlib.Logic.Function.Basic

/-!
# File systems

A file system is a tree of directories whose leaves hold contents.  A node is
addressed by the names that lead to it; a node other than the root is in a
directory.  There are no links, so a file has one address.

A file system may refuse addresses (a name that is too long, say); which ones is
a parameter of the operations that make nodes.

## Main definitions

* `FileTree` — file systems
* `FileTree.mkdir`, `FileTree.write`, `FileTree.read`, `FileTree.unlink` — the calls
* `FileTree.makeDirs` — directories down to an address
* `FileTree.Grown` — file systems that differ by new directories

## Main results

* `grown_makeDirs`, `write_ok`, `write_of_ne`, `unlink_of_file` — what the calls change
-/

/-- A directory, or a file with its content. -/
inductive FileTree.Node (β : Type*)
  | directory
  | file (content : β)

/-- **A file system**: what is at an address. -/
structure FileTree (ν β : Type*) where
  node : List ν → Option (FileTree.Node β)
  root : node [] = some .directory
  parent : ∀ {p : List ν} {n : ν}, node (p ++ [n]) ≠ none → node p = some .directory

namespace FileTree

/-- Why a call fails. -/
inductive Error
  | notFound
  | exists_
  | isADirectory
  | notADirectory
  | refused
  deriving DecidableEq, Repr

variable {ν β : Type*}

/-- The file system with nothing in it. -/
def empty : FileTree ν β where
  node
    | [] => some .directory
    | _ :: _ => none
  root := rfl
  parent {p n} h := by cases p <;> exact absurd rfl h

/-- There is a directory at the address. -/
def IsDirectory (t : FileTree ν β) (p : List ν) : Prop := t.node p = some .directory

instance (t : FileTree ν β) (p : List ν) : Decidable (t.IsDirectory p) :=
  match h : t.node p with
  | some .directory => isTrue h
  | some (.file _) => isFalse fun hdir => by cases h.symm.trans hdir
  | none => isFalse fun hdir => by cases h.symm.trans hdir

/-- There is a file at the address. -/
def isFile (t : FileTree ν β) (p : List ν) : Bool :=
  match t.node p with
  | some (.file _) => true
  | _ => false

/-- Why nothing is at an address: a file stands in the way, or a directory is missing. -/
def missing (t : FileTree ν β) (p : List ν) : Error :=
  if p.inits.any t.isFile then .notADirectory else .notFound

theorem IsDirectory.ne_append {t : FileTree ν β} {p q : List ν} (hq : t.IsDirectory q)
    (hp : ¬t.IsDirectory p) : q ≠ p := by
  rintro rfl
  exact hp hq

section Replace

variable [DecidableEq ν]

/-- **Another leaf at an address**, or none: what is there is no directory, what is above
it is one. -/
def replace (t : FileTree ν β) (p : List ν) (x : Option (Node β))
    (habove : t.IsDirectory p.dropLast) (hleaf : ¬t.IsDirectory p) : FileTree ν β where
  node := Function.update t.node p x
  root := by
    rw [Function.update_of_ne]
    · exact t.root
    · rintro rfl
      exact hleaf t.root
  parent {q n} h := by
    by_cases hp : q ++ [n] = p
    · have hq : q = p.dropLast := by rw [← hp, List.dropLast_concat]
      rw [hq, Function.update_of_ne (habove.ne_append hleaf)]
      exact habove
    · rw [Function.update_of_ne hp] at h
      have hq : t.IsDirectory q := t.parent h
      rwa [Function.update_of_ne (hq.ne_append hleaf)]

variable (accepts : List ν → Bool) (t : FileTree ν β) (p : List ν)

omit [DecidableEq ν] in
/-- What is at an address is in a directory. -/
theorem isDirectory_dropLast {p : List ν} (h : t.node p ≠ none) : t.IsDirectory p.dropLast := by
  obtain rfl | ⟨q, n, rfl⟩ := p.eq_nil_or_concat'
  · exact t.root
  · rw [List.dropLast_concat]
    exact t.parent h

/-- A new directory. -/
def mkdir : Except Error Unit × FileTree ν β :=
  match h : t.node p with
  | some _ => (.error .exists_, t)
  | none =>
      if habove : t.IsDirectory p.dropLast then
        if accepts p then
          (.ok (), t.replace p (some .directory) habove fun hdir => by cases h.symm.trans hdir)
        else (.error .refused, t)
      else (.error (t.missing p), t)

/-- A file with the content, new or in place of the one there. -/
def write (content : β) : Except Error Unit × FileTree ν β :=
  match h : t.node p with
  | some .directory => (.error .isADirectory, t)
  | some (.file _) =>
      (.ok (), t.replace p (some (.file content))
        (t.isDirectory_dropLast fun hnone => by cases h.symm.trans hnone)
        fun hdir => by cases h.symm.trans hdir)
  | none =>
      if habove : t.IsDirectory p.dropLast then
        if accepts p then
          (.ok (), t.replace p (some (.file content)) habove fun hdir => by cases h.symm.trans hdir)
        else (.error .refused, t)
      else (.error (t.missing p), t)

/-- The content of a file. -/
def read : Except Error β :=
  match t.node p with
  | some (.file content) => .ok content
  | some .directory => .error .isADirectory
  | none => .error (t.missing p)

/-- Remove a file. -/
def unlink : Except Error Unit × FileTree ν β :=
  match h : t.node p with
  | some (.file _) =>
      (.ok (), t.replace p none
        (t.isDirectory_dropLast fun hnone => by cases h.symm.trans hnone)
        fun hdir => by cases h.symm.trans hdir)
  | some .directory => (.error .isADirectory, t)
  | none => (.error (t.missing p), t)

/-- **The directories at the addresses**, in their order; those that exist are left. -/
def makeDirs : FileTree ν β → List (List ν) → Except Error Unit × FileTree ν β
  | t, [] => (.ok (), t)
  | t, p :: ps =>
      match t.mkdir accepts p with
      | (.ok _, t') => makeDirs t' ps
      | (.error e, _) => if t.IsDirectory p then makeDirs t ps else (.error e, t)

/-! ## What the calls change -/

/-- **New directories** are all that is new. -/
def Grown (t t' : FileTree ν β) : Prop :=
  ∀ q, t'.node q = t.node q ∨ t.node q = none ∧ t'.node q = some .directory

variable {accepts t p} {t' t'' : FileTree ν β} {content : β}

omit [DecidableEq ν] in
theorem Grown.refl : t.Grown t := fun _ => .inl rfl

omit [DecidableEq ν] in
theorem Grown.isDirectory (h : t.Grown t') {q : List ν} (hq : t.IsDirectory q) :
    t'.IsDirectory q := by
  obtain heq | ⟨-, hdir⟩ := h q
  · exact heq.trans hq
  · exact hdir

omit [DecidableEq ν] in
theorem Grown.trans (h : t.Grown t') (h' : t'.Grown t'') : t.Grown t'' := by
  intro q
  obtain heq | ⟨hnone, hdir⟩ := h q
  · rw [← heq]
    exact h' q
  · exact .inr ⟨hnone, h'.isDirectory hdir⟩

omit [DecidableEq ν] in
/-- No file comes or goes. -/
theorem Grown.file_iff (h : t.Grown t') {q : List ν} :
    t'.node q = some (.file content) ↔ t.node q = some (.file content) := by
  obtain heq | ⟨hnone, hdir⟩ := h q
  · rw [heq]
  · rw [hnone, hdir]
    exact iff_of_false nofun nofun

theorem grown_mkdir : t.Grown (t.mkdir accepts p).2 := by
  unfold mkdir
  split
  case h_1 => exact .refl
  case h_2 hnone =>
    split_ifs
    · intro q
      by_cases hq : q = p
      · subst hq
        exact .inr ⟨hnone, Function.update_self ..⟩
      · exact .inl (Function.update_of_ne hq ..)
    · exact .refl
    · exact .refl

/-- Only directories are made. -/
theorem grown_makeDirs (accepts : List ν → Bool) (t : FileTree ν β) (ps : List (List ν)) :
    t.Grown (makeDirs accepts t ps).2 := by
  induction ps generalizing t with
  | nil => exact .refl
  | cons p ps ih =>
      rw [makeDirs]
      split
      case h_1 t' hmkdir =>
        have hgrown : t.Grown (t.mkdir accepts p).2 := grown_mkdir
        rw [hmkdir] at hgrown
        exact hgrown.trans (ih t')
      case h_2 =>
        split_ifs
        · exact ih t
        · exact .refl

/-- **A file that is written** has the content. -/
theorem write_ok {r : Unit} (h : t.write accepts p content = (.ok r, t')) :
    t'.node p = some (.file content) := by
  unfold write at h
  split at h
  · cases h
  · cases h
    exact Function.update_self ..
  · split_ifs at h <;> cases h
    exact Function.update_self ..

/-- Nothing changes elsewhere, whether the file is written or not. -/
theorem write_of_ne {q : List ν} (hq : q ≠ p) :
    (t.write accepts p content).2.node q = t.node q := by
  unfold write
  split
  · rfl
  · exact Function.update_of_ne hq ..
  · split_ifs
    · exact Function.update_of_ne hq ..
    · rfl
    · rfl

omit [DecidableEq ν] in
theorem read_of_file (h : t.node p = some (.file content)) : t.read p = .ok content := by
  unfold read
  rw [h]

omit [DecidableEq ν] in
theorem file_of_read (h : t.read p = .ok content) : t.node p = some (.file content) := by
  unfold read at h
  split at h
  case h_1 hfile =>
    cases h
    exact hfile
  case h_2 => cases h
  case h_3 => cases h

/-- No file comes by removing one. -/
theorem file_of_unlink {q : List ν} (h : (t.unlink p).2.node q = some (.file content)) :
    t.node q = some (.file content) := by
  unfold unlink at h
  split at h
  case h_1 hfile =>
    by_cases hq : q = p
    · subst hq
      cases (Function.update_self ..).symm.trans h
    · exact (Function.update_of_ne hq ..).symm.trans h
  case h_2 => exact h
  case h_3 => exact h

/-- **A file that is removed** is gone, and nothing else changes. -/
theorem unlink_of_file (h : t.node p = some (.file content)) :
    ∃ t', t.unlink p = (.ok (), t') ∧ t'.node p = none ∧ ∀ q, q ≠ p → t'.node q = t.node q := by
  unfold unlink
  split
  case h_1 =>
    exact ⟨_, rfl, Function.update_self .., fun q hq => Function.update_of_ne hq ..⟩
  case h_2 hdir => cases h.symm.trans hdir
  case h_3 hnone => cases h.symm.trans hnone

end Replace

end FileTree
