import Rooti.Lib.Paths

/-!
# `pathlib`

`PurePath` is a `PurePosixPath` of Python 3.12: whether it is absolute, and its
components without the empty ones and the single dots.  Where it leads depends on
the working directory; no name is a symbolic link, so `..` undoes the component
before it.  Two leading slashes are one, as on Linux.
-/

namespace Rooti

open Paths

/-- A name in a directory. -/
abbrev FileName := Name '/' '.'

/-- A file or a directory, by the names that lead to it from the root of the file system. -/
abbrev Location := List FileName

/-- `str(path)` of an absolute path without dots. -/
def Location.str (p : Location) : List Char := text '/' '.' p

/-- Where a text leads from a directory; an absolute one starts at the root. -/
def Location.follow (start : Location) (s : List Char) : Location :=
  walk (if s.head? = some '/' then [] else start) (moves '/' '.' s)

/-- `s.rfind(c)`; `none` is `-1`. -/
def Py.rfind (c : Char) (s : List Char) : Option ℕ :=
  (s.reverse.findIdx? (· = c)).map (s.length - 1 - ·)

/-- `PurePosixPath`. -/
structure PurePath where
  absolute : Bool
  tail : List (List Char)
  deriving DecidableEq, Repr

namespace PurePath

/-- `PurePosixPath(s)`. -/
def parse (s : List Char) : PurePath :=
  ⟨s.head? = some '/', (s.splitOn '/').filter fun c => c ≠ [] ∧ c ≠ ['.']⟩

/-- `posixpath.join(a, b)`. -/
def join (a b : List Char) : List Char :=
  if b.head? = some '/' then b
  else if a = [] ∨ a.getLast? = some '/' then a ++ b
  else a ++ '/' :: b

/-- `path.name`. -/
def name (p : PurePath) : List Char := p.tail.getLast?.getD []

/-- `path.parent`. -/
def parent (p : PurePath) : PurePath := ⟨p.absolute, p.tail.dropLast⟩

/-- `path.suffix`. -/
def suffix (p : PurePath) : List Char :=
  match Py.rfind '.' p.name with
  | some i => if 0 < i ∧ i < p.name.length - 1 then p.name.drop i else []
  | none => []

/-- Where the path leads from the working directory `cwd`. -/
def location (cwd : Location) (p : PurePath) : Location :=
  walk (if p.absolute then [] else cwd) (p.tail.map (Move.read '/' '.'))

/-- `path.resolve()`; `none` is the `ValueError` of a name with a null character, since every
name is looked up. -/
def resolve (cwd : Location) (p : PurePath) : Option Location :=
  if p.tail.any fun c => '\x00' ∈ c then none else some (p.location cwd)

/-! ## Where a text leads -/

variable {cwd : Location} {a b s : List Char}

/-- The components `PurePosixPath` leaves out stay where one is. -/
theorem walk_filter (here : Location) (cs : List (List Char)) :
    walk here ((cs.filter fun c => c ≠ [] ∧ c ≠ ['.']).map (Move.read '/' '.')) =
      walk here (cs.map (Move.read '/' '.')) := by
  induction cs generalizing here with
  | nil => rfl
  | cons c cs ih =>
      by_cases hc : c ≠ [] ∧ c ≠ ['.']
      · rw [List.filter_cons_of_pos (by simpa using hc), List.map_cons, List.map_cons,
          ← List.singleton_append, walk_append, ih, ← walk_append, List.singleton_append]
      · have hstay : c = [] ∨ c = ['.'] := by tauto
        rw [List.filter_cons_of_neg (by simpa using hc), ih, List.map_cons,
          Move.read_stay '/' '.' hstay, walk]

theorem location_parse : (parse s).location cwd = cwd.follow s := by
  rw [location, parse, walk_filter, Location.follow, moves]
  simp only [decide_eq_true_eq]

/-- **A joined path**: the second part is followed from where the first leads. -/
theorem location_join : (parse (join a b)).location cwd = (cwd.follow a).follow b := by
  rw [location_parse]
  by_cases hb : b.head? = some '/'
  · have hjoin : join a b = b := if_pos hb
    rw [hjoin, Location.follow, Location.follow, if_pos hb, if_pos hb]
  · have hfollow : (cwd.follow a).follow b = walk (cwd.follow a) (moves '/' '.' b) := by
      rw [Location.follow, if_neg hb]
    rw [hfollow]
    by_cases ha : a = []
    · have hjoin : join a b = b := by rw [join, if_neg hb, ha, if_pos (.inl rfl), List.nil_append]
      rw [hjoin, ha, Location.follow, if_neg hb]
      rfl
    · have hhead : ∀ t, (a ++ t).head? = a.head? := fun t => List.head?_append_of_ne_nil a ha
      by_cases hlast : a.getLast? = some '/'
      · -- a separator at its end gives the first part one empty component more
        have hjoin : join a b = a ++ b := by rw [join, if_neg hb, if_pos (.inr hlast)]
        obtain ⟨a', rfl⟩ := List.getLast?_eq_some_iff.mp hlast
        rw [hjoin, Location.follow, Location.follow, hhead, List.append_assoc,
          List.singleton_append, moves_append_cons, moves_append_cons, walk_append, walk_append]
        rfl
      · have hjoin : join a b = a ++ '/' :: b := by rw [join, if_neg hb, if_neg (by tauto)]
        rw [hjoin, Location.follow, Location.follow, hhead, moves_append_cons, walk_append]

/-- A longer second part makes the joined path longer. -/
theorem join_append (hb : b ≠ []) (t : List Char) : join a (b ++ t) = join a b ++ t := by
  unfold join
  rw [List.head?_append_of_ne_nil b hb]
  split_ifs
  · rfl
  · exact (List.append_assoc a b t).symm
  · rw [List.append_assoc, List.cons_append]

theorem join_ne_nil (hb : b ≠ []) : join a b ≠ [] := by
  unfold join
  split_ifs
  · exact hb
  · exact List.append_ne_nil_of_right_ne_nil a hb
  · exact List.append_ne_nil_of_right_ne_nil a (List.cons_ne_nil '/' b)

/-- **One name more** in a text is one name more in the path. -/
theorem parse_append_name {n : List Char} (ha : a ≠ []) (hn : IsName '/' '.' n) :
    parse (a ++ '/' :: n) = ⟨(parse a).absolute, (parse a).tail ++ [n]⟩ := by
  have hkeep : ([n].filter fun c => c ≠ [] ∧ c ≠ ['.']) = [n] := by
    rw [List.filter_eq_self]
    intro c hc
    rw [List.mem_singleton.mp hc]
    exact decide_eq_true ⟨hn.1, hn.2.2.1⟩
  rw [parse, parse, List.head?_append_of_ne_nil a ha, List.splitOn_append_cons_self,
    List.splitOn_eq_singleton hn.2.1, List.filter_append, hkeep]

theorem location_append_name {r : Bool} {t : List (List Char)} {n : List Char}
    (hn : IsName '/' '.' n) :
    (PurePath.mk r (t ++ [n])).location cwd = (PurePath.mk r t).location cwd ++ [⟨n, hn⟩] := by
  unfold location
  rw [List.map_append, walk_append, List.map_singleton, Move.read_name '/' '.' hn, walk, walk]

/-- **A null character** makes `resolve` fail wherever it stands. -/
theorem resolve_parse :
    (parse s).resolve cwd = if '\x00' ∈ s then none else some ((parse s).location cwd) := by
  unfold resolve
  refine if_congr ?_ rfl rfl
  rw [List.any_eq_true]
  constructor
  · rintro ⟨c, hc, hnull⟩
    exact mem_of_mem_splitOn '/' (List.mem_of_mem_filter hc) (of_decide_eq_true hnull)
  · intro hs
    obtain ⟨c, hc, hnull⟩ := exists_mem_splitOn '/' (by decide) hs
    refine ⟨c, List.mem_filter.mpr ⟨hc, ?_⟩, decide_eq_true hnull⟩
    rw [decide_eq_true_eq]
    constructor <;> rintro rfl <;> simp at hnull

theorem null_mem_join (ha : '\x00' ∉ a) : '\x00' ∈ join a b ↔ '\x00' ∈ b := by
  unfold join
  split_ifs <;> simp [ha]

/-! ## Suffixes -/

theorem mem_of_mem_name {p : PurePath} {c : Char} (h : c ∈ p.name) : ∃ t ∈ p.tail, c ∈ t := by
  unfold name at h
  cases hlast : p.tail.getLast? with
  | none =>
      rw [hlast] at h
      cases h
  | some t =>
      rw [hlast] at h
      exact ⟨t, List.mem_of_getLast? hlast, h⟩

/-- A suffix is part of a name. -/
theorem slash_not_mem_suffix : '/' ∉ (parse s).suffix := by
  intro h
  have hname : '/' ∈ (parse s).name := by
    unfold suffix at h
    split at h
    · split at h
      · exact List.mem_of_mem_drop h
      · cases h
    · cases h
  obtain ⟨t, ht, hmem⟩ := mem_of_mem_name hname
  exact not_mem_of_mem_splitOn '/' (List.mem_of_mem_filter ht) hmem

end PurePath

end Rooti
