import Mathlib.Data.List.Nodup
import Mathlib.Data.List.Pairwise
import Mathlib.Logic.Function.Basic

/-!
# Tables with constraints

A `Shape` lists what a relational table demands of its rows: a primary key, the
`UNIQUE` constraints (`clash`) and the column checks (`check`).  A `Table` of
that shape is a list of rows carrying the proof that all of it holds, so a table
violating its own declaration cannot be built, and facts such as "one row per
key" never have to be re-established by a caller.

Statements that could violate a constraint are fallible: they compute the rows
they would leave behind and hand them to `Table.ofRows`, which either returns
the table or names the violation.

## Main definitions

* `Shape`, `Shape.Valid` — the declaration of a table, and the rows meeting it
* `Table` — rows together with their validity
* `Table.find?`, `Table.insert`, `Table.update`, `Table.eraseAll`
-/

namespace Relational

/-- What a statement can violate. -/
inductive Violation
  | check
  | unique
  | reference
  | missing
  deriving DecidableEq, Repr

/-- The declaration of a table over rows `ρ` keyed by `κ`. -/
structure Shape (κ ρ : Type*) where
  /-- the primary key -/
  key : ρ → κ
  /-- two rows that some `UNIQUE` constraint keeps apart -/
  clash : ρ → ρ → Bool
  /-- column types and `CHECK` constraints of one row -/
  check : ρ → Bool

variable {κ ρ : Type*}

namespace Shape

/-- Two rows that may stand in one table. -/
def Apart (S : Shape κ ρ) (r r' : ρ) : Prop :=
  S.key r ≠ S.key r' ∧ S.clash r r' = false ∧ S.clash r' r = false

/-- Rows meeting every constraint of the declaration. -/
def Valid (S : Shape κ ρ) (rows : List ρ) : Prop :=
  rows.Pairwise S.Apart ∧ ∀ r ∈ rows, S.check r = true

instance [DecidableEq κ] (S : Shape κ ρ) : DecidableRel S.Apart := fun r r' =>
  inferInstanceAs (Decidable (S.key r ≠ S.key r' ∧ S.clash r r' = false ∧ S.clash r' r = false))

instance [DecidableEq κ] (S : Shape κ ρ) (rows : List ρ) : Decidable (S.Valid rows) :=
  inferInstanceAs (Decidable (rows.Pairwise S.Apart ∧ ∀ r ∈ rows, S.check r = true))

instance (S : Shape κ ρ) : Std.Symm S.Apart := ⟨fun _ _ h => ⟨h.1.symm, h.2.2, h.2.1⟩⟩

theorem Valid.filter {S : Shape κ ρ} {rows : List ρ} (h : S.Valid rows) (p : ρ → Bool) :
    S.Valid (rows.filter p) :=
  ⟨h.1.filter p, fun r hr => h.2 r (List.mem_filter.mp hr).1⟩

end Shape

/-- A table: rows that meet the constraints of their declaration. -/
structure Table (S : Shape κ ρ) where
  rows : List ρ
  valid : S.Valid rows

namespace Table

variable {S : Shape κ ρ} {T T' : Table S} {r r' : ρ} {k : κ}

@[ext] theorem ext (h : T.rows = T'.rows) : T = T' := by
  cases T; cases T'; cases h; rfl

instance [DecidableEq ρ] : DecidableEq (Table S) := fun T T' =>
  decidable_of_iff (T.rows = T'.rows) ⟨ext, fun h => h ▸ rfl⟩

/-- The table without rows. -/
def empty (S : Shape κ ρ) : Table S := ⟨[], List.Pairwise.nil, by simp⟩

/-- Different rows of a table stand apart. -/
theorem apart (hr : r ∈ T.rows) (hr' : r' ∈ T.rows) (hne : r ≠ r') : S.Apart r r' :=
  T.valid.1.forall hr hr' hne

/-- **One row per key.** -/
theorem eq_of_key (hr : r ∈ T.rows) (hr' : r' ∈ T.rows) (h : S.key r = S.key r') :
    r = r' := by
  by_contra hne
  exact (apart hr hr' hne).1 h

/-- **A `UNIQUE` constraint**: clashing rows are one row. -/
theorem eq_of_clash (hr : r ∈ T.rows) (hr' : r' ∈ T.rows) (h : S.clash r r' = true) :
    r = r' := by
  by_contra hne
  exact Bool.false_ne_true ((apart hr hr' hne).2.1.symm.trans h)

theorem check_of_mem (hr : r ∈ T.rows) : S.check r = true := T.valid.2 r hr

/-- The keys of a table are different. -/
theorem nodup_key (T : Table S) : (T.rows.map S.key).Nodup :=
  List.pairwise_map.mpr (T.valid.1.imp fun hapart => hapart.1)

/-- **At most one row**: rows of a kind of which the table holds one only. -/
theorem exists_filter_eq (T : Table S) {p : ρ → Bool}
    (hunique : ∀ r ∈ T.rows, ∀ r' ∈ T.rows, p r → p r' → r = r') :
    ∃ found : Option ρ, T.rows.filter p = found.toList := by
  have hnodup : (T.rows.filter p).Nodup := (List.Nodup.of_map _ T.nodup_key).filter p
  have hmem : ∀ r ∈ T.rows.filter p, r ∈ T.rows ∧ p r := fun r hr => List.mem_filter.mp hr
  generalize T.rows.filter p = rows at hnodup hmem ⊢
  rcases rows with _ | ⟨r, _ | ⟨r', rest⟩⟩
  · exact ⟨none, rfl⟩
  · exact ⟨some r, rfl⟩
  · obtain ⟨hr, hp⟩ := hmem r List.mem_cons_self
    obtain ⟨hr', hp'⟩ := hmem r' (List.mem_cons_of_mem r List.mem_cons_self)
    have hsame := hunique r hr r' hr' hp hp'
    exact absurd (hsame ▸ List.mem_cons_self) (List.nodup_cons.mp hnodup).1

variable [DecidableEq κ]

/-- The table with the given rows, or the constraint they violate. -/
def ofRows (rows : List ρ) : Except Violation (Table S) :=
  if h : S.Valid rows then .ok ⟨rows, h⟩
  else .error (if rows.all S.check then .unique else .check)

/-- The row with a key. -/
def find? (T : Table S) (k : κ) : Option ρ := T.rows.find? fun r => S.key r = k

/-- `INSERT`. -/
def insert (T : Table S) (r : ρ) : Except Violation (Table S) := ofRows (T.rows ++ [r])

/-- `UPDATE ... SET f WHERE key = k`. -/
def update (T : Table S) (k : κ) (f : ρ → ρ) : Except Violation (Table S) :=
  match T.find? k with
  | none => .error .missing
  | some _ => ofRows (T.rows.map fun r => if S.key r = k then f r else r)

/-- `DELETE ... WHERE key IN ks`. -/
def eraseAll (T : Table S) (ks : List κ) : Table S :=
  ⟨T.rows.filter fun r => S.key r ∉ ks, T.valid.filter _⟩

theorem ofRows_eq_ok {rows : List ρ} : ofRows rows = .ok T' ↔ T'.rows = rows := by
  constructor
  · intro h
    unfold ofRows at h
    split at h
    · cases h; rfl
    · cases h
  · rintro rfl
    simp [ofRows, T'.valid]

theorem find?_eq_some : T.find? k = some r ↔ r ∈ T.rows ∧ S.key r = k := by
  constructor
  · intro h
    exact ⟨List.mem_of_find?_eq_some h, by simpa using List.find?_some h⟩
  · rintro ⟨hr, rfl⟩
    cases h : T.find? (S.key r) with
    | none =>
        have := List.find?_eq_none.mp h r hr
        simp at this
    | some r' =>
        have hr' := List.mem_of_find?_eq_some h
        have hk : S.key r' = S.key r := by simpa using List.find?_some h
        rw [eq_of_key hr' hr hk]

theorem find?_eq_none : T.find? k = none ↔ ∀ r ∈ T.rows, S.key r ≠ k := by
  simp [find?, List.find?_eq_none]

theorem find?_mem (h : T.find? k = some r) : r ∈ T.rows := (find?_eq_some.mp h).1

theorem find?_key (h : T.find? k = some r) : S.key r = k := (find?_eq_some.mp h).2

/-- **The rows with a key** are the one that is found, or none. -/
theorem filter_key (T : Table S) (k : κ) :
    (T.rows.filter fun r => S.key r = k) = (T.find? k).toList := by
  obtain ⟨found, hfound⟩ := T.exists_filter_eq (p := fun r => S.key r = k)
    fun r hr r' hr' hk hk' => eq_of_key hr hr'
      ((of_decide_eq_true hk).trans (of_decide_eq_true hk').symm)
  rw [hfound]
  refine congrArg Option.toList (Option.ext fun r => ?_)
  rw [find?_eq_some, ← Option.mem_toList, ← hfound, List.mem_filter, decide_eq_true_eq]

theorem insert_eq_ok : T.insert r = .ok T' ↔ T'.rows = T.rows ++ [r] := ofRows_eq_ok

/-- A row that stands apart from those of the table can be inserted. -/
theorem insert_of_apart (hapart : ∀ x ∈ T.rows, S.Apart x r) (hcheck : S.check r = true) :
    ∃ T', T.insert r = .ok T' := by
  have hvalid : S.Valid (T.rows ++ [r]) := by
    refine ⟨List.pairwise_append.mpr ⟨T.valid.1, List.pairwise_singleton _ _, ?_⟩, ?_⟩
    · intro x hx y hy
      rw [List.mem_singleton.mp hy]
      exact hapart x hx
    · intro x hx
      obtain hx | hx := List.mem_append.mp hx
      · exact T.valid.2 x hx
      · rw [List.mem_singleton.mp hx]
        exact hcheck
  exact ⟨⟨_, hvalid⟩, insert_eq_ok.mpr rfl⟩

theorem update_eq_ok {f : ρ → ρ} :
    T.update k f = .ok T' ↔
      T.find? k ≠ none ∧ T'.rows = T.rows.map fun r => if S.key r = k then f r else r := by
  unfold update
  cases T.find? k with
  | none => simp
  | some r => simpa using ofRows_eq_ok

@[simp] theorem rows_eraseAll (ks : List κ) :
    (T.eraseAll ks).rows = T.rows.filter fun r => S.key r ∉ ks := rfl

/-- An update that touches neither keys, unique columns nor checked columns
succeeds wherever there is a row to update. -/
theorem update_of_find? {f : ρ → ρ} (h : T.find? k = some r)
    (hkey : ∀ x, S.key (f x) = S.key x)
    (hclash : ∀ x y, S.clash (f x) y = S.clash x y ∧ S.clash x (f y) = S.clash x y)
    (hcheck : S.check (f r) = true) :
    ∃ T', T.update k f = .ok T' ∧
      T'.rows = T.rows.map fun r => if S.key r = k then f r else r := by
  have hvalid : S.Valid (T.rows.map fun r => if S.key r = k then f r else r) := by
    refine ⟨List.pairwise_map.mpr (T.valid.1.imp ?_), ?_⟩
    · intro x y hxy
      unfold Shape.Apart at hxy ⊢
      split <;> split <;> simp [hkey, hclash, hxy]
    · intro y hy
      obtain ⟨x, hx, rfl⟩ := List.mem_map.mp hy
      split
      · next hk => rw [eq_of_key hx (find?_mem h) (hk.trans (find?_key h).symm)]; exact hcheck
      · exact T.valid.2 x hx
  exact ⟨⟨_, hvalid⟩, update_eq_ok.mpr ⟨by simp [h], rfl⟩, rfl⟩

/-- An update that breaks a column check is refused. -/
theorem update_refused {f : ρ → ρ} (h : T.find? k = some r) (hcheck : S.check (f r) = false) :
    ∃ v, T.update k f = .error v := by
  obtain ⟨hr, hk⟩ := find?_eq_some.mp h
  have hinvalid : ¬S.Valid (T.rows.map fun r => if S.key r = k then f r else r) := by
    intro hvalid
    have hf := hvalid.2 (f r) (List.mem_map.mpr ⟨r, hr, if_pos hk⟩)
    rw [hcheck] at hf
    cases hf
  rw [update, h]
  exact ⟨_, dif_neg hinvalid⟩

end Table

end Relational
