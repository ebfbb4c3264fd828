import Rooti.Lib.Table

/-!
# Databases of many tables

A `Catalog` declares a family of tables: one `Shape` per table name, and for
every row the foreign keys it holds.  A database of the catalog assigns a table
to each name.  The data-changing statements (`Dml`) act on one table each and
are refused with the constraint they would violate; a `DELETE` takes the rows
that reference its target with `ON DELETE CASCADE` along, level by level.

The lemmas are frame facts: which rows of which tables a statement leaves
alone.

## Main definitions

* `Ref`, `Catalog`, `Database` — foreign keys, declarations, states
* `Database.doomed` — the rows a `DELETE` takes along
* `Dml`, `Dml.apply`, `applyAll` — single statements and sequences of them
-/

namespace Relational

/-- What the schema asks for when the row a foreign key names is deleted. -/
inductive OnDelete
  | cascade
  | restrict
  | setNull
  deriving DecidableEq, Repr

/-- A foreign key held by a row: the table and key it names. -/
structure Ref (ι κ : Type) where
  table : ι
  key : κ
  onDelete : OnDelete
  deriving DecidableEq

/-- The declaration of a family of tables `ι` with rows `Row` keyed by `κ`. -/
structure Catalog (ι κ : Type) (Row : ι → Type) where
  shape : ∀ i, Shape κ (Row i)
  refs : ∀ i, Row i → List (Ref ι κ)
  /-- the names of all tables -/
  tables : List ι
  mem_tables : ∀ i, i ∈ tables
  /-- no chain of `ON DELETE CASCADE` is longer -/
  depth : ℕ

variable {ι κ : Type} {Row : ι → Type} {C : Catalog ι κ Row}

/-- A state of the declared tables. -/
structure Database (C : Catalog ι κ Row) where
  table : ∀ i, Table (C.shape i)

namespace Database

/-- The rows of a table. -/
abbrev rows (db : Database C) (i : ι) : List (Row i) := (db.table i).rows

@[ext] theorem ext {db db' : Database C} (h : ∀ i, db.rows i = db'.rows i) : db = db' := by
  cases db; cases db'
  congr
  exact funext fun i => Table.ext (h i)

/-- The database whose tables are all empty. -/
def empty (C : Catalog ι κ Row) : Database C := ⟨fun i => Table.empty (C.shape i)⟩

/-- Replace one table. -/
def set [DecidableEq ι] (db : Database C) (i : ι) (T : Table (C.shape i)) : Database C :=
  ⟨Function.update db.table i T⟩

@[simp] theorem set_same [DecidableEq ι] (db : Database C) (i : ι) (T : Table (C.shape i)) :
    (db.set i T).table i = T := Function.update_self ..

theorem set_of_ne [DecidableEq ι] (db : Database C) {i j : ι} (T : Table (C.shape i))
    (h : j ≠ i) : (db.set i T).table j = db.table j := Function.update_of_ne h ..

variable [DecidableEq ι] [DecidableEq κ]

/-- The row of table `i` with key `k`. -/
def find? (db : Database C) (i : ι) (k : κ) : Option (Row i) := (db.table i).find? k

/-- The keys that rows of table `j` hold into `targets` with action `a`. -/
def holds (C : Catalog ι κ Row) (a : OnDelete) (targets : List (ι × κ)) (j : ι) (r : Row j) :
    Bool :=
  (C.refs j r).any fun ref => ref.onDelete = a ∧ (ref.table, ref.key) ∈ targets

/-- The targets of a `DELETE` together with the rows that go with them, `n`
levels of `ON DELETE CASCADE` down. -/
def doomed (db : Database C) : ℕ → List (ι × κ) → List (ι × κ)
  | 0, targets => targets
  | n + 1, targets =>
      doomed db n (targets ++ C.tables.flatMap fun j =>
        ((db.rows j).filter (holds C .cascade targets j)).map fun r => (j, (C.shape j).key r))

/-- Every foreign key of a row names an existing row. -/
def refsMet (db : Database C) (i : ι) (r : Row i) : Bool :=
  (C.refs i r).all fun ref => (db.find? ref.table ref.key).isSome

omit [DecidableEq ι] in
theorem refsMet_iff {db : Database C} {i : ι} {r : Row i} :
    db.refsMet i r ↔ ∀ ref ∈ C.refs i r, ∃ r', db.find? ref.table ref.key = some r' := by
  simp only [refsMet, List.all_eq_true, Option.isSome_iff_exists]

/-- The database satisfies the foreign keys of the catalog. -/
def ForeignKeys (db : Database C) : Prop :=
  ∀ i, ∀ r ∈ db.rows i, ∀ ref ∈ C.refs i r, (db.find? ref.table ref.key).isSome

end Database

/-- **The data-changing statements**, each about one table. -/
inductive Dml (κ : Type) (Row : ι → Type) : Type
  | insert (i : ι) (r : Row i)
  | update (i : ι) (k : κ) (f : Row i → Row i)
  | delete (i : ι) (k : κ)

namespace Dml

/-- The table a statement names. -/
def table : Dml κ Row → ι
  | .insert i _ => i
  | .update i _ _ => i
  | .delete i _ => i

variable [DecidableEq ι] [DecidableEq κ]

/-- Execute a statement, or report the constraint it violates.  An `UPDATE` checks
foreign keys only where it changes them. -/
def apply (d : Dml κ Row) (db : Database C) : Except Violation (Database C) :=
  match d with
  | .insert i r => do
      let T ← (db.table i).insert r
      if db.refsMet i r then .ok (db.set i T) else .error .reference
  | .update i k f => do
      let T ← (db.table i).update k f
      match db.find? i k with
      | none => .error .missing
      | some r =>
          if C.refs i (f r) = C.refs i r ∨ db.refsMet i (f r) then .ok (db.set i T)
          else .error .reference
  | .delete i k =>
      match db.find? i k with
      | none => .error .missing
      | some _ =>
          let gone := db.doomed C.depth [(i, k)]
          let keys := fun j => (gone.filter fun t => t.1 = j).map Prod.snd
          if C.tables.any fun j => ((db.table j).eraseAll (keys j)).rows.any
              (Database.holds C .restrict gone j)
          then .error .reference
          else .ok ⟨fun j => (db.table j).eraseAll (keys j)⟩

/-- Execute statements in order, up to the first refused one. -/
def applyAll (ds : List (Dml κ Row)) (db : Database C) : Except Violation (Database C) :=
  ds.foldlM (fun db d => d.apply db) db

@[simp] theorem applyAll_nil (db : Database C) :
    applyAll ([] : List (Dml κ Row)) db = .ok db := rfl

theorem applyAll_cons (d : Dml κ Row) (ds : List (Dml κ Row)) (db : Database C) :
    applyAll (d :: ds) db = d.apply db >>= applyAll ds := rfl

@[simp] theorem applyAll_singleton (d : Dml κ Row) (db : Database C) :
    applyAll [d] db = d.apply db := by
  rw [applyAll_cons]
  cases d.apply db <;> rfl

theorem applyAll_append (ds es : List (Dml κ Row)) (db : Database C) :
    applyAll (ds ++ es) db = applyAll ds db >>= applyAll es := by
  simp only [applyAll, List.foldlM_append]
  rfl

theorem applyAll_append_eq_ok {ds es : List (Dml κ Row)} {db db' : Database C} :
    applyAll (ds ++ es) db = .ok db' ↔
      ∃ db₁, applyAll ds db = .ok db₁ ∧ applyAll es db₁ = .ok db' := by
  rw [applyAll_append]
  cases applyAll ds db with
  | error v => exact ⟨fun h => (by cases h), fun ⟨_, h, _⟩ => (by cases h)⟩
  | ok db₁ => exact ⟨fun h => ⟨db₁, rfl, h⟩, fun ⟨_, h, h'⟩ => (by cases h; exact h')⟩

theorem applyAll_cons_eq_ok {d : Dml κ Row} {ds : List (Dml κ Row)} {db db' : Database C} :
    applyAll (d :: ds) db = .ok db' ↔
      ∃ db₁, d.apply db = .ok db₁ ∧ applyAll ds db₁ = .ok db' := by
  rw [← List.singleton_append, applyAll_append_eq_ok]
  simp only [applyAll_singleton]

variable {db db' : Database C} {i j : ι} {k : κ}

/-- A successful `INSERT` appends its row and touches nothing else. -/
theorem insert_ok {r : Row i} (h : (Dml.insert i r).apply db = .ok db') :
    db'.rows i = db.rows i ++ [r] ∧ db.refsMet i r ∧ ∀ j, j ≠ i → db'.table j = db.table j := by
  simp only [apply, bind, Except.bind] at h
  cases hT : (db.table i).insert r with
  | error v => simp [hT] at h
  | ok T =>
      simp only [hT] at h
      split at h
      · next hrefs =>
          cases h
          refine ⟨?_, hrefs, fun j hj => db.set_of_ne T hj⟩
          rw [Database.rows, db.set_same]
          exact Table.insert_eq_ok.mp hT
      · cases h

variable (db) in
/-- A row that stands apart from those of its table, and whose foreign keys are
met, can be inserted. -/
theorem insert_of_apart {r : Row i} (hapart : ∀ x ∈ db.rows i, (C.shape i).Apart x r)
    (hcheck : (C.shape i).check r = true) (hrefs : db.refsMet i r) :
    ∃ db', (Dml.insert i r).apply db = .ok db' := by
  obtain ⟨T, hT⟩ := Table.insert_of_apart hapart hcheck
  refine ⟨db.set i T, ?_⟩
  simp [apply, bind, Except.bind, hT, hrefs]

/-- A successful `UPDATE` changes the one row it names. -/
theorem update_ok {f : Row i → Row i} (h : (Dml.update i k f).apply db = .ok db') :
    db.find? i k ≠ none ∧
      db'.rows i = (db.rows i).map (fun r => if (C.shape i).key r = k then f r else r) ∧
      ∀ j, j ≠ i → db'.table j = db.table j := by
  simp only [apply, bind, Except.bind] at h
  cases hT : (db.table i).update k f with
  | error v => simp [hT] at h
  | ok T =>
      simp only [hT] at h
      obtain ⟨hfind, hrows⟩ := Table.update_eq_ok.mp hT
      have hdb : db' = db.set i T := by
        split at h
        · cases h
        · split at h
          · cases h; rfl
          · cases h
      subst hdb
      exact ⟨hfind, by rw [Database.rows, db.set_same]; exact hrows,
        fun j hj => db.set_of_ne T hj⟩

/-- A row with another key is found as before an `INSERT`. -/
theorem find?_insert_of_ne {r : Row i} (h : (Dml.insert i r).apply db = .ok db')
    (hk : k ≠ (C.shape i).key r) : db'.find? i k = db.find? i k := by
  refine Option.ext fun x => ?_
  rw [Database.find?, Database.find?, Table.find?_eq_some, Table.find?_eq_some]
  refine and_congr_left fun hkey => ?_
  show x ∈ db'.rows i ↔ x ∈ db.rows i
  rw [(insert_ok h).1, List.mem_append, List.mem_singleton]
  refine or_iff_left ?_
  rintro rfl
  exact hk hkey.symm

/-- A row with another key is found as before an `UPDATE`. -/
theorem find?_update_of_ne {f : Row i → Row i} {k' : κ}
    (h : (Dml.update i k' f).apply db = .ok db')
    (hkey : ∀ r, (C.shape i).key (f r) = (C.shape i).key r) (hk : k ≠ k') :
    db'.find? i k = db.find? i k := by
  refine Option.ext fun x => ?_
  rw [Database.find?, Database.find?, Table.find?_eq_some, Table.find?_eq_some]
  refine and_congr_left fun hx => ?_
  show x ∈ db'.rows i ↔ x ∈ db.rows i
  rw [(update_ok h).2.1, List.mem_map]
  constructor
  · rintro ⟨r, hr, heq⟩
    have hne : (C.shape i).key r ≠ k' := by
      intro hrk
      rw [if_pos hrk] at heq
      exact hk (by rw [← hx, ← heq, hkey, hrk])
    rw [if_neg hne] at heq
    exact heq ▸ hr
  · exact fun hmem => ⟨x, hmem, if_neg (hx ▸ hk)⟩

/-- An `UPDATE` that leaves keys, unique columns and foreign keys alone and keeps
the column types succeeds wherever there is a row. -/
theorem update_of_find? {f : Row i → Row i} {r : Row i} (h : db.find? i k = some r)
    (hkey : ∀ x, (C.shape i).key (f x) = (C.shape i).key x)
    (hclash : ∀ x y, (C.shape i).clash (f x) y = (C.shape i).clash x y ∧
      (C.shape i).clash x (f y) = (C.shape i).clash x y)
    (hcheck : (C.shape i).check (f r) = true) (hrefs : C.refs i (f r) = C.refs i r) :
    ∃ db', (Dml.update i k f).apply db = .ok db' := by
  obtain ⟨T, hT, -⟩ := Table.update_of_find? h hkey hclash hcheck
  refine ⟨db.set i T, ?_⟩
  simp [apply, bind, Except.bind, hT, h, hrefs]

/-- An `UPDATE` that breaks a column check is refused. -/
theorem update_refused {f : Row i → Row i} {r : Row i} (h : db.find? i k = some r)
    (hcheck : (C.shape i).check (f r) = false) :
    ∃ v, (Dml.update i k f).apply db = .error v := by
  obtain ⟨v, hv⟩ := Table.update_refused h hcheck
  exact ⟨v, by simp [apply, bind, Except.bind, hv]⟩

/-- An `UPDATE` that leaves its row as it is changes nothing. -/
theorem update_self {f : Row i → Row i} {r : Row i} (h : db.find? i k = some r)
    (hf : f r = r) : (Dml.update i k f).apply db = .ok db := by
  have hrows : ((db.rows i).map fun x => if (C.shape i).key x = k then f x else x) = db.rows i := by
    refine (List.map_congr_left fun x hx => ?_).trans (List.map_id _)
    split
    · next hk =>
        obtain rfl := Table.eq_of_key hx (Table.find?_mem h) (hk.trans (Table.find?_key h).symm)
        exact hf
    · rfl
  have hT : (db.table i).update k f = .ok (db.table i) := by
    refine Table.update_eq_ok.mpr ⟨?_, hrows.symm⟩
    rw [show (db.table i).find? k = some r from h]
    exact Option.some_ne_none r
  have hset : db.set i (db.table i) = db := by
    refine Database.ext fun j => ?_
    rw [Database.rows, Database.set, Function.update_eq_self]
  simp [apply, bind, Except.bind, hT, h, hf, hset]

/-- Nothing references table `i`. -/
def Unreferenced (C : Catalog ι κ Row) (i : ι) : Prop :=
  ∀ j (r : Row j), ∀ ref ∈ C.refs j r, ref.table ≠ i

theorem doomed_of_unreferenced (hi : Unreferenced C i) (n : ℕ) :
    db.doomed n [(i, k)] = [(i, k)] := by
  induction n with
  | zero => rfl
  | succ n ih =>
      have hnone : ∀ j (r : Row j), Database.holds C .cascade [(i, k)] j r = false := by
        intro j r
        simp only [Database.holds, List.any_eq_false]
        intro ref href
        simp [hi j r ref href]
      have hstep : (C.tables.flatMap fun j =>
          ((db.rows j).filter (Database.holds C .cascade [(i, k)] j)).map
            fun r => (j, (C.shape j).key r)) = [] := by
        simp [List.flatMap_eq_nil_iff, hnone]
      rw [Database.doomed, hstep, List.append_nil, ih]

/-- A successful `DELETE` of a row nothing can reference removes that row only. -/
theorem delete_ok (hi : Unreferenced C i) (h : (Dml.delete i k).apply db = .ok db') :
    db'.rows i = (db.rows i).filter (fun r => (C.shape i).key r ≠ k) ∧
      ∀ j, j ≠ i → db'.table j = db.table j := by
  simp only [apply] at h
  split at h
  · cases h
  · rw [doomed_of_unreferenced hi] at h
    split at h
    · cases h
    · cases h
      refine ⟨by simp [Database.rows], fun j hj => Table.ext ?_⟩
      have hij : ¬ i = j := fun e => hj e.symm
      show ((db.table j).eraseAll _).rows = _
      simp [hij]

end Dml

end Relational
