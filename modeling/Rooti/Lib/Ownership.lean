import Rooti.Lib.Cascade
import Rooti.Lib.Interference

/-!
# Rows that are somebody's

Some rows of a database belong to somebody, which can be told from the row.  A statement is foreign
to the owner if it neither adds such a row nor changes or deletes one there is (`Ownership.Foreign`);
it names the rows it is about by their keys, so whether it is foreign depends on the keys of the
rows that are owned.  Foreign statements leave what is owned as it is (`Ownership.kept_apply`), and
while it is, whoever reads a row of somebody else has a key that is not owned
(`Ownership.Kept.foreign_key`).

Rows may be deleted with others that they reference, so what is owned has to be closed under such
references, as far as they are to tables from which anything is deleted.

## Main definitions

* `Ownership`, `Ownership.Kept` — owned rows, and databases in which they are as they were
* `Ownership.Foreign` — the statements of everybody else
-/

namespace Relational

variable {ι κ : Type} {Row : ι → Type} {C : Catalog ι κ Row}

/-- **The rows that are somebody's** in a database. -/
structure Ownership (C : Catalog ι κ Row) (db₀ : Database C) where
  mine : ∀ i, Row i → Prop
  /-- the tables from which rows are deleted -/
  mortal : ι → Prop
  cascades : ∀ j (r : Row j), ∀ ref ∈ C.refs j r, ref.onDelete = .cascade → mortal ref.table →
    mortal j
  /-- what would be deleted with another row is owned with that row -/
  closed : ∀ j, ∀ r ∈ db₀.rows j, mine j r → ∀ ref ∈ C.refs j r, ref.onDelete = .cascade →
    mortal ref.table → ∃ x ∈ db₀.rows ref.table, mine ref.table x ∧
      (C.shape ref.table).key x = ref.key

namespace Ownership

variable {db₀ : Database C} {O : Ownership C db₀} {i : ι}

/-- The key of a row that is owned. -/
def Key (O : Ownership C db₀) (i : ι) (k : κ) : Prop :=
  ∃ r ∈ db₀.rows i, O.mine i r ∧ (C.shape i).key r = k

/-- **What is owned is as it was.** -/
def Kept (O : Ownership C db₀) (db : Database C) : Prop :=
  ∀ i r, O.mine i r → (r ∈ db.rows i ↔ r ∈ db₀.rows i)

theorem kept_start : O.Kept db₀ := fun _ _ _ => .rfl

/-- **A statement that is nothing to the owner.** -/
def Foreign (O : Ownership C db₀) : Dml κ Row → Prop
  | .insert i r => ¬O.mine i r
  | .update i k f => ¬O.Key i k ∧ ∀ r, O.mine i (f r) → O.mine i r
  | .delete i k => ¬O.Key i k ∧ O.mortal i

/-- A row that is as it was has the key of a row that is owned only if it is owned. -/
theorem Kept.foreign_key {db : Database C} (h : O.Kept db) {r : Row i} (hr : r ∈ db.rows i)
    (hother : ¬O.mine i r) : ¬O.Key i ((C.shape i).key r) := by
  rintro ⟨x, hx, hmine, hkey⟩
  obtain rfl := Table.eq_of_key ((h i x hmine).mpr hx) hr hkey
  exact hother hmine

variable [DecidableEq ι] [DecidableEq κ]

/-- **Foreign statements leave what is owned as it is.** -/
theorem kept_apply {d : Dml κ Row} (hd : O.Foreign d) {db db' : Database C}
    (h : d.apply db = .ok db') (hkept : O.Kept db) : O.Kept db' := by
  intro j r hmine
  rw [← hkept j r hmine]
  cases d with
  | insert i row =>
      obtain ⟨hrows, -, hothers⟩ := Dml.insert_ok h
      by_cases hj : j = i
      · subst hj
        rw [hrows, List.mem_append, List.mem_singleton, or_iff_left]
        rintro rfl
        exact hd hmine
      · rw [Database.rows, hothers j hj]
  | update i k f =>
      obtain ⟨-, hrows, hothers⟩ := Dml.update_ok h
      by_cases hj : j = i
      · subst hj
        have hkey : ∀ x ∈ db.rows j, O.mine j x → (C.shape j).key x ≠ k := fun x hx hx' hk =>
          hd.1 ⟨x, (hkept j x hx').mp hx, hx', hk⟩
        rw [hrows, List.mem_map]
        constructor
        · rintro ⟨x, hx, rfl⟩
          split at hmine
          · next hk => exact absurd hk (hkey x hx (hd.2 x hmine))
          · next hk => rwa [if_neg hk]
        · exact fun hr => ⟨r, hr, if_neg (hkey r hr hmine)⟩
      · rw [Database.rows, hothers j hj]
  | delete i k =>
      refine ⟨fun hr => (Dml.delete_sublist h j).subset hr, fun hr => ?_⟩
      -- the rows outside of what is owned contain the cascade
      have hcascades : db.Cascades fun t k' => ¬O.Key t k' ∧ O.mortal t := by
        rintro t x hx ref href hcascade ⟨hkey, hmortal⟩
        refine ⟨?_, O.cascades t x ref href hcascade hmortal⟩
        rintro ⟨y, hy, hy', hyx⟩
        obtain rfl := Table.eq_of_key ((hkept t y hy').mpr hy) hx hyx
        exact hkey (O.closed t y hy hy' ref href hcascade hmortal)
      refine Dml.delete_kept hcascades hd h hr fun hout => hout.1 ?_
      exact ⟨r, (hkept j r hmine).mp hr, hmine, rfl⟩

end Ownership

end Relational
