import Rooti.Lib.Catalog

/-!
# What a deletion takes along

A `DELETE` removes its target together with the rows that reference it with
`ON DELETE CASCADE`, level by level.  Which rows these are is bounded by a set
that contains the target and is closed under such references (`Cascades`): the
rows outside of it stay, and a deletion is refused only for a row that
references the set with `ON DELETE RESTRICT`.

## Main definitions

* `Database.Cascades` — sets closed under `ON DELETE CASCADE`
* `Dml.delete_kept`, `Dml.delete_sublist`, `Dml.delete_target` — what a deletion
  leaves
* `Dml.delete_of_cascades` — when it succeeds
-/

namespace Relational

variable {ι κ : Type} {Row : ι → Type} {C : Catalog ι κ Row} [DecidableEq ι] [DecidableEq κ]

namespace Database

/-- Whatever references a member of `X` with `ON DELETE CASCADE` is a member. -/
def Cascades (db : Database C) (X : ι → κ → Prop) : Prop :=
  ∀ j, ∀ r ∈ db.rows j, ∀ ref ∈ C.refs j r, ref.onDelete = .cascade → X ref.table ref.key →
    X j ((C.shape j).key r)

variable {db : Database C} {X : ι → κ → Prop} {targets : List (ι × κ)} {t : ι × κ}

/-- A deletion goes no further than a set closed under its cascade. -/
theorem doomed_subset (hX : db.Cascades X) {n : ℕ} (h : ∀ t ∈ targets, X t.1 t.2)
    (ht : t ∈ db.doomed n targets) : X t.1 t.2 := by
  induction n generalizing targets with
  | zero => exact h t ht
  | succ n ih =>
      refine ih (fun t' ht' => ?_) ht
      obtain ht' | ht' := List.mem_append.mp ht'
      · exact h t' ht'
      · obtain ⟨j, -, ht'⟩ := List.mem_flatMap.mp ht'
        obtain ⟨r, hr, rfl⟩ := List.mem_map.mp ht'
        obtain ⟨hr, hholds⟩ := List.mem_filter.mp hr
        obtain ⟨ref, href, hcascade⟩ := List.any_eq_true.mp hholds
        obtain ⟨haction, htarget⟩ := of_decide_eq_true hcascade
        exact hX j r hr ref href haction (h _ htarget)

/-- The targets themselves are deleted. -/
theorem mem_doomed {n : ℕ} (ht : t ∈ targets) : t ∈ db.doomed n targets := by
  induction n generalizing targets with
  | zero => exact ht
  | succ n ih => exact ih (List.mem_append_left _ ht)

/-- Rows that reference a target with `ON DELETE CASCADE` are deleted. -/
theorem mem_doomed_of_ref {n : ℕ} {j : ι} {r : Row j} (hr : r ∈ db.rows j) {ref : Ref ι κ}
    (href : ref ∈ C.refs j r) (hcascade : ref.onDelete = .cascade)
    (ht : (ref.table, ref.key) ∈ targets) :
    (j, (C.shape j).key r) ∈ db.doomed (n + 1) targets := by
  rw [doomed]
  refine mem_doomed (List.mem_append_right _ ?_)
  refine List.mem_flatMap.mpr ⟨j, C.mem_tables j, List.mem_map.mpr ⟨r, ?_, rfl⟩⟩
  refine List.mem_filter.mpr ⟨hr, List.any_eq_true.mpr ⟨ref, href, ?_⟩⟩
  exact decide_eq_true ⟨hcascade, ht⟩

end Database

namespace Dml

variable {db db' : Database C} {X : ι → κ → Prop} {i j : ι} {k : κ}

/-- The rows a successful deletion leaves of each table. -/
theorem delete_rows (h : (Dml.delete i k : Dml κ Row).apply db = .ok db') (j : ι) :
    db'.rows j = (db.rows j).filter fun r =>
      (C.shape j).key r ∉ ((db.doomed C.depth [(i, k)]).filter fun t => t.1 = j).map Prod.snd := by
  simp only [apply] at h
  split at h
  · cases h
  · split at h
    · cases h
    · cases h
      rfl

/-- A deletion only removes rows. -/
theorem delete_sublist (h : (Dml.delete i k : Dml κ Row).apply db = .ok db') (j : ι) :
    (db'.rows j).Sublist (db.rows j) := by
  rw [delete_rows h]
  exact List.filter_sublist

/-- The target of a deletion is gone. -/
theorem delete_target (h : (Dml.delete i k : Dml κ Row).apply db = .ok db') {r : Row i}
    (hr : r ∈ db'.rows i) : (C.shape i).key r ≠ k := by
  rw [delete_rows h, List.mem_filter] at hr
  rintro rfl
  refine of_decide_eq_true hr.2 (List.mem_map.mpr ⟨(i, _), List.mem_filter.mpr ⟨?_, ?_⟩, rfl⟩)
  · exact Database.mem_doomed (List.mem_singleton.mpr rfl)
  · exact decide_eq_true rfl

/-- **Rows outside the cascade stay.** -/
theorem delete_kept (hX : db.Cascades X) (hk : X i k)
    (h : (Dml.delete i k : Dml κ Row).apply db = .ok db') {r : Row j} (hr : r ∈ db.rows j)
    (hout : ¬X j ((C.shape j).key r)) : r ∈ db'.rows j := by
  rw [delete_rows h, List.mem_filter]
  refine ⟨hr, decide_eq_true fun hgone => hout ?_⟩
  obtain ⟨t, ht, hkey⟩ := List.mem_map.mp hgone
  obtain ⟨ht, htable⟩ := List.mem_filter.mp ht
  have hmember := Database.doomed_subset hX
    (fun t' ht' => by rw [List.mem_singleton.mp ht']; exact hk) ht
  obtain rfl : t.1 = j := of_decide_eq_true htable
  rw [← hkey]
  exact hmember

/-- Rows that reference the target with `ON DELETE CASCADE` go with it. -/
theorem delete_removes (hdepth : 0 < C.depth)
    (h : (Dml.delete i k : Dml κ Row).apply db = .ok db') {r : Row j} (hr : r ∈ db.rows j)
    {ref : Ref ι κ} (href : ref ∈ C.refs j r) (hcascade : ref.onDelete = .cascade)
    (htable : ref.table = i) (hkey : ref.key = k) : r ∉ db'.rows j := by
  rw [delete_rows h, List.mem_filter]
  rintro ⟨-, hkept⟩
  refine of_decide_eq_true hkept (List.mem_map.mpr ⟨(j, _), List.mem_filter.mpr ⟨?_, ?_⟩, rfl⟩)
  · rw [← Nat.succ_pred_eq_of_pos hdepth]
    refine Database.mem_doomed_of_ref hr href hcascade (List.mem_singleton.mpr ?_)
    rw [htable, hkey]
  · exact decide_eq_true rfl

/-- **The rows a deletion leaves**, where the cascade is known exactly. -/
theorem delete_rows_eq (hX : db.Cascades X) (hk : X i k)
    (h : (Dml.delete i k : Dml κ Row).apply db = .ok db') (p : Row j → Bool)
    (hkept : ∀ r ∈ db.rows j, p r = true → ¬X j ((C.shape j).key r))
    (hgone : ∀ r ∈ db.rows j, p r = false → r ∉ db'.rows j) :
    db'.rows j = (db.rows j).filter p := by
  have hmem : ∀ r ∈ db.rows j, r ∈ db'.rows j ↔ p r = true := by
    intro r hr
    constructor
    · intro hr'
      by_contra hp
      exact hgone r hr (by simpa using hp) hr'
    · exact fun hp => delete_kept hX hk h hr (hkept r hr hp)
  rw [delete_rows h]
  refine List.filter_congr fun r hr => ?_
  rw [Bool.eq_iff_iff, ← hmem r hr, delete_rows h, List.mem_filter]
  exact ⟨fun hkeep => ⟨hr, hkeep⟩, fun hkeep => hkeep.2⟩

/-- A table with no row in the cascade stays as it is. -/
theorem delete_rows_of_outside (hX : db.Cascades X) (hk : X i k)
    (h : (Dml.delete i k : Dml κ Row).apply db = .ok db')
    (hout : ∀ r ∈ db.rows j, ¬X j ((C.shape j).key r)) : db'.rows j = db.rows j := by
  have hkept : ∀ r ∈ db.rows j, r ∈ db'.rows j := fun r hr =>
    delete_kept hX hk h hr (hout r hr)
  rw [delete_rows h, List.filter_eq_self]
  intro r hr
  have hmem := hkept r hr
  rw [delete_rows h, List.mem_filter] at hmem
  exact hmem.2

/-- **A deletion succeeds** if its target exists and no row references the cascade
with `ON DELETE RESTRICT`. -/
theorem delete_of_cascades (hX : db.Cascades X) (hk : X i k) (hfind : db.find? i k ≠ none)
    (hrestrict : ∀ j, ∀ r ∈ db.rows j, ∀ ref ∈ C.refs j r, ref.onDelete = .restrict →
      ¬X ref.table ref.key) :
    ∃ db', (Dml.delete i k : Dml κ Row).apply db = .ok db' := by
  obtain ⟨r, hr⟩ := Option.ne_none_iff_exists'.mp hfind
  simp only [apply, hr]
  split
  · next hheld =>
      exfalso
      obtain ⟨j, -, hheld⟩ := List.any_eq_true.mp hheld
      obtain ⟨r', hr', hholds⟩ := List.any_eq_true.mp hheld
      rw [Table.rows_eraseAll] at hr'
      obtain ⟨ref, href, htarget⟩ := List.any_eq_true.mp hholds
      obtain ⟨haction, htarget⟩ := of_decide_eq_true htarget
      refine hrestrict j r' (List.mem_filter.mp hr').1 ref href haction ?_
      exact Database.doomed_subset hX
        (fun t' ht' => by rw [List.mem_singleton.mp ht']; exact hk) htarget
  · exact ⟨_, rfl⟩

end Dml

end Relational
