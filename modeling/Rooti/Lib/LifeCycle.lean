import Rooti.Lib.Cascade
import Rooti.Lib.Interference

/-!
# Life cycles of rows

A life cycle says of every table which rows are added to it, what a row becomes, and whether rows
are ever deleted.  `LifeCycle.May` compares two states of a database: every row of the later one
comes from a row of the earlier one or from one that was added, and rows of tables nothing is
deleted from are all still there.

A statement that a life cycle permits leads from a state to one that it may become, whatever the
state.  The deletions are those of `ON DELETE CASCADE` too, which is why the tables whose rows are
deleted have to be closed under such references.

## Main definitions

* `LifeCycle`, `LifeCycle.Permits` — life cycles, and the statements they permit
* `LifeCycle.May`, `LifeCycle.rely` — what may have become of a database
* `LifeCycle.may_apply` — a statement that is permitted
-/

namespace Relational

variable {ι κ : Type} {Row : ι → Type}

/-- **What may happen to the rows of each table**: which are added, what they become, and whether
they are deleted. -/
structure LifeCycle (C : Catalog ι κ Row) where
  born : ∀ i, Row i → Prop
  becomes : ∀ i, Row i → Row i → Prop
  mortal : ι → Prop
  refl : ∀ i r, becomes i r r
  trans : ∀ {i r r' r''}, becomes i r r' → becomes i r' r'' → becomes i r r''
  /-- what references a row that may be deleted may be deleted with it -/
  cascades : ∀ j (r : Row j), ∀ ref ∈ C.refs j r, ref.onDelete = .cascade → mortal ref.table →
    mortal j

namespace LifeCycle

variable {C : Catalog ι κ Row} {L : LifeCycle C}

/-- **What may have become of a database.** -/
structure May (L : LifeCycle C) (db db' : Database C) : Prop where
  origin : ∀ i, ∀ r' ∈ db'.rows i,
    (∃ r ∈ db.rows i, L.becomes i r r') ∨ ∃ r, L.born i r ∧ L.becomes i r r'
  fate : ∀ i, ¬L.mortal i → ∀ r ∈ db.rows i, ∃ r' ∈ db'.rows i, L.becomes i r r'

theorem May.refl (db : Database C) : L.May db db where
  origin i r hr := .inl ⟨r, hr, L.refl i r⟩
  fate i _ r hr := ⟨r, hr, L.refl i r⟩

theorem May.trans {db db' db'' : Database C} (h : L.May db db') (h' : L.May db' db'') :
    L.May db db'' where
  origin i r'' hr'' := by
    obtain ⟨r', hr', hbecomes⟩ | hborn := h'.origin i r'' hr''
    · obtain ⟨r, hr, hfirst⟩ | ⟨r, hr, hfirst⟩ := h.origin i r' hr'
      · exact .inl ⟨r, hr, L.trans hfirst hbecomes⟩
      · exact .inr ⟨r, hr, L.trans hfirst hbecomes⟩
    · exact .inr hborn
  fate i hi r hr := by
    obtain ⟨r', hr', hfirst⟩ := h.fate i hi r hr
    obtain ⟨r'', hr'', hbecomes⟩ := h'.fate i hi r' hr'
    exact ⟨r'', hr'', L.trans hfirst hbecomes⟩

/-- The life cycle as a relation between states. -/
def rely (L : LifeCycle C) : Program.Rely (Database C) where
  may := L.May
  refl := May.refl
  trans := May.trans

/-- **A statement that a life cycle permits.** -/
def Permits (L : LifeCycle C) : Dml κ Row → Prop
  | .insert i r => L.born i r
  | .update i _ f => ∀ r, L.becomes i r (f r)
  | .delete i _ => L.mortal i

variable [DecidableEq ι] [DecidableEq κ]

/-- **A statement that is permitted** leads to what may become of the database. -/
theorem may_apply {d : Dml κ Row} (hd : L.Permits d) {db db' : Database C}
    (h : d.apply db = .ok db') : L.May db db' := by
  cases d with
  | insert i row =>
      obtain ⟨hrows, -, hothers⟩ := Dml.insert_ok h
      have hmem : ∀ j, ∀ r ∈ db.rows j, r ∈ db'.rows j := by
        intro j r hr
        by_cases hj : j = i
        · subst hj
          rw [hrows]
          exact List.mem_append_left _ hr
        · rwa [Database.rows, hothers j hj]
      refine ⟨fun j r' hr' => ?_, fun j _ r hr => ⟨r, hmem j r hr, L.refl j r⟩⟩
      by_cases hj : j = i
      · subst hj
        rw [hrows, List.mem_append, List.mem_singleton] at hr'
        obtain hr' | rfl := hr'
        · exact .inl ⟨r', hr', L.refl j r'⟩
        · exact .inr ⟨r', hd, L.refl j r'⟩
      · rw [Database.rows, hothers j hj] at hr'
        exact .inl ⟨r', hr', L.refl j r'⟩
  | update i k f =>
      obtain ⟨-, hrows, hothers⟩ := Dml.update_ok h
      have hstep : ∀ r, L.becomes i r (if (C.shape i).key r = k then f r else r) := by
        intro r
        split
        · exact hd r
        · exact L.refl i r
      constructor
      · intro j r' hr'
        by_cases hj : j = i
        · subst hj
          rw [hrows, List.mem_map] at hr'
          obtain ⟨r, hr, rfl⟩ := hr'
          exact .inl ⟨r, hr, hstep r⟩
        · rw [Database.rows, hothers j hj] at hr'
          exact .inl ⟨r', hr', L.refl j r'⟩
      · intro j _ r hr
        by_cases hj : j = i
        · subst hj
          exact ⟨_, hrows ▸ List.mem_map.mpr ⟨r, hr, rfl⟩, hstep r⟩
        · refine ⟨r, ?_, L.refl j r⟩
          rwa [Database.rows, hothers j hj]
  | delete i k =>
      constructor
      · exact fun j r' hr' => .inl ⟨r', (Dml.delete_sublist h j).subset hr', L.refl j r'⟩
      · intro j hj r hr
        -- the tables whose rows are deleted contain the cascade
        have hcascades : db.Cascades fun t _ => L.mortal t :=
          fun j r _ ref href hcascade hmortal => L.cascades j r ref href hcascade hmortal
        exact ⟨r, Dml.delete_kept hcascades hd h hr hj, L.refl j r⟩

/-- **A row that is added stays in sight** while what follows does not leave the life cycle. -/
theorem exists_of_insert {ds : List (Dml κ Row)} {db db' : Database C} {i : ι} {r : Row i}
    (hr : Dml.insert i r ∈ ds) (h : Dml.applyAll ds db = .ok db') (hi : ¬L.mortal i)
    (hmay : ∀ ds' ⊆ ds, ∀ db₁, Dml.applyAll ds' db₁ = .ok db' → L.May db₁ db') :
    ∃ r' ∈ db'.rows i, L.becomes i r r' := by
  induction ds generalizing db with
  | nil => cases hr
  | cons d ds ih =>
      obtain ⟨db₁, hd, hrest⟩ := Dml.applyAll_cons_eq_ok.mp h
      obtain rfl | hr := List.mem_cons.mp hr
      · have hmem : r ∈ db₁.rows i := by
          rw [(Dml.insert_ok hd).1]
          exact List.mem_append_right _ List.mem_cons_self
        exact (hmay ds (List.subset_cons_self _ _) db₁ hrest).fate i hi r hmem
      · exact ih hr hrest fun ds' hds => hmay ds' fun _ h => List.mem_cons_of_mem _ (hds h)

/-- **A row that is added stands apart** from what has become of the rows there were. -/
theorem apart_of_insert {ds : List (Dml κ Row)} {db db' : Database C} {i : ι} {r : Row i}
    (hr : Dml.insert i r ∈ ds) (h : Dml.applyAll ds db = .ok db') (hi : ¬L.mortal i)
    (hmay : ∀ ds' ⊆ ds, ∀ db₁ db₂, Dml.applyAll ds' db₁ = .ok db₂ → L.May db₁ db₂) :
    ∀ x ∈ db.rows i, ∃ x', L.becomes i x x' ∧ (C.shape i).Apart x' r := by
  induction ds generalizing db with
  | nil => cases hr
  | cons d ds ih =>
      obtain ⟨db₁, hd, hrest⟩ := Dml.applyAll_cons_eq_ok.mp h
      intro x hx
      obtain rfl | hr := List.mem_cons.mp hr
      · have hvalid : (db.rows i ++ [r]).Pairwise (C.shape i).Apart := by
          rw [← (Dml.insert_ok hd).1]
          exact (db₁.table i).valid.1
        exact ⟨x, L.refl i x, (List.pairwise_append.mp hvalid).2.2 x hx r List.mem_cons_self⟩
      · have hfirst : L.May db db₁ := hmay [d] (List.cons_subset_cons d (List.nil_subset ds)) db db₁ (by
          rw [Dml.applyAll_singleton, hd])
        obtain ⟨x₁, hx₁, hbecomes₁⟩ := hfirst.fate i hi x hx
        obtain ⟨x', hbecomes, hapart⟩ := ih hr hrest
          (fun ds' hds => hmay ds' fun _ h => List.mem_cons_of_mem _ (hds h)) x₁ hx₁
        exact ⟨x', L.trans hbecomes₁ hbecomes, hapart⟩

end LifeCycle

end Relational
