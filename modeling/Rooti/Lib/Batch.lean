import Rooti.Lib.Cascade

/-!
# Batches of statements on one table

A flush sends many statements about one table: rows that are inserted, rows that
are updated one after another, rows that are deleted.  An insertion of many rows
succeeds if the table may hold them all.  Updates are checked after each row, so
a batch of them may fail although its final state is allowed
(`Dml.applyAll_updates`).

## Main definitions

* `Dml.applyAll_inserts` — many insertions
* `Dml.Passes`, `Dml.applyAll_updates` — updates one after another
* `Dml.applyAll_deletes` — deletions of rows that nothing references

## Insertions, updates, deletions

The three kinds of statement differ in when they can fail. Rows that are inserted stay,
so a batch of insertions whose references are met fails at some row exactly if the final
table is not valid, whatever the order. Rows that are deleted only leave, and they fail
on what references them alone. Rows that are updated can pass through states that are
not allowed: two rows that swap the value of a unique column do. `PassAll` is the exact
condition, stated over the table before the batch with the finished rows laid over it
(`overlay`), so that no intermediate database appears in it.

All results are equivalences, for one table `i` of any catalog. They are for a batch
whose statements concern this table only, and for foreign keys of its rows into other
tables, which such a batch does not move (`refsMet_congr`).
-/

namespace Relational

namespace Table

variable {κ ρ : Type*} {S : Shape κ ρ} {T : Table S} {r : ρ} {k : κ} [DecidableEq κ]

/-- **An update of one row** succeeds exactly if the new row stands apart from all
others. -/
theorem update_iff_apart {f : ρ → ρ} (h : T.find? k = some r) (hkey : S.key (f r) = k) :
    (∃ T', T.update k f = .ok T') ↔
      S.check (f r) = true ∧ ∀ x ∈ T.rows, x ≠ r → S.Apart x (f r) := by
  obtain ⟨hr, hk⟩ := find?_eq_some.mp h
  have hother : ∀ x ∈ T.rows, x ≠ r → S.key x ≠ k := fun x hx hne hxk =>
    hne (eq_of_key hx hr (hxk.trans hk.symm))
  have heq : ∀ x ∈ T.rows, S.key x = k → x = r := fun x hx hxk =>
    eq_of_key hx hr (hxk.trans hk.symm)
  constructor
  · rintro ⟨T', hT'⟩
    obtain ⟨-, hrows⟩ := update_eq_ok.mp hT'
    have hnew : f r ∈ T'.rows := by
      rw [hrows]
      exact List.mem_map.mpr ⟨r, hr, if_pos hk⟩
    refine ⟨check_of_mem hnew, fun x hx hne => ?_⟩
    have hxk := hother x hx hne
    have hold : x ∈ T'.rows := by
      rw [hrows]
      exact List.mem_map.mpr ⟨x, hx, if_neg hxk⟩
    refine apart hold hnew ?_
    rintro rfl
    exact hxk hkey
  · rintro ⟨hcheck, hapart⟩
    -- of two rows at most one is the new row, since keys are not repeated
    have hvalid : S.Valid (T.rows.map fun x => if S.key x = k then f x else x) := by
      refine ⟨List.pairwise_map.mpr (T.valid.1.imp_of_mem fun {x y} hx hy hxy => ?_), ?_⟩
      · by_cases hxk : S.key x = k
        · obtain rfl := heq x hx hxk
          have hyk : S.key y ≠ k := fun hyk => hxy.1 (hxk.trans hyk.symm)
          rw [if_pos hxk, if_neg hyk]
          exact symm (hapart y hy fun h => hyk (h ▸ hxk))
        · rw [if_neg hxk]
          by_cases hyk : S.key y = k
          · obtain rfl := heq y hy hyk
            rw [if_pos hyk]
            exact hapart x hx fun h => hxk (h ▸ hyk)
          · rw [if_neg hyk]
            exact hxy
      · intro y hy
        obtain ⟨x, hx, rfl⟩ := List.mem_map.mp hy
        by_cases hxk : S.key x = k
        · obtain rfl := heq x hx hxk
          rw [if_pos hxk]
          exact hcheck
        · rw [if_neg hxk]
          exact check_of_mem hx
    exact ⟨⟨_, hvalid⟩, update_eq_ok.mpr ⟨by simp [h], rfl⟩⟩

end Table

variable {ι κ : Type} {Row : ι → Type} {C : Catalog ι κ Row} [DecidableEq ι] [DecidableEq κ]

namespace Dml

variable {db db' : Database C} {i : ι}

/-! ## Insertions -/

omit [DecidableEq κ] in
/-- Databases are equal if one table is and the others are. -/
theorem eq_of_rows (hrows : db'.rows i = db.rows i)
    (hothers : ∀ j, j ≠ i → db'.table j = db.table j) : db' = db := by
  refine Database.ext fun j => ?_
  by_cases hj : j = i
  · subst hj
    exact hrows
  · exact congrArg Table.rows (hothers j hj)

/-- An insertion, read both ways. -/
theorem insert_eq_ok {r : Row i} :
    (Dml.insert i r : Dml κ Row).apply db = .ok db' ↔
      db'.rows i = db.rows i ++ [r] ∧ db.refsMet i r ∧ ∀ j, j ≠ i → db'.table j = db.table j := by
  refine ⟨insert_ok, ?_⟩
  rintro ⟨hrows, hrefs, hothers⟩
  have hT : (db.table i).insert r = .ok (db'.table i) := Table.insert_eq_ok.mpr hrows
  have hset : db.set i (db'.table i) = db' := by
    refine eq_of_rows (i := i) (congrArg Table.rows (db.set_same ..)) fun j hj => ?_
    rw [db.set_of_ne _ hj, hothers j hj]
  simp [apply, bind, Except.bind, hT, hrefs, hset]

omit [DecidableEq ι] in
/-- Foreign keys into other tables do not see what happens to this one. -/
theorem refsMet_congr {r : Row i} (hself : ∀ ref ∈ C.refs i r, ref.table ≠ i)
    (hothers : ∀ j, j ≠ i → db'.table j = db.table j) : db'.refsMet i r = db.refsMet i r := by
  rw [Bool.eq_iff_iff, Database.refsMet_iff, Database.refsMet_iff]
  refine forall₂_congr fun ref href => ?_
  rw [Database.find?, Database.find?, hothers _ (hself ref href)]

/-- **Many insertions** succeed if the table may hold all the rows. -/
theorem applyAll_inserts {rows : List (Row i)}
    (hself : ∀ r ∈ rows, ∀ ref ∈ C.refs i r, ref.table ≠ i) :
    applyAll (rows.map (Dml.insert i) : List (Dml κ Row)) db = .ok db' ↔
      db'.rows i = db.rows i ++ rows ∧ (∀ r ∈ rows, db.refsMet i r) ∧
        ∀ j, j ≠ i → db'.table j = db.table j := by
  induction rows generalizing db with
  | nil =>
      rw [List.map_nil, applyAll_nil, List.append_nil]
      constructor
      · intro h
        cases h
        exact ⟨rfl, fun r hr => absurd hr List.not_mem_nil, fun _ _ => rfl⟩
      · rintro ⟨hrows, -, hothers⟩
        rw [eq_of_rows hrows hothers]
  | cons r rest ih =>
      obtain ⟨hr, hrest⟩ := List.forall_mem_cons.mp hself
      rw [List.map_cons, applyAll_cons_eq_ok]
      constructor
      · rintro ⟨db₁, hfirst, h⟩
        obtain ⟨hrows₁, hrefs₁, hothers₁⟩ := insert_ok hfirst
        obtain ⟨hrows, hrefs, hothers⟩ := (ih hrest).mp h
        refine ⟨?_, List.forall_mem_cons.mpr ⟨hrefs₁, fun x hx => ?_⟩, fun j hj => ?_⟩
        · rw [hrows, hrows₁, List.append_assoc, List.singleton_append]
        · rw [← refsMet_congr (hrest x hx) hothers₁]
          exact hrefs x hx
        · rw [hothers j hj, hothers₁ j hj]
      · rintro ⟨hrows, hrefs, hothers⟩
        obtain ⟨hrefsR, hrefsRest⟩ := List.forall_mem_cons.mp hrefs
        -- the rows after the first insertion are some of those after all of them
        have hvalid : (C.shape i).Valid (db.rows i ++ [r]) := by
          have hsub : (db.rows i ++ [r]).Sublist (db'.rows i) := by
            rw [hrows]
            exact List.Sublist.append_left (by simp) _
          exact ⟨(db'.table i).valid.1.sublist hsub, fun x hx =>
            (db'.table i).valid.2 x (hsub.subset hx)⟩
        have hothers₁ : ∀ j, j ≠ i →
            (db.set i ⟨db.rows i ++ [r], hvalid⟩).table j = db.table j :=
          fun j hj => db.set_of_ne _ hj
        have hrows₁ : (db.set i ⟨db.rows i ++ [r], hvalid⟩).rows i = db.rows i ++ [r] :=
          congrArg Table.rows (db.set_same ..)
        refine ⟨_, insert_eq_ok.mpr ⟨hrows₁, hrefsR, hothers₁⟩, (ih hrest).mpr ⟨?_, ?_, ?_⟩⟩
        · rw [hrows, hrows₁, List.append_assoc, List.singleton_append]
        · intro x hx
          rw [refsMet_congr (hrest x hx) hothers₁]
          exact hrefsRest x hx
        · intro j hj
          rw [hothers j hj, hothers₁ j hj]

/-- They are possible if the rows may stand in the table. -/
theorem exists_inserts {rows : List (Row i)}
    (hself : ∀ r ∈ rows, ∀ ref ∈ C.refs i r, ref.table ≠ i)
    (hrefs : ∀ r ∈ rows, db.refsMet i r) :
    (∃ db', applyAll (rows.map (Dml.insert i) : List (Dml κ Row)) db = .ok db') ↔
      (C.shape i).Valid (db.rows i ++ rows) := by
  constructor
  · rintro ⟨db', h⟩
    rw [← ((applyAll_inserts hself).mp h).1]
    exact (db'.table i).valid
  · intro hvalid
    refine ⟨db.set i ⟨_, hvalid⟩, (applyAll_inserts hself).mpr ⟨?_, hrefs, ?_⟩⟩
    · exact congrArg Table.rows (db.set_same ..)
    · exact fun j hj => db.set_of_ne _ hj

/-! ## Updates -/

/-- The rows with the keys `done` are updated to what `g` makes of them. -/
def overlay (C : Catalog ι κ Row) (g : Row i → Row i) (done : List κ) (r : Row i) : Row i :=
  if (C.shape i).key r ∈ done then g r else r

/-- **The update of one row passes**, while the rows with the keys `done` have been
updated already. -/
def Passes (db : Database C) (g : Row i → Row i) (done : List κ) (u : Row i) : Prop :=
  (C.shape i).check (g u) = true ∧
    ∀ x ∈ db.rows i, x ≠ u → (C.shape i).Apart (overlay C g done x) (g u)

/-- The updates of the rows `us` pass one after another. -/
def PassAll (db : Database C) (g : Row i → Row i) : List κ → List (Row i) → Prop
  | _, [] => True
  | done, u :: us => Passes db g done u ∧ PassAll db g (done ++ [(C.shape i).key u]) us

omit [DecidableEq ι] in
/-- Each update finds those before it done. -/
theorem passAll_iff {g : Row i → Row i} {done : List κ} {us : List (Row i)} :
    PassAll db g done us ↔
      ∀ l u r, us = l ++ u :: r → Passes db g (done ++ l.map (C.shape i).key) u := by
  induction us generalizing done with
  | nil => exact ⟨fun _ l u r h => by simp at h, fun _ => trivial⟩
  | cons v us ih =>
      rw [PassAll, ih]
      constructor
      · rintro ⟨hfirst, hrest⟩ l u r hsplit
        cases l with
        | nil =>
            obtain ⟨rfl, rfl⟩ := List.cons.inj hsplit
            simpa using hfirst
        | cons v' l =>
            obtain ⟨hv, hus⟩ := List.cons.inj hsplit
            subst hv
            simpa using hrest l u r hus
      · intro h
        refine ⟨?_, fun l u r hsplit => ?_⟩
        · simpa using h [] v us rfl
        · have hpasses := h (v :: l) u r (by rw [hsplit, List.cons_append])
          simpa using hpasses

/-- The updates keep keys and foreign keys. -/
def KeepsKeys (db : Database C) (g : Row i → Row i) : Prop :=
  ∀ r ∈ db.rows i, (C.shape i).key (g r) = (C.shape i).key r ∧ C.refs i (g r) = C.refs i r

section Updates

variable {db₁ db₂ : Database C} {g : Row i → Row i} {done : List κ} {u : Row i}
  {f : Row i → Row i}

omit [DecidableEq ι] in
/-- A row keeps its key, updated or not. -/
theorem key_overlay (hg : KeepsKeys db g) {r : Row i} (hr : r ∈ db.rows i) :
    (C.shape i).key (overlay C g done r) = (C.shape i).key r := by
  unfold overlay
  split
  · exact (hg r hr).1
  · rfl

omit [DecidableEq ι] in
/-- A row whose turn has not come is what it was. -/
theorem find?_overlay (hrows : db₁.rows i = (db.rows i).map (overlay C g done))
    (hu : u ∈ db.rows i) (hdone : (C.shape i).key u ∉ done) :
    db₁.find? i ((C.shape i).key u) = some u := by
  refine Table.find?_eq_some.mpr ⟨?_, rfl⟩
  show u ∈ db₁.rows i
  rw [hrows]
  exact List.mem_map.mpr ⟨u, hu, if_neg hdone⟩

/-- One update succeeds exactly if it passes. -/
theorem update_iff_passes (hg : KeepsKeys db g)
    (hrows : db₁.rows i = (db.rows i).map (overlay C g done)) (hu : u ∈ db.rows i)
    (hdone : (C.shape i).key u ∉ done) (hf : f u = g u) :
    (∃ db₂, (Dml.update i ((C.shape i).key u) f : Dml κ Row).apply db₁ = .ok db₂) ↔
      Passes db g done u := by
  have hfind := find?_overlay hrows hu hdone
  have hkey : (C.shape i).key (f u) = (C.shape i).key u := by rw [hf, (hg u hu).1]
  have hrefs : C.refs i (f u) = C.refs i u := by rw [hf, (hg u hu).2]
  have htable : (∃ db₂, (Dml.update i ((C.shape i).key u) f : Dml κ Row).apply db₁ = .ok db₂) ↔
      ∃ T, (db₁.table i).update ((C.shape i).key u) f = .ok T := by
    constructor
    · rintro ⟨db₂, h⟩
      cases hT : (db₁.table i).update ((C.shape i).key u) f with
      | error v => simp [apply, bind, Except.bind, hT] at h
      | ok T => exact ⟨T, rfl⟩
    · rintro ⟨T, hT⟩
      exact ⟨db₁.set i T, by simp [apply, bind, Except.bind, hT, hfind, hrefs]⟩
  rw [htable, Table.update_iff_apart hfind hkey, hf, Passes]
  refine and_congr_right fun _ => ?_
  show (∀ x ∈ db₁.rows i, _) ↔ _
  rw [hrows]
  constructor
  · intro h x hx hne
    refine h _ (List.mem_map.mpr ⟨x, hx, rfl⟩) fun heq => hne ?_
    refine Table.eq_of_key hx hu ?_
    rw [← key_overlay hg hx, heq]
  · intro h y hy hne
    obtain ⟨x, hx, rfl⟩ := List.mem_map.mp hy
    refine h x hx ?_
    rintro rfl
    exact hne (if_neg hdone)

/-- The rows after one update. -/
theorem rows_update_overlay (hg : KeepsKeys db g)
    (hrows : db₁.rows i = (db.rows i).map (overlay C g done)) (hu : u ∈ db.rows i)
    (hdone : (C.shape i).key u ∉ done) (hf : f u = g u)
    (h : (Dml.update i ((C.shape i).key u) f : Dml κ Row).apply db₁ = .ok db₂) :
    db₂.rows i = (db.rows i).map (overlay C g (done ++ [(C.shape i).key u])) ∧
      ∀ j, j ≠ i → db₂.table j = db₁.table j := by
  obtain ⟨-, hrows₂, hothers⟩ := update_ok h
  refine ⟨?_, hothers⟩
  rw [hrows₂, hrows, List.map_map]
  refine List.map_congr_left fun x hx => ?_
  simp only [Function.comp, key_overlay hg hx]
  by_cases hkey : (C.shape i).key x = (C.shape i).key u
  · obtain rfl := Table.eq_of_key hx hu hkey
    rw [if_pos rfl, overlay, if_neg hdone, overlay, if_pos (by simp), hf]
  · rw [if_neg hkey]
    simp [overlay, hkey]

/-- **Updates one after another**: they succeed exactly if each of them passes, and
then all rows named are updated. -/
theorem applyAll_updates (hg : KeepsKeys db g) {F : Row i → Row i → Row i}
    (hF : ∀ u ∈ db.rows i, F u u = g u) {us : List (Row i)}
    (hrows : db₁.rows i = (db.rows i).map (overlay C g done)) (hus : ∀ u ∈ us, u ∈ db.rows i)
    (hnodup : (done ++ us.map (C.shape i).key).Nodup) :
    ((∃ db₂, applyAll (us.map fun u => Dml.update i ((C.shape i).key u) (F u) :
        List (Dml κ Row)) db₁ = .ok db₂) ↔ PassAll db g done us) ∧
      ∀ db₂, applyAll (us.map fun u => Dml.update i ((C.shape i).key u) (F u) :
          List (Dml κ Row)) db₁ = .ok db₂ →
        db₂.rows i = (db.rows i).map (overlay C g (done ++ us.map (C.shape i).key)) ∧
          ∀ j, j ≠ i → db₂.table j = db₁.table j := by
  induction us generalizing db₁ done with
  | nil =>
      refine ⟨⟨fun _ => trivial, fun _ => ⟨db₁, rfl⟩⟩, ?_⟩
      rintro db₂ h
      cases h
      rw [List.map_nil, List.append_nil]
      exact ⟨hrows, fun _ _ => rfl⟩
  | cons u us ih =>
      obtain ⟨hu, hus⟩ := List.forall_mem_cons.mp hus
      have hdone : (C.shape i).key u ∉ done := fun hmem =>
        (List.nodup_append.mp hnodup).2.2 _ hmem _ (by simp) rfl
      have hnodup' : (done ++ [(C.shape i).key u] ++ us.map (C.shape i).key).Nodup := by
        simpa using hnodup
      have hpasses := update_iff_passes hg hrows hu hdone (hF u hu)
      simp only [List.map_cons, applyAll_cons_eq_ok, PassAll]
      constructor
      · constructor
        · rintro ⟨db₃, db₂, hfirst, h⟩
          obtain ⟨hrows₂, -⟩ := rows_update_overlay hg hrows hu hdone (hF u hu) hfirst
          exact ⟨hpasses.mp ⟨db₂, hfirst⟩, (ih hrows₂ hus hnodup').1.mp ⟨db₃, h⟩⟩
        · rintro ⟨hfirst, hrest⟩
          obtain ⟨db₂, hfirst⟩ := hpasses.mpr hfirst
          obtain ⟨hrows₂, -⟩ := rows_update_overlay hg hrows hu hdone (hF u hu) hfirst
          obtain ⟨db₃, h⟩ := (ih hrows₂ hus hnodup').1.mpr hrest
          exact ⟨db₃, db₂, hfirst, h⟩
      · rintro db₃ ⟨db₂, hfirst, h⟩
        obtain ⟨hrows₂, hothers₂⟩ := rows_update_overlay hg hrows hu hdone (hF u hu) hfirst
        obtain ⟨hrows₃, hothers₃⟩ := (ih hrows₂ hus hnodup').2 db₃ h
        refine ⟨?_, fun j hj => (hothers₃ j hj).trans (hothers₂ j hj)⟩
        rw [hrows₃, List.append_assoc, List.singleton_append]

end Updates

/-! ## Deletions -/

/-- Rows of table `i` are only referenced with `ON DELETE RESTRICT`. -/
def OnlyRestricts (C : Catalog ι κ Row) (i : ι) : Prop :=
  ∀ j (r : Row j), ∀ ref ∈ C.refs j r, ref.table = i → ref.onDelete = .restrict

section Deletions

variable {k : κ}

omit [DecidableEq ι] [DecidableEq κ] in
/-- If nothing cascades from a table, the deletion of a row takes that row alone. -/
theorem cascades_of_onlyRestricts (hi : OnlyRestricts C i) :
    db.Cascades fun j k' => j = i ∧ k' = k := by
  rintro j r - ref href hcascade ⟨htable, -⟩
  rw [hi j r ref href htable] at hcascade
  cases hcascade

/-- A deletion that takes nothing along. -/
theorem delete_restricted (hi : OnlyRestricts C i)
    (h : (Dml.delete i k : Dml κ Row).apply db = .ok db') :
    db'.rows i = (db.rows i).filter (fun r => (C.shape i).key r ≠ k) ∧
      ∀ j, j ≠ i → db'.table j = db.table j := by
  have hX : db.Cascades fun j k' => j = i ∧ k' = k := cascades_of_onlyRestricts hi
  refine ⟨?_, fun j hj => Table.ext ?_⟩
  · refine delete_rows_eq hX ⟨rfl, rfl⟩ h _ (fun r _ hp hmem => ?_) fun r _ hp hr => ?_
    · exact of_decide_eq_true hp hmem.2
    · exact of_decide_eq_false hp (delete_target h hr)
  · exact delete_rows_of_outside hX ⟨rfl, rfl⟩ h fun r _ hmem => hj hmem.1

/-- Some row names the key of a row of table `i`. -/
def Named (db : Database C) (i : ι) (k : κ) : Prop :=
  ∃ j, ∃ r ∈ db.rows j, ∃ ref ∈ C.refs j r, ref.table = i ∧ ref.key = k

/-- **Many deletions** of rows that are only referenced with `ON DELETE RESTRICT`: the
rows are gone. -/
theorem applyAll_deletes (hi : OnlyRestricts C i) {ks : List κ}
    (h : applyAll (ks.map (Dml.delete i) : List (Dml κ Row)) db = .ok db') :
    db'.rows i = (db.rows i).filter (fun r => (C.shape i).key r ∉ ks) ∧
      ∀ j, j ≠ i → db'.table j = db.table j := by
  induction ks generalizing db with
  | nil =>
      cases h
      exact ⟨(List.filter_eq_self.mpr fun r _ => by simp).symm, fun _ _ => rfl⟩
  | cons k ks ih =>
      obtain ⟨db₁, hfirst, h⟩ := applyAll_cons_eq_ok.mp h
      obtain ⟨hrows₁, hothers₁⟩ := delete_restricted hi hfirst
      obtain ⟨hrows, hothers⟩ := ih h
      refine ⟨?_, fun j hj => (hothers j hj).trans (hothers₁ j hj)⟩
      rw [hrows, hrows₁, List.filter_filter]
      refine List.filter_congr fun r _ => ?_
      simp [not_or, Bool.and_comm]

/-- What is deleted was named by no row of another table. -/
theorem delete_unnamed (hi : OnlyRestricts C i)
    (hself : ∀ r : Row i, ∀ ref ∈ C.refs i r, ref.table ≠ i)
    (h : (Dml.delete i k : Dml κ Row).apply db = .ok db') : ¬Named db i k := by
  rintro ⟨j, r, hr, ref, href, htable, hkey⟩
  have hj : j ≠ i := by
    rintro rfl
    exact hself r ref href htable
  have hX : db.Cascades fun j k' => j = i ∧ k' = k := cascades_of_onlyRestricts hi
  have hkept : r ∈ db'.rows j := delete_kept hX ⟨rfl, rfl⟩ h hr fun hgone => hj hgone.1
  rw [delete_rows h] at hkept
  simp only [apply] at h
  split at h
  · cases h
  · split at h
    · cases h
    · next hrestrict =>
        refine hrestrict (List.any_eq_true.mpr ⟨j, C.mem_tables j, List.any_eq_true.mpr ⟨r, ?_, ?_⟩⟩)
        · rw [Table.rows_eraseAll]
          exact hkept
        · refine List.any_eq_true.mpr ⟨ref, href, decide_eq_true ⟨hi j r ref href htable, ?_⟩⟩
          rw [htable, hkey]
          exact Database.mem_doomed (List.mem_singleton.mpr rfl)

/-- They succeed where the rows exist and nothing names them. -/
theorem applyAll_deletes_of_unnamed (hi : OnlyRestricts C i) {ks : List κ} (hnodup : ks.Nodup)
    (hfind : ∀ k ∈ ks, ∃ r ∈ db.rows i, (C.shape i).key r = k)
    (hnamed : ∀ k ∈ ks, ¬Named db i k) :
    ∃ db', applyAll (ks.map (Dml.delete i) : List (Dml κ Row)) db = .ok db' := by
  induction ks generalizing db with
  | nil => exact ⟨db, rfl⟩
  | cons k ks ih =>
      obtain ⟨hk, hks⟩ := List.nodup_cons.mp hnodup
      obtain ⟨⟨r, hr, hrk⟩, hfind⟩ := List.forall_mem_cons.mp hfind
      obtain ⟨hnamedK, hnamed⟩ := List.forall_mem_cons.mp hnamed
      have hfound : db.find? i k = some r := Table.find?_eq_some.mpr ⟨hr, hrk⟩
      obtain ⟨db₁, hfirst⟩ : ∃ db₁, (Dml.delete i k : Dml κ Row).apply db = .ok db₁ := by
        refine delete_of_cascades (cascades_of_onlyRestricts hi) ⟨rfl, rfl⟩
          (by rw [hfound]; exact Option.some_ne_none r) fun j x hx ref href _ hmem => ?_
        exact hnamedK ⟨j, x, hx, ref, href, hmem⟩
      have hfind₁ : ∀ k' ∈ ks, ∃ x ∈ db₁.rows i, (C.shape i).key x = k' := by
        intro k' hk'
        obtain ⟨x, hx, hxk⟩ := hfind k' hk'
        refine ⟨x, ?_, hxk⟩
        rw [(delete_restricted hi hfirst).1]
        refine List.mem_filter.mpr ⟨hx, decide_eq_true ?_⟩
        rintro rfl
        exact hk (hxk ▸ hk')
      have hnamed₁ : ∀ k' ∈ ks, ¬Named db₁ i k' := by
        rintro k' hk' ⟨j, x, hx, ref, href, hmem⟩
        exact hnamed k' hk' ⟨j, x, (delete_sublist hfirst j).subset hx, ref, href, hmem⟩
      obtain ⟨db', h⟩ := ih hks hfind₁ hnamed₁
      exact ⟨db', applyAll_cons_eq_ok.mpr ⟨db₁, hfirst, h⟩⟩

/-- **Many deletions** of rows that exist succeed exactly if nothing names them. -/
theorem applyAll_deletes_iff (hi : OnlyRestricts C i)
    (hself : ∀ r : Row i, ∀ ref ∈ C.refs i r, ref.table ≠ i) {ks : List κ} (hnodup : ks.Nodup)
    (hfind : ∀ k ∈ ks, ∃ r ∈ db.rows i, (C.shape i).key r = k) :
    (∃ db', applyAll (ks.map (Dml.delete i) : List (Dml κ Row)) db = .ok db') ↔
      ∀ k ∈ ks, ¬Named db i k := by
  refine ⟨?_, applyAll_deletes_of_unnamed hi hnodup hfind⟩
  rintro ⟨db', h⟩
  clear hnodup hfind
  induction ks generalizing db with
  | nil => exact fun k hk => absurd hk List.not_mem_nil
  | cons k ks ih =>
      obtain ⟨db₁, hfirst, h⟩ := applyAll_cons_eq_ok.mp h
      refine List.forall_mem_cons.mpr ⟨delete_unnamed hi hself hfirst, ?_⟩
      rintro k' hk' ⟨j, r, hr, ref, href, htable, hkey⟩
      have hj : j ≠ i := by
        rintro rfl
        exact hself r ref href htable
      refine ih h k' hk' ⟨j, r, ?_, ref, href, htable, hkey⟩
      rw [Database.rows, (delete_restricted hi hfirst).2 j hj]
      exact hr

end Deletions

end Dml

end Relational
