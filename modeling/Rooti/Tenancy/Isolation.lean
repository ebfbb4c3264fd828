import Rooti.Core.Holding

/-!
# Companies apart from each other

Leaves, kiosks, e-mail schedules and bulk-mail jobs name their company.  A request of one
company is isolated from the others if the rows that are not of the company are the same
after it (`Isolated`), and the rows it shows are of the company (`ShownOf`).

## Main definitions

* `tenant` — the company a row names
* `Isolated` — what is not of the company is the same
* `Owns` — a key that is no other company's
* `Confined` — requests that keep to a company
-/

namespace Rooti

open Relational Program

variable {V D α β : Type}

/-- **The company a row names.** -/
def tenant : (t : Entity) → Row t → Option ℤ
  | .leave, l => some l.companyId
  | .companyKiosk, k => some k.companyId
  | .journalEmailSchedule, s => some s.companyId
  | .bulkEmailJob, j => some j.companyId
  | _, _ => none

/-- The rows of a table that are not of the company: those of the others, and all rows of a
table that names none. -/
def outside (c : ℤ) (db : Db) (t : Entity) : List (Row t) :=
  (db.rows t).filter fun r => tenant t r ≠ some c

/-- **What is not of the company is the same**: unchanged, not removed, and nothing added. -/
def Isolated (c : ℤ) (db db' : Db) : Prop := ∀ t, outside c db' t = outside c db t

/-- The rows with the key are the company's. -/
def Owns (c : ℤ) (db : Db) (t : Entity) (k : ℤ) : Prop :=
  ∀ r ∈ db.rows t, keyOf t r = k → tenant t r = some c

/-- **A row is shown that is the company's**: its response has the company, and so has the
row with its id. -/
def ShownOf (c : ℤ) (db : Db) (t : Entity) (id companyId : ℤ) : Prop :=
  companyId = c ∧ ∃ r ∈ db.rows t, keyOf t r = id ∧ tenant t r = some c

/-! ## Statements -/

section Statements

variable {c : ℤ} {db db' db'' : Db} {t : Entity} {k : ℤ} {r : Row t} {f : Row t → Row t}

theorem mem_outside : r ∈ outside c db t ↔ r ∈ db.rows t ∧ tenant t r ≠ some c := by
  rw [outside, List.mem_filter, decide_eq_true_iff]

theorem Isolated.refl (c : ℤ) (db : Db) : Isolated c db db := fun _ => rfl

theorem Isolated.trans (h : Isolated c db db') (h' : Isolated c db' db'') :
    Isolated c db db'' := fun t => (h' t).trans (h t)

theorem Isolated.symm (h : Isolated c db db') : Isolated c db' db := fun t => (h t).symm

/-- Only one table has changed. -/
theorem Isolated.of_table (hothers : ∀ j, j ≠ t → db'.table j = db.table j)
    (hrows : outside c db' t = outside c db t) : Isolated c db db' := by
  intro j
  by_cases hj : j = t
  · subst hj
    exact hrows
  · rw [outside, outside, Database.rows, Database.rows, hothers j hj]

/-- A loaded row of the company owns its key. -/
theorem owns_of_mem (hr : r ∈ db.rows t) (htenant : tenant t r = some c) :
    Owns c db t (keyOf t r) := by
  intro x hx hkey
  rw [Table.eq_of_key hx hr hkey]
  exact htenant

theorem owns_of_find? (h : db.find? t k = some r) (htenant : tenant t r = some c) :
    Owns c db t k := by
  rw [← show keyOf t r = k from Table.find?_key h]
  exact owns_of_mem (Table.find?_mem h) htenant

/-- A key that is the company's in one of two states is no other company's in the other. -/
theorem Owns.of_isolated (h : Owns c db' t k) (hisolated : Isolated c db db') :
    Owns c db t k := by
  intro r hr hkey
  by_contra hforeign
  have hout : r ∈ outside c db' t := by
    rw [hisolated t]
    exact mem_outside.mpr ⟨hr, hforeign⟩
  exact hforeign (h r (mem_outside.mp hout).1 hkey)

theorem isolated_insert (h : (Dml.insert t r : Statement).apply db = .ok db')
    (htenant : tenant t r = some c) : Isolated c db db' := by
  obtain ⟨hrows, -, hothers⟩ := Dml.insert_ok h
  refine .of_table hothers ?_
  rw [outside, outside, hrows, List.filter_append, List.filter_singleton]
  simp [htenant]

/-- The rows with an own key are changed, and stay the company's. -/
theorem isolated_of_map (howns : Owns c db t k)
    (hf : ∀ r, tenant t r = some c → tenant t (f r) = some c)
    (hrows : db'.rows t = (db.rows t).map fun r => if keyOf t r = k then f r else r)
    (hothers : ∀ j, j ≠ t → db'.table j = db.table j) : Isolated c db db' := by
  refine .of_table hothers ?_
  rw [outside, outside, hrows, List.filter_map]
  have hsame : ∀ r ∈ db.rows t,
      ((fun r => decide (tenant t r ≠ some c)) ∘ fun r => if keyOf t r = k then f r else r) r =
        decide (tenant t r ≠ some c) := by
    intro r hr
    by_cases hk : keyOf t r = k
    · have hown := howns r hr hk
      simp [hk, hown, hf r hown]
    · simp [hk]
  rw [List.filter_congr hsame]
  refine (List.map_congr_left fun r hr => ?_).trans (List.map_id _)
  obtain ⟨hmem, hforeign⟩ := List.mem_filter.mp hr
  have hk : keyOf t r ≠ k := fun hk => of_decide_eq_true hforeign (howns r hmem hk)
  rw [if_neg hk, id]

theorem isolated_update (h : (Dml.update t k f : Statement).apply db = .ok db')
    (howns : Owns c db t k) (hf : ∀ r, tenant t r = some c → tenant t (f r) = some c) :
    Isolated c db db' := by
  obtain ⟨-, hrows, hothers⟩ := Dml.update_ok h
  exact isolated_of_map howns hf hrows hothers

theorem isolated_changed (h : Changed t k f db db') (howns : Owns c db t k)
    (hf : ∀ r, tenant t r = some c → tenant t (f r) = some c) : Isolated c db db' :=
  isolated_of_map howns hf h.rows h.others

theorem isolated_delete (h : (Dml.delete t k : Statement).apply db = .ok db')
    (hfree : Dml.Unreferenced schema t) (howns : Owns c db t k) : Isolated c db db' := by
  obtain ⟨hrows, hothers⟩ := Dml.delete_ok hfree h
  refine .of_table hothers ?_
  rw [outside, outside, hrows, List.filter_filter]
  refine List.filter_congr fun r hr => ?_
  by_cases hk : keyOf t r = k
  · simp [howns r hr hk]
  · have hk' : (schema.shape t).key r ≠ k := hk
    simp [hk']

end Statements

variable {env : Env} {c : ℤ} {w : World V D} {d : Db} {ps : List Statement}
  {shown shown' : α → Db → Prop} {p : Async V D α}

/-! ## Guards -/

theorem holds_resolveCompanyFilter {requested : Option ℤ} :
    (server env).Ensures (Holds w d ps) (resolveCompanyFilter (some c) requested)
      (fun a s w' => a = some c ∧ Holds w d ps s w') (Uncommitted w) :=
  holds_raiseIf.bind fun _ => .of_and fun _ => .ret fun _ _ h => ⟨rfl, h⟩

/-! ## Requests -/

/-- **The request keeps to the company**: the others are apart from it, and what it shows is
the company's. -/
def Confined (env : Env) (c : ℤ) (shown : α → Db → Prop) (p : Async V D α) : Prop :=
  ∀ w, Isolated c w.db (serve env p w).2.db ∧
    ∀ a, (serve env p w).1 = .ok a → shown a (serve env p w).2.db

/-- A refused request changes nothing. -/
theorem confined_of_kept
    (hp : ∀ w, (server env).Ensures (Holds w w.db []) p
      (fun a s w' => ∃ d ps, (∀ db', Kept env w d ps db' → Isolated c w.db db' ∧ shown a db') ∧
        Holds w d ps s w') (Uncommitted w)) : Confined env c shown p := by
  intro w
  obtain ⟨⟨e, he⟩, hsame⟩ | ⟨a, d, ps, hok, hφ, hkept⟩ := serve_holds (hp w)
  · rw [hsame]
    exact ⟨.refl c w.db, fun a ha => by cases he.symm.trans ha⟩
  · obtain ⟨hisolated, hshown⟩ := hφ _ hkept
    refine ⟨hisolated, fun a' ha' => ?_⟩
    cases hok.symm.trans ha'
    exact hshown

/-- A request that has sent everything when its script returns. -/
theorem confined_of_settled
    (hp : ∀ w, (server env).Ensures (Holds w w.db []) p
      (fun a s w' => ∃ d, (Isolated c w.db d ∧ shown a d) ∧ Holds w d [] s w') (Uncommitted w)) :
    Confined env c shown p := by
  intro w
  obtain ⟨⟨e, he⟩, hsame⟩ | ⟨a, hok, hisolated, hshown⟩ := serve_sent (hp w)
  · rw [hsame]
    exact ⟨.refl c w.db, fun a ha => by cases he.symm.trans ha⟩
  · refine ⟨hisolated, fun a' ha' => ?_⟩
    cases hok.symm.trans ha'
    exact hshown

/-- A request that only reads. -/
theorem confined_of_reads
    (hp : ∀ w, (server env).Ensures (Holds w w.db []) p
      (fun a s w' => shown a w.db ∧ Holds w w.db [] s w') (Uncommitted w)) :
    Confined env c shown p :=
  confined_of_settled fun w => (hp w).weaken (fun _ _ h => h)
    (fun _ _ _ h => ⟨w.db, ⟨.refl c w.db, h.1⟩, h.2⟩) fun _ _ h => h

/-- **A request that deletes an object of the company**, if it exists. -/
theorem confined_delete {t : Entity} {id : ℤ} {companyOf : Row t → ℤ} {shown : Unit → Db → Prop}
    {k : Option (Row t) → Async V D Unit} (hfree : Dml.Unreferenced schema t)
    (htenant : ∀ r, tenant t r = some (companyOf r)) (hshown : ∀ db, shown () db)
    (hnone : k none = .ret ())
    (hsome : ∀ row, k (some row) =
      (assertCompany (some c) (some (companyOf row))).bind fun _ => delete t row) :
    Confined env c shown ((dbGet t id).bind k) := by
  refine confined_of_kept fun w => holds_dbGet.bind fun found => .of_and ?_
  rintro rfl
  cases hfound : w.db.find? t id with
  | none =>
      rw [hnone]
      refine .ret fun s w' hholds => ⟨w.db, [], fun db' hkept => ?_, hholds⟩
      rw [hkept.eq]
      exact ⟨.refl c w.db, hshown _⟩
  | some row =>
      rw [hsome]
      refine holds_assertCompany.bind fun _ => .of_and fun hscope => ?_
      have hown : companyOf row = c := by simpa using hscope
      refine .lift fun s w' hholds => ?_
      rw [server_exec, exec]
      refine ⟨w.db, [.delete t (keyOf t row)], fun db' hkept => ⟨?_, hshown db'⟩, hholds.failed,
        congrArg (· ++ [.delete t (keyOf t row)]) hholds.pending, hholds.written, hholds.db,
        Nat.le_succ_of_le hholds.ticks⟩
      obtain ⟨-, -, rfl⟩ | ⟨-, happly⟩ := hkept
      · exact .refl c w.db
      · have hsent : (Dml.delete t (keyOf t row) : Statement).apply w.db = .ok db' :=
          (Dml.applyAll_singleton _ _).symm.trans happly
        refine isolated_delete hsent hfree (owns_of_mem (Table.find?_mem hfound) ?_)
        rw [htenant, hown]

/-- The answer of a request is passed on. -/
theorem serve_map {f : α → β} :
    serve env (p.bind fun a => .ret (f a)) w = ((serve env p w).1.map f, (serve env p w).2) := by
  rw [serve_eq, serve_eq, Machine.run_bind]
  rcases (server env).run p {} w with ⟨e | a, s, w'⟩
  · rfl
  · by_cases hro : env.settings.appReadOnly = true
    · simp only [Machine.run_ret, hro, if_true]
      rfl
    · simp only [Machine.run_ret, hro]
      rcases execCommit env s w' with ⟨e | _, s', w''⟩ <;> rfl

theorem Confined.map {f : α → β} {shown' : β → Db → Prop} (h : Confined env c shown p)
    (hf : ∀ a db, shown a db → shown' (f a) db) :
    Confined env c shown' (p.bind fun a => .ret (f a)) := by
  intro w
  obtain ⟨hisolated, hshown⟩ := h w
  rw [serve_map]
  refine ⟨hisolated, fun b hb => ?_⟩
  cases hok : (serve env p w).1 with
  | error e =>
      rw [hok] at hb
      cases hb
  | ok a =>
      rw [hok] at hb
      cases hb
      exact hf a _ (hshown a hok)

end Rooti
