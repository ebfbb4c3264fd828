import Rooti.Standards.Accepts

/-!
# The processes of a standard are replaced exactly

After a request the processes of the standard shall be the entries of the list,
one row for one entry.  The list may name a row twice: then the later entry wins,
and the earlier one has no row.

## Main definitions

* `Corresponds` — the row of an entry
* `ExactSync` — the rows of a standard are those of the entries
* `sync_exact_iff` — when a request replaces the processes exactly

`ExactSync` asks for a pairing of entries and rows, not only for equal sets of values.
Two entries for one row cannot both have theirs, so the list must not repeat an id; and
if it does not, the pairing is read off the final values. Which lists are answered at
all was settled in `Standards.Accepts`, and the exact condition joins the two: a list
without repetitions, or one that is refused. A request that is refused changes nothing,
because the script has no commit of its own (`quiet_syncProcesses`).

The context of a row may be null or the JSON document null, which the attribute reads
alike, so the context of an entry is compared with what the attribute reads
(`HasFields.context`).
-/

namespace Rooti

open Relational Program JobStandardService

variable {V D : Type}

/-- The row has exactly the fields of the entry. -/
structure HasFields (p : ProcessUpsertRequest) (row : JobProcess) : Prop where
  name : row.name = p.name
  sequence : row.sequence = p.sequence
  videoPath : row.videoPath = p.videoPath
  startMessage : row.startMessage = p.startMessage
  endMessage : row.endMessage = p.endMessage
  context : Dict.ofColumn row.context = .ok p.context
  processTime : row.processTime = p.processTimeSeconds

/-- The row is the one that the entry names, or a new one. -/
def HasIdentity (db : Db) (standardId : ℤ) (p : ProcessUpsertRequest) (row : JobProcess) : Prop :=
  match p.id with
  | some id => row.id = id ∧ ∃ old ∈ standardRows db standardId, old.id = id
  | none => ∀ old ∈ db.rows .jobProcess, old.id ≠ row.id

/-- **The row of an entry**, in a database that was `db` before. -/
def Corresponds (db : Db) (standardId : ℤ) (p : ProcessUpsertRequest) (row : JobProcess) : Prop :=
  HasFields p row ∧ HasIdentity db standardId p row

/-- **The processes of the standard are those of the list**, one for each entry, and
the other standards have theirs. -/
structure ExactSync (standardId : ℤ) (incoming : List ProcessUpsertRequest) (db db' : Db) :
    Prop where
  rows : ∃ rows, rows.Perm (standardRows db' standardId) ∧
    List.Forall₂ (Corresponds db standardId) incoming rows
  others : (db'.rows .jobProcess).filter (fun row => row.jobStandardId ≠ standardId) =
    (db.rows .jobProcess).filter fun row => row.jobStandardId ≠ standardId

section Lists

variable {db db' : Db} {standardId last : ℤ} {incoming : List ProcessUpsertRequest}
  {rows : List JobProcess}

/-- A row that an entry was assigned to has its fields. -/
theorem hasFields_assign (p : ProcessUpsertRequest) (row : JobProcess) :
    HasFields p (p.assign row) :=
  ⟨rfl, rfl, rfl, rfl, rfl, Dict.ofColumn_assign .., rfl⟩

/-- So has the new row of an entry. -/
theorem hasFields_newProcess (p : ProcessUpsertRequest) (new : NewRow) :
    HasFields p (newProcess standardId p new) :=
  ⟨rfl, rfl, rfl, rfl, rfl, Dict.ofColumn_assign none p.context, rfl⟩

/-- **Every named row is another one**, where each entry has its row. -/
theorem nodup_of_forall₂ (h : List.Forall₂ (Corresponds db standardId) incoming rows)
    (hrows : (rows.map JobProcess.id).Nodup) : (namedIds incoming).Nodup := by
  refine hrows.sublist ?_
  clear hrows
  induction h with
  | nil => exact List.Sublist.refl _
  | @cons p row rest rows hp _ ih =>
      cases hid : p.id with
      | none =>
          rw [namedIds, List.filterMap_cons_none hid]
          exact List.Sublist.cons _ ih
      | some id =>
          have hrow : row.id = id := by
            have hidentity := hp.2
            rw [HasIdentity, hid] at hidentity
            exact hidentity.1
          rw [namedIds, List.filterMap_cons_some hid, ← hrow]
          exact List.Sublist.cons_cons _ ih

/-- The rows that a list names, with its first entry and without. -/
theorem keptRows_cons_perm {p : ProcessUpsertRequest} {row : JobProcess}
    (hnodup : (rows.map JobProcess.id).Nodup) (hrow : row ∈ rows) (hid : p.id = some row.id)
    (hnot : row.id ∉ namedIds incoming) :
    (keptRows (p :: incoming) rows).Perm (row :: keptRows incoming rows) := by
  have hdistinct : rows.Nodup := List.Nodup.of_map _ hnodup
  have hcons : (row :: keptRows incoming rows).Nodup :=
    List.nodup_cons.mpr ⟨fun h => hnot (mem_keptRows.mp h).2, hdistinct.filter _⟩
  refine (List.perm_ext_iff_of_nodup (hdistinct.filter _) hcons).mpr fun other => ?_
  show other ∈ keptRows (p :: incoming) rows ↔ _
  rw [List.mem_cons, mem_keptRows, mem_keptRows, namedIds, List.filterMap_cons_some hid,
    List.mem_cons]
  constructor
  · rintro ⟨hother, hsame | hnamed⟩
    · exact .inl (List.inj_on_of_nodup_map hnodup hother hrow hsame)
    · exact .inr ⟨hother, hnamed⟩
  · rintro (rfl | ⟨hother, hnamed⟩)
    · exact ⟨hrow, .inl rfl⟩
    · exact ⟨hother, .inr hnamed⟩

/-- **One row for one entry**, if no row is named twice. -/
theorem exists_rows (hids : (namedIds incoming).Nodup) (hnodup : (rows.map JobProcess.id).Nodup)
    (hnames : NamesRows incoming rows) (hrows : ∀ row ∈ rows, row ∈ standardRows db standardId)
    (hfresh : ∀ row ∈ newRows standardId last (newEntries incoming),
      ∀ old ∈ db.rows .jobProcess, old.id ≠ row.id) :
    ∃ rows', rows'.Perm ((keptRows incoming rows).map (finalValues incoming) ++
        newRows standardId last (newEntries incoming)) ∧
      List.Forall₂ (Corresponds db standardId) incoming rows' := by
  induction incoming generalizing last with
  | nil =>
      refine ⟨[], ?_, .nil⟩
      have hkept : keptRows [] rows = [] :=
        List.filter_eq_nil_iff.mpr fun row _ => by simp [namedIds]
      rw [hkept]
      exact .refl _
  | cons p rest ih =>
      cases hid : p.id with
      | none =>
          have hnamed : namedIds (p :: rest) = namedIds rest := List.filterMap_cons_none hid
          have hnew : newEntries (p :: rest) = p :: newEntries rest :=
            List.filter_cons_of_pos (by rw [hid]; rfl)
          have hvalues : finalValues (p :: rest) = finalValues rest := by
            funext row
            rw [finalValues_cons, hid, if_neg (by simp)]
          rw [hnamed] at hids
          rw [hnew, newRows, List.forall_mem_cons] at hfresh
          obtain ⟨rows', hperm, hforall⟩ := ih hids (by rwa [NamesRows, hnamed] at hnames) hfresh.2
          refine ⟨newProcess standardId p ⟨last + 1, ⟨0, none⟩⟩ :: rows', ?_,
            .cons ⟨hasFields_newProcess .., ?_⟩ hforall⟩
          · rw [hnew, newRows, hvalues, keptRows, hnamed]
            exact (hperm.cons _).trans List.perm_middle.symm
          · rw [HasIdentity, hid]
            exact hfresh.1
      | some id =>
          have hnamed : namedIds (p :: rest) = id :: namedIds rest :=
            List.filterMap_cons_some hid
          have hnew : newEntries (p :: rest) = newEntries rest :=
            List.filter_cons_of_neg (by rw [hid]; exact Bool.false_ne_true)
          rw [hnamed] at hids
          have hrestIds := (List.nodup_cons.mp hids).2
          rw [NamesRows, hnamed, List.forall_mem_cons] at hnames
          obtain ⟨⟨row, hrow, rfl⟩, hnames⟩ := hnames
          have hnot : row.id ∉ namedIds rest := (List.nodup_cons.mp hids).1
          rw [hnew] at hfresh ⊢
          obtain ⟨rows', hperm, hforall⟩ := ih hrestIds hnames hfresh
          refine ⟨p.assign row :: rows', ?_, .cons ⟨hasFields_assign p row, ?_⟩ hforall⟩
          -- the named row is taken out of the kept ones; the others get their values
          -- from the rest
          · have hkept := (keptRows_cons_perm hnodup hrow hid hnot).map (finalValues (p :: rest))
            have hfirst : finalValues (p :: rest) row = p.assign row := by
              rw [finalValues_cons, if_pos hid]
              exact finalValues_of_unnamed hnot
            have hrest : (keptRows rest rows).map (finalValues (p :: rest)) =
                (keptRows rest rows).map (finalValues rest) := by
              refine List.map_congr_left fun other hother => ?_
              have hne : (p.id : Option ℤ) ≠ some other.id := by
                rw [hid]
                exact fun heq => hnot (Option.some.inj heq ▸ (mem_keptRows.mp hother).2)
              rw [finalValues_cons, if_neg hne]
            rw [List.map_cons, hfirst, hrest] at hkept
            exact (hperm.cons _).trans (hkept.append_right _).symm
          · rw [HasIdentity, hid]
            exact ⟨rfl, row, hrows row hrow, rfl⟩

/-- **The processes after the flush**: the kept rows and the new ones. -/
theorem standardRows_of_syncStatements (hrows : AreProcesses db standardId rows)
    (h : Dml.applyAll (syncStatements standardId last incoming rows) db = .ok db') :
    standardRows db' standardId =
        (keptRows incoming (standardRows db standardId)).map (finalValues incoming) ++
          newRows standardId last (newEntries incoming) ∧
      (db'.rows .jobProcess).filter (fun row => row.jobStandardId ≠ standardId) =
        (db.rows .jobProcess).filter fun row => row.jobStandardId ≠ standardId := by
  have hstandard : ∀ row : JobProcess, (synced standardId incoming row).jobStandardId =
      row.jobStandardId := by
    intro row
    unfold synced
    split <;> simp
  have hnew : ∀ row ∈ newRows standardId last (newEntries incoming),
      row.jobStandardId = standardId := fun row hrow => jobStandardId_newRows hrow
  constructor
  · rw [standardRows, (rows_of_syncStatements hrows h).1, List.filter_append, List.filter_map]
    refine congrArg₂ (· ++ ·) ?_ (List.filter_eq_self.mpr fun row hrow => ?_)
    · rw [List.filter_filter, keptRows, standardRows, List.filter_filter]
      have hfilter : (db.rows .jobProcess).filter (fun row =>
          ((fun row => decide (row.jobStandardId = standardId)) ∘ synced standardId incoming) row &&
            stays standardId incoming row) =
          (db.rows .jobProcess).filter fun row => decide (row.id ∈ namedIds incoming) &&
            decide (row.jobStandardId = standardId) := by
        refine List.filter_congr fun row _ => ?_
        by_cases hown : row.jobStandardId = standardId <;> simp [hstandard, stays, hown]
      rw [hfilter]
      refine List.map_congr_left fun row hrow => if_pos ?_
      have hown := (List.mem_filter.mp hrow).2
      simp only [Bool.and_eq_true, decide_eq_true_eq] at hown
      exact hown.2
    · exact decide_eq_true (hnew row hrow)
  · rw [(rows_of_syncStatements hrows h).1, List.filter_append, List.filter_map]
    have hnone : (newRows standardId last (newEntries incoming)).filter
        (fun row => decide (row.jobStandardId ≠ standardId)) = [] :=
      List.filter_eq_nil_iff.mpr fun row hrow => by simp [hnew row hrow]
    rw [hnone, List.append_nil, List.filter_filter]
    have hfilter : (db.rows .jobProcess).filter (fun row =>
        ((fun row => decide (row.jobStandardId ≠ standardId)) ∘ synced standardId incoming) row &&
          stays standardId incoming row) =
        (db.rows .jobProcess).filter fun row => decide (row.jobStandardId ≠ standardId) := by
      refine List.filter_congr fun row _ => ?_
      by_cases hown : row.jobStandardId = standardId <;> simp [hstandard, stays, hown]
    rw [hfilter]
    refine (List.map_congr_left fun row hrow => if_neg ?_).trans (List.map_id _)
    exact of_decide_eq_true (List.mem_filter.mp hrow).2

/-- Rows of the table are told apart by their ids. -/
theorem nodup_standardRows (db : Db) (standardId : ℤ) :
    ((standardRows db standardId).map JobProcess.id).Nodup :=
  (areProcesses_standardRows db standardId).nodup

end Lists

section Request

variable (env : Env) (standardId : ℤ) (incoming : List ProcessUpsertRequest) (w : World V D)

/-- **The request**: it fails and changes nothing, or it replaces the processes exactly. -/
def SyncsExactly : Prop :=
  match (serve env (syncProcesses standardId incoming) w).1 with
  | .error _ => (serve env (syncProcesses standardId incoming) w).2.db = w.db
  | .ok _ => ExactSync standardId incoming w.db (serve env (syncProcesses standardId incoming) w).2.db

/-- Marking rows as deleted commits nothing. -/
theorem quiet_dropAll (rows : List JobProcess) : Quiet (dropAll rows : Async V D Unit) := by
  induction rows with
  | nil => exact .ret
  | cons row rest ih => exact .bind .delete fun _ => ih

/-- Nor does assigning to them. -/
theorem quiet_saveAll (rows : List (JobProcess × JobProcess)) :
    Quiet (saveAll rows : Async V D Unit) := by
  induction rows with
  | nil => exact .ret
  | cons row rest ih => exact .bind .modify fun _ => ih

/-- Nor adding new ones. -/
theorem quiet_addProcesses (entries : List ProcessUpsertRequest) :
    Quiet (addProcesses standardId entries : Async V D (List JobProcess)) := by
  induction entries with
  | nil => exact .ret
  | cons p rest ih => exact .bind .add fun _ => .bind ih fun _ => .ret

/-- The whole script leaves the commit to the end of the request. -/
theorem quiet_syncProcesses :
    Quiet (syncProcesses standardId incoming : Async V D JobStandardResponse) := by
  refine .bind (.bind (.bind .dbGet fun _ => .orRaise) fun _ => .bind .select fun _ => .ret)
    fun _ => .bind (Prog.Only.ofExcept) fun _ => .bind (quiet_dropAll _) fun _ =>
      .bind (quiet_saveAll _) fun _ => .bind (quiet_addProcesses _ _) fun _ =>
        .bind .flush fun _ => .bind (.bind .dbGet fun _ => .ret) fun _ => Prog.Only.ofExcept

/-- **An answered request** replaces the processes exactly if no row is named twice. -/
theorem exactSync_iff {resp : JobStandardResponse}
    (h : (serve env (syncProcesses standardId incoming) w).1 = .ok resp) :
    ExactSync standardId incoming w.db (serve env (syncProcesses standardId incoming) w).2.db ↔
      (namedIds incoming).Nodup := by
  obtain ⟨found, -, hnames, -, -, htaken⟩ := serve_syncProcesses_ok h
  have hrows := processesOf_perm standardId (env.rowOrder (w.ticks + 1)) w.db
  obtain ⟨hafter, hothers⟩ := standardRows_of_syncStatements hrows htaken
  constructor
  · rintro ⟨⟨rows, hperm, hforall⟩, -⟩
    exact nodup_of_forall₂ hforall
      (((hperm.map _).nodup_iff).mpr (nodup_standardRows _ standardId))
  · intro hids
    refine ⟨?_, hothers⟩
    rw [hafter]
    have hinserted : ∀ row ∈ newRows standardId (w.seq .jobProcess) (newEntries incoming),
        ∀ old ∈ w.db.rows .jobProcess, old.id ≠ row.id := by
      obtain ⟨db₁, hinserts, -⟩ := Dml.applyAll_append_eq_ok.mp htaken
      exact fun row hrow old hold => newRows_fresh (applyAll_addRows.mp hinserts).1 hold hrow
    refine exists_rows hids (nodup_standardRows _ _) (fun id hid => ?_) (fun _ => id) hinserted
    obtain ⟨row, hrow, hid⟩ := hnames id hid
    exact ⟨row, (List.Perm.mem_iff hrows).mp hrow, hid⟩

/-- **When a request replaces the processes exactly**: if no row is named twice, or it
is refused anyway. A list that is refused changes nothing, and that too is as it should
be. -/
theorem sync_exact_iff :
    SyncsExactly env standardId incoming w ↔
      (namedIds incoming).Nodup ∨
        ¬∃ found, w.db.find? .jobStandard standardId = some found ∧
          Acceptable env w found incoming (standardRows w.db standardId) := by
  rw [← serve_syncProcesses_iff, SyncsExactly]
  cases h : (serve env (syncProcesses standardId incoming) w).1 with
  | error e =>
      have hcommit : (syncProcesses standardId incoming : Async V D JobStandardResponse).Only
          fun c => !c.isCommit :=
        (quiet_syncProcesses standardId incoming).mono fun c hc => by
          cases c <;> first | rfl | cases hc
      refine iff_of_true (db_of_serve_error hcommit h) (.inr ?_)
      rintro ⟨resp, hresp⟩
      cases hresp
  | ok resp =>
      refine (exactSync_iff env standardId incoming w h).trans ?_
      exact (or_iff_left fun hnone => hnone ⟨resp, rfl⟩).symm

end Request

/-- Two entries for the one step of the sample. -/
def doubled : List ProcessUpsertRequest :=
  [{ id := some 1, name := "Sorting", sequence := 1, processTimeSeconds := 0 },
    { id := some 1, name := "Checking", sequence := 2, processTimeSeconds := 0 }]

/-- **The first entry is lost**: a list that names a row twice is accepted. -/
theorem doubled_not_exact :
    (∃ resp, (serve still (syncProcesses 1 doubled)
        (World.fresh Db.sample () : World Unit Unit)).1 = .ok resp) ∧
      ¬SyncsExactly still 1 doubled (World.fresh Db.sample () : World Unit Unit) := by
  have hanswered : ∃ resp, (serve still (syncProcesses 1 doubled)
      (World.fresh Db.sample () : World Unit Unit)).1 = .ok resp := by
    have hcollision : NoCollision doubled (standardRows Db.sample 1) :=
      ⟨by decide, by decide, by decide, by decide +kernel, by decide +kernel, by decide +kernel⟩
    have hunreferenced : Unreferenced doubled (standardRows Db.sample 1) Db.sample := by
      unfold Unreferenced
      decide +kernel
    refine serve_syncProcesses_iff.mpr
      ⟨⟨1, 1, "Packing", true, none, 8, 1, none, none, none, true⟩, by decide +kernel,
        by decide +kernel, ⟨fun h => (by cases h), ⟨none, rfl⟩, by decide +kernel,
          by decide +kernel, by decide +kernel⟩, hcollision, hunreferenced⟩
  refine ⟨hanswered, fun hexact => ?_⟩
  obtain ⟨resp, h⟩ := hanswered
  rw [SyncsExactly, h] at hexact
  have hids := (exactSync_iff still 1 doubled _ h).mp hexact
  exact absurd hids (by decide)

end Rooti
