import Rooti.Core.Reading
import Rooti.Core.Visible
import Rooti.Lib.Batch
import Rooti.Services.Job

/-!
# Replacing the processes of a standard

`syncProcesses` works in memory first: every row that an entry names gets the
values of the last entry that names it (`finalValues`), the entries without an id
become new rows.  What is left for the flush are the new rows, the rows whose
values changed and the rows that are dropped (`syncPending`), in this order and
the last two by id.

## Main definitions

* `finalValues` — a row after all entries
* `syncPending`, `syncStatements` — what is sent
* `run_syncProcesses` — the request up to its flush
* `rows_of_syncStatements` — the rows that are left

## Entries may repeat

Nothing keeps two entries from naming the same process, and the code assigns one after
the other to the object in memory. Hence `finalValues`, which folds the entries over a
row: the last one wins. An entry with an id that no process of the standard has ends the
request (`NamesRows`), and since this happens before anything is flushed, it ends it
without a trace.

## The order of the statements

The unit of work does not send the changes in the order in which the code makes them. It
sends the INSERTs of a table first, then its UPDATEs and its DELETEs by primary key
(`flushOrder_syncPending`; the assumption is that of `Session.flushOrder`). The UNIQUE
column `(job_standard_id, sequence)` is checked statement by statement, so this order
decides whether two processes can change places. `Standards.Accepts` works out when it
does.
-/

namespace Rooti

open Relational Program JobStandardService

variable {V D : Type}

/-- The row after all entries: the last one that names it decides. -/
def finalValues (incoming : List ProcessUpsertRequest) (row : JobProcess) : JobProcess :=
  incoming.foldl (fun r p => if p.id = some r.id then p.assign r else r) row

/-- The entries without an id. -/
def newEntries (incoming : List ProcessUpsertRequest) : List ProcessUpsertRequest :=
  incoming.filter fun p => p.id.isNone

/-- The new rows, numbered from the last id drawn. -/
def newRows (standardId : ℤ) : ℤ → List ProcessUpsertRequest → List JobProcess
  | _, [] => []
  | last, p :: rest =>
      newProcess standardId p ⟨last + 1, ⟨0, none⟩⟩ :: newRows standardId (last + 1) rest

section Memory

variable {incoming : List ProcessUpsertRequest} {row : JobProcess} {rows : List JobProcess}

/-- The first entry is applied first; later ones may overwrite it. -/
theorem finalValues_cons (p : ProcessUpsertRequest) :
    finalValues (p :: incoming) row =
      finalValues incoming (if p.id = some row.id then p.assign row else row) := rfl

/-- Entries assign everything but the id. -/
@[simp] theorem id_finalValues : (finalValues incoming row).id = row.id := by
  induction incoming generalizing row with
  | nil => rfl
  | cons p rest ih =>
      rw [finalValues_cons, ih]
      split <;> rfl

/-- Nor do they move a process to another standard. -/
@[simp] theorem jobStandardId_finalValues :
    (finalValues incoming row).jobStandardId = row.jobStandardId := by
  induction incoming generalizing row with
  | nil => rfl
  | cons p rest ih =>
      rw [finalValues_cons, ih]
      split <;> rfl

/-- Saving the final values leaves the row with them. -/
theorem overwrite_finalValues :
    (finalValues incoming row).overwrite row = finalValues incoming row := by
  have hid : row.id = (finalValues incoming row).id := id_finalValues.symm
  have hstandard : row.jobStandardId = (finalValues incoming row).jobStandardId :=
    jobStandardId_finalValues.symm
  rw [JobProcess.overwrite, hid, hstandard]

/-- The entries name rows that are there. -/
def NamesRows (incoming : List ProcessUpsertRequest) (rows : List JobProcess) : Prop :=
  ∀ id ∈ namedIds incoming, ∃ row ∈ rows, row.id = id

instance : Decidable (NamesRows incoming rows) :=
  inferInstanceAs (Decidable (∀ id ∈ namedIds incoming, ∃ row ∈ rows, row.id = id))

/-- The loop over the entries, for any rows and new entries so far. By induction on the
entries: an assignment changes no id, so what the later entries name is found or missed
as before. -/
theorem foldlM_syncEntry (incoming : List ProcessUpsertRequest) (rows : List JobProcess)
    (new : List ProcessUpsertRequest) :
    incoming.foldlM syncEntry (rows, new) =
      if NamesRows incoming rows then
        .ok (rows.map (finalValues incoming), new ++ newEntries incoming)
      else .error (businessException .jobProcessNotFound) := by
  induction incoming generalizing rows new with
  | nil =>
      have hnone : NamesRows [] rows := fun id hid => absurd hid List.not_mem_nil
      rw [if_pos hnone, newEntries, List.filter_nil, List.append_nil]
      exact congrArg (fun l => Except.ok (l, new)) (List.map_id rows).symm
  | cons p rest ih =>
      rw [List.foldlM_cons]
      cases hid : p.id with
      | none =>
          have hnames : NamesRows (p :: rest) rows ↔ NamesRows rest rows := by
            simp [NamesRows, namedIds, hid]
          have hvalues : rows.map (finalValues (p :: rest)) = rows.map (finalValues rest) := by
            refine List.map_congr_left fun row _ => ?_
            rw [finalValues_cons, hid, if_neg (by simp)]
          simp only [syncEntry, hid, hnames, hvalues]
          refine (ih rows (new ++ [p])).trans ?_
          simp [newEntries, hid]
      | some id =>
          simp only [syncEntry, hid]
          by_cases hfound : ∃ row ∈ rows, row.id = id
          · rw [if_pos (by simpa using hfound)]
            have hnames : NamesRows (p :: rest) rows ↔ NamesRows rest
                (rows.map fun row => if row.id = id then p.assign row else row) := by
              -- the assignment leaves the ids as they are, so `NamesRows` is not
              -- affected by it
              have hids : ∀ id', (∃ row ∈ rows.map fun row =>
                  if row.id = id then p.assign row else row, row.id = id') ↔
                  ∃ row ∈ rows, row.id = id' := by
                intro id'
                simp only [List.mem_map]
                constructor
                · rintro ⟨-, ⟨row, hrow, rfl⟩, hid'⟩
                  refine ⟨row, hrow, ?_⟩
                  split at hid' <;> exact hid'
                · rintro ⟨row, hrow, hid'⟩
                  refine ⟨_, ⟨row, hrow, rfl⟩, ?_⟩
                  split <;> exact hid'
              simp only [NamesRows, hids]
              simp only [namedIds, List.filterMap_cons, hid, List.forall_mem_cons]
              exact and_iff_right hfound
            have hvalues : rows.map (finalValues (p :: rest)) = (rows.map fun row =>
                if row.id = id then p.assign row else row).map (finalValues rest) := by
              rw [List.map_map]
              refine List.map_congr_left fun row _ => ?_
              simp only [Function.comp, finalValues_cons, hid, Option.some.injEq, eq_comm]
            have hnew : newEntries (p :: rest) = newEntries rest := by simp [newEntries, hid]
            simp only [hnames, hvalues, hnew]
            exact ih _ new
          · rw [if_neg (by simpa using hfound)]
            have hnames : ¬NamesRows (p :: rest) rows := fun h =>
              hfound (h id (by simp [namedIds, hid]))
            rw [if_neg hnames]
            rfl

/-- The rows that an entry names. -/
def keptRows (incoming : List ProcessUpsertRequest) (rows : List JobProcess) : List JobProcess :=
  rows.filter fun row => row.id ∈ namedIds incoming

/-- The rows that no entry names. -/
def droppedRows (incoming : List ProcessUpsertRequest) (rows : List JobProcess) :
    List JobProcess :=
  rows.filter fun row => row.id ∉ namedIds incoming

/-- **The processes in memory**, once all entries are through. -/
theorem syncEntries_eq :
    syncEntries incoming rows =
      if NamesRows incoming rows then
        .ok ((keptRows incoming rows).map (finalValues incoming), newEntries incoming)
      else .error (businessException .jobProcessNotFound) := by
  have hnames : NamesRows incoming (keptRows incoming rows) ↔ NamesRows incoming rows := by
    refine forall₂_congr fun id hid => exists_congr fun row => ?_
    simp only [keptRows, List.mem_filter, decide_eq_true_eq]
    constructor
    · rintro ⟨⟨hrow, -⟩, hrowId⟩
      exact ⟨hrow, hrowId⟩
    · rintro ⟨hrow, rfl⟩
      exact ⟨⟨hrow, hid⟩, rfl⟩
  have hfold := foldlM_syncEntry incoming (keptRows incoming rows) []
  simp only [hnames, List.nil_append] at hfold
  exact hfold

end Memory

/-! ## What is left for the flush -/

/-- The insertion of a row. -/
def addRow (row : JobProcess) : Statement := .insert .jobProcess row

/-- The deletion of a row. -/
def dropRow (row : JobProcess) : Statement := .delete .jobProcess row.id

/-- The update of a row to its final values. -/
def saveRow (incoming : List ProcessUpsertRequest) (row : JobProcess) : Statement :=
  .update .jobProcess row.id (finalValues incoming row).overwrite

/-- The kept rows whose values change. -/
def changedRows (incoming : List ProcessUpsertRequest) (rows : List JobProcess) :
    List JobProcess :=
  (keptRows incoming rows).filter fun row => finalValues incoming row ≠ row

/-- The changes recorded before the flush. -/
def syncPending (standardId last : ℤ) (incoming : List ProcessUpsertRequest)
    (rows : List JobProcess) : List Statement :=
  (droppedRows incoming rows).map dropRow ++
    ((changedRows incoming rows).map (saveRow incoming) ++
      (newRows standardId last (newEntries incoming)).map addRow)

/-- Rows by id. -/
def byId (rows : List JobProcess) : List JobProcess :=
  rows.insertionSort fun a b => a.id ≤ b.id

/-- **What is sent**: the new rows, then the changed ones and the dropped ones by id. -/
def syncStatements (standardId last : ℤ) (incoming : List ProcessUpsertRequest)
    (rows : List JobProcess) : List Statement :=
  (newRows standardId last (newEntries incoming)).map addRow ++
    ((byId (changedRows incoming rows)).map (saveRow incoming) ++
      (byId (droppedRows incoming rows)).map dropRow)

/-- Sorting statements by key is sorting their rows by id. -/
theorem byKey_map {f : JobProcess → Statement} (hf : ∀ row, Session.rowKey (f row) = row.id)
    (rows : List JobProcess) : Session.byKey (rows.map f) = (byId rows).map f :=
  (List.map_insertionSort (fun a b : JobProcess => a.id ≤ b.id)
    (fun d e => Session.rowKey d ≤ Session.rowKey e) f rows
    (fun a _ b _ => by rw [hf, hf])).symm

/-- **The flush order of a sync**, whatever order the changes were made in. -/
theorem flushOrder_syncPending (standardId last : ℤ) (incoming : List ProcessUpsertRequest)
    (rows : List JobProcess) :
    Session.flushOrder (syncPending standardId last incoming rows) =
      syncStatements standardId last incoming rows := by
  have hfilter : ∀ (p : Statement → Bool) (f : JobProcess → Statement) (l : List JobProcess),
      (l.map f).filter p = (l.filter fun row => p (f row)).map f := fun p f l => List.filter_map
  simp only [Session.flushOrder, syncPending, syncStatements, List.filter_append, hfilter]
  simp only [dropRow, List.filter_false, List.map_nil, saveRow, addRow, List.filter_true,
    List.nil_append, List.append_nil, List.append_cancel_left_eq]
  rw [byKey_map fun _ => rfl, byKey_map fun _ => rfl]

section Run

variable {env : Env} {s : Session} {w : World V D}

/-- The rows no entry names are marked as deleted, one after the other. -/
theorem run_dropAll (rows : List JobProcess) :
    (server env).run (dropAll rows) s w =
      (.ok (), { s with pending := s.pending ++ rows.map dropRow }, w.after rows.length) := by
  induction rows generalizing s w with
  | nil => simp [dropAll]
  | cons row rest ih =>
      rw [dropAll, run_delete_bind, ih]
      simp [World.after, World.tick, Nat.add_comm, Nat.add_left_comm]
      rfl

/-- Only the rows whose values differ are dirty, and only these get an UPDATE. -/
theorem run_saveAll (incoming : List ProcessUpsertRequest) (rows : List JobProcess) :
    (server env).run (saveAll (rows.zip (rows.map (finalValues incoming)))) s w =
      (.ok (), { s with pending := s.pending ++
        (rows.filter fun row => finalValues incoming row ≠ row).map (saveRow incoming) },
        w.after rows.length) := by
  induction rows generalizing s w with
  | nil => simp [saveAll]
  | cons row rest ih =>
      rw [List.map_cons, List.zip_cons_cons, saveAll, run_modify_bind, overwrite_finalValues]
      by_cases hchanged : finalValues incoming row = row
      · rw [if_pos hchanged, ih, List.filter_cons_of_neg (by simpa using hchanged)]
        simp [World.after, World.tick, Nat.add_comm, Nat.add_left_comm]
      · rw [if_neg hchanged, ih, List.filter_cons_of_pos (by simpa using hchanged)]
        simp [World.after, World.tick, Nat.add_comm, Nat.add_left_comm]
        rfl

/-- The new rows draw their ids in the order of the entries. -/
theorem run_addProcesses (standardId : ℤ) (entries : List ProcessUpsertRequest) :
    (server env).run (addProcesses standardId entries) s w =
      (.ok (newRows standardId (w.seq .jobProcess) entries),
        { s with pending := s.pending ++
          (newRows standardId (w.seq .jobProcess) entries).map addRow },
        { w.after entries.length with
          seq := Function.update w.seq .jobProcess (w.seq .jobProcess + entries.length) }) := by
  induction entries generalizing s w with
  | nil => simp [addProcesses, newRows]
  | cons p rest ih =>
      rw [addProcesses, run_add_bind, Machine.run_bind, ih]
      simp [newRows, World.after, World.tick, Nat.add_comm, Nat.add_left_comm]
      exact ⟨rfl, rfl, congrArg _ (by omega)⟩

/-- The rest of the request, from its flush on. -/
def finishSync (s : JobStandard) (processes : List JobProcess) : Async V D JobStandardResponse :=
  flush.bind fun _ => (companyName s.companyId).bind fun name =>
    Prog.ofExcept (toStandardResponse s processes name)

/-- The state in which the flush of a request runs. -/
def syncWorld (incoming : List ProcessUpsertRequest) (rows : List JobProcess) (w : World V D) :
    World V D :=
  { w.after (2 + (droppedRows incoming rows).length + (keptRows incoming rows).length +
      (newEntries incoming).length) with
    seq := Function.update w.seq .jobProcess
      (w.seq .jobProcess + (newEntries incoming).length) }

/-- The standard and its processes, with two queries; nothing is pending yet. -/
theorem run_loadStandard {standardId : ℤ} {found : JobStandard}
    (hfound : w.db.find? .jobStandard standardId = some found) :
    (server env).run (loadStandard standardId) {} w =
      (.ok (found, processesOf standardId (env.rowOrder (w.ticks + 1)) w.db), {}, w.after 2) := by
  obtain rfl : found.id = standardId := Table.find?_key hfound
  have hid := bigint_of_find? hfound
  have hbinds : ([.int found.id] : List Bind).all Bind.fits := by simpa [Bind.fits] using hid
  simp only [loadStandard, getOrThrow, Prog.bind_eq, Prog.bind_assoc]
  rw [run_dbGet_bind_clean, if_pos hid, hfound]
  simp only [Prog.orRaise_some, Prog.ret_bind]
  rw [run_select_bind_clean, if_pos hbinds]
  rfl

/-- Ids that are not the standard's are refused. -/
theorem run_syncProcesses_unnamed {standardId : ℤ} {found : JobStandard}
    {incoming : List ProcessUpsertRequest}
    (hfound : w.db.find? .jobStandard standardId = some found)
    (hnames : ¬NamesRows incoming (processesOf standardId (env.rowOrder (w.ticks + 1)) w.db)) :
    (server env).run (syncProcesses standardId incoming) {} w =
      (.error (businessException .jobProcessNotFound), {}, w.after 2) := by
  rw [syncProcesses, Prog.bind_eq, Machine.run_bind, run_loadStandard hfound]
  dsimp only
  rw [syncEntries_eq, if_neg hnames]
  rfl

/-- **The request up to its flush** records the changes of the processes. -/
theorem run_syncProcesses {standardId : ℤ} {found : JobStandard}
    {incoming : List ProcessUpsertRequest} {rows : List JobProcess}
    (hfound : w.db.find? .jobStandard standardId = some found)
    (hrows : rows = processesOf standardId (env.rowOrder (w.ticks + 1)) w.db)
    (hnames : NamesRows incoming rows) :
    (server env).run (syncProcesses standardId incoming) {} w =
      (server env).run (finishSync found ((keptRows incoming rows).map (finalValues incoming) ++
          newRows standardId (w.seq .jobProcess) (newEntries incoming)))
        { pending := syncPending standardId (w.seq .jobProcess) incoming rows }
        (syncWorld incoming rows w) := by
  obtain rfl : found.id = standardId := Table.find?_key hfound
  rw [syncProcesses, Prog.bind_eq, Machine.run_bind, run_loadStandard hfound, ← hrows]
  dsimp only
  rw [syncEntries_eq, if_pos hnames]
  simp only [Prog.ofExcept, Prog.bind_eq, Prog.ret_bind]
  change (server env).run ((dropAll (droppedRows incoming rows)).bind fun _ =>
    (saveAll ((keptRows incoming rows).zip ((keptRows incoming rows).map
      (finalValues incoming)))).bind fun _ =>
        (addProcesses found.id (newEntries incoming)).bind fun added =>
          finishSync found ((keptRows incoming rows).map (finalValues incoming) ++ added))
      {} (w.after 2) = _
  rw [Machine.run_bind, run_dropAll]
  dsimp only
  rw [Machine.run_bind, run_saveAll]
  dsimp only
  rw [Machine.run_bind, run_addProcesses]
  simp only [World.after_after, World.after_seq, List.nil_append, List.append_assoc]
  rfl

end Run

/-! ## The rows that are left -/

/-- Processes are referenced by the records of shifts only, with `ON DELETE RESTRICT`. -/
theorem jobProcess_onlyRestricts : Dml.OnlyRestricts schema .jobProcess := by
  intro j r ref href htable
  change ref ∈ refs j r at href
  cases j <;> simp [refs] at href <;> grind

/-- The row stays: it is another standard's, or an entry names it. -/
def stays (standardId : ℤ) (incoming : List ProcessUpsertRequest) (row : JobProcess) : Bool :=
  row.jobStandardId ≠ standardId ∨ row.id ∈ namedIds incoming

/-- What a row that stays holds. -/
def synced (standardId : ℤ) (incoming : List ProcessUpsertRequest) (row : JobProcess) :
    JobProcess :=
  if row.jobStandardId = standardId then finalValues incoming row else row

section Rows

variable {db db' : Db} {standardId last : ℤ} {incoming : List ProcessUpsertRequest}
  {rows : List JobProcess}

/-- `rows` are the processes of the standard, in some order. -/
def AreProcesses (db : Db) (standardId : ℤ) (rows : List JobProcess) : Prop :=
  rows.Perm ((db.rows .jobProcess).filter fun row => row.jobStandardId = standardId)

/-- The processes of a standard come by sequence, in whichever order ties are broken. -/
theorem processesOf_perm (standardId : ℤ) (o : RowOrder) (db : Db) :
    AreProcesses db standardId (processesOf standardId o db) :=
  (List.mergeSort_perm _ _).trans (o.perm _)

/-- What `AreProcesses` says of one row. -/
theorem AreProcesses.mem_iff (h : AreProcesses db standardId rows) {row : JobProcess} :
    row ∈ rows ↔ row ∈ db.rows .jobProcess ∧ row.jobStandardId = standardId := by
  rw [List.Perm.mem_iff h, List.mem_filter, decide_eq_true_eq]

/-- The updates of a flush keep keys and foreign keys. -/
theorem keepsKeys_finalValues (db : Db) (incoming : List ProcessUpsertRequest) :
    Dml.KeepsKeys (i := .jobProcess) db (finalValues incoming) := by
  intro row _
  refine ⟨id_finalValues, ?_⟩
  show [_] = [_]
  rw [jobStandardId_finalValues]

/-- The new rows stand in the table of the others. -/
theorem newRows_fresh {db₁ : Db} {new : List JobProcess}
    (hrows₁ : db₁.rows .jobProcess = db.rows .jobProcess ++ new) {row row' : JobProcess}
    (hrow : row ∈ db.rows .jobProcess) (hrow' : row' ∈ new) : row.id ≠ row'.id := by
  have hvalid := (db₁.table .jobProcess).valid.1
  rw [show (db₁.table .jobProcess).rows = db.rows .jobProcess ++ new from hrows₁] at hvalid
  exact ((List.pairwise_append.mp hvalid).2.2 row hrow row' hrow').1

/-- The processes of a standard have different ids. -/
theorem AreProcesses.nodup (h : AreProcesses db standardId rows) :
    (rows.map JobProcess.id).Nodup := by
  have hall : ((db.rows .jobProcess).map JobProcess.id).Nodup := (db.table .jobProcess).nodup_key
  exact ((List.Perm.map _ h).nodup_iff).mpr (hall.sublist (List.filter_sublist.map _))

theorem nodup_byId {l : List JobProcess} (h : (l.map JobProcess.id).Nodup) :
    ((byId l).map JobProcess.id).Nodup :=
  (((List.perm_insertionSort _ l).map _).nodup_iff).mpr h

@[simp] theorem mem_byId {l : List JobProcess} {row : JobProcess} : row ∈ byId l ↔ row ∈ l :=
  (List.perm_insertionSort _ l).mem_iff

/-- Kept rows are those whose id an entry names. -/
theorem mem_keptRows {row : JobProcess} :
    row ∈ keptRows incoming rows ↔ row ∈ rows ∧ row.id ∈ namedIds incoming := by
  rw [keptRows, List.mem_filter, decide_eq_true_eq]

/-- Dropped rows are those that no entry names. -/
theorem mem_droppedRows {row : JobProcess} :
    row ∈ droppedRows incoming rows ↔ row ∈ rows ∧ row.id ∉ namedIds incoming := by
  rw [droppedRows, List.mem_filter, decide_eq_true_eq]

/-- Changed rows are kept, and differ from their final values. -/
theorem mem_changedRows {row : JobProcess} :
    row ∈ changedRows incoming rows ↔
      row ∈ keptRows incoming rows ∧ finalValues incoming row ≠ row := by
  rw [changedRows, List.mem_filter, decide_eq_true_eq]

/-- New rows belong to the standard of the request, whatever the entries say. -/
theorem jobStandardId_newRows {l : List ProcessUpsertRequest} {row : JobProcess}
    (h : row ∈ newRows standardId last l) : row.jobStandardId = standardId := by
  induction l generalizing last with
  | nil => exact absurd h List.not_mem_nil
  | cons p rest ih =>
      obtain rfl | h := List.mem_cons.mp h
      · rfl
      · exact ih h

/-- Rows of the table are told apart by their ids. -/
theorem id_mem_iff {l : List JobProcess} (hl : ∀ row ∈ l, row ∈ db.rows .jobProcess)
    {row : JobProcess} (hrow : row ∈ db.rows .jobProcess) :
    row.id ∈ l.map JobProcess.id ↔ row ∈ l := by
  refine ⟨fun h => ?_, fun h => List.mem_map.mpr ⟨row, h, rfl⟩⟩
  obtain ⟨row', hrow', hid⟩ := List.mem_map.mp h
  obtain rfl : row' = row := Table.eq_of_key (hl row' hrow') hrow hid
  exact hrow'

/-! ### The three phases -/

/-- The INSERTs go through together or not at all; each has to find its standard and a
free sequence. -/
theorem applyAll_addRows {new : List JobProcess} :
    Dml.applyAll (new.map addRow) db = .ok db' ↔
      db'.rows .jobProcess = db.rows .jobProcess ++ new ∧
        (∀ row ∈ new, db.refsMet .jobProcess row) ∧
          ∀ t, t ≠ .jobProcess → db'.table t = db.table t := by
  have hself : ∀ row ∈ new, ∀ ref ∈ refs .jobProcess row, ref.table ≠ .jobProcess := by
    intro row _ ref href
    rw [List.mem_singleton.mp href]
    exact fun heq => (by cases heq)
  exact Dml.applyAll_inserts (C := schema) (i := .jobProcess) hself

/-- The UPDATEs go through exactly if each passes at its turn (`PassAll`), and they
leave the final values. -/
theorem applyAll_saveRows (hold : ∀ row ∈ rows, row ∈ db.rows .jobProcess)
    (hnodup : (rows.map JobProcess.id).Nodup) :
    ((∃ db', Dml.applyAll (rows.map (saveRow incoming)) db = .ok db') ↔
        Dml.PassAll (C := schema) (i := .jobProcess) db (finalValues incoming) [] rows) ∧
      ∀ db', Dml.applyAll (rows.map (saveRow incoming)) db = .ok db' →
        db'.rows .jobProcess = (db.rows .jobProcess).map (fun row =>
            if row.id ∈ rows.map JobProcess.id then finalValues incoming row else row) ∧
          ∀ t, t ≠ .jobProcess → db'.table t = db.table t := by
  have hstart : db.rows .jobProcess = (db.rows .jobProcess).map
      (Dml.overlay schema (i := .jobProcess) (finalValues incoming) []) := (List.map_id _).symm
  exact Dml.applyAll_updates (C := schema) (i := .jobProcess)
    (keepsKeys_finalValues db incoming) (F := fun u => (finalValues incoming u).overwrite)
    (fun u _ => overwrite_finalValues) hstart hold hnodup

/-- The DELETEs leave the rows that are not dropped, and the other tables. -/
theorem applyAll_dropRows
    (h : Dml.applyAll (rows.map dropRow) db = .ok db') :
    db'.rows .jobProcess =
        (db.rows .jobProcess).filter (fun row => row.id ∉ rows.map JobProcess.id) ∧
      ∀ t, t ≠ .jobProcess → db'.table t = db.table t := by
  have hmap : rows.map dropRow = (rows.map JobProcess.id).map (Dml.delete .jobProcess) := by
    rw [List.map_map]
    rfl
  rw [hmap] at h
  exact Dml.applyAll_deletes (C := schema) (i := .jobProcess) jobProcess_onlyRestricts h

/-- **The rows after the flush.** -/
theorem rows_of_syncStatements (hrows : AreProcesses db standardId rows)
    (h : Dml.applyAll (syncStatements standardId last incoming rows) db = .ok db') :
    db'.rows .jobProcess =
        ((db.rows .jobProcess).filter (stays standardId incoming)).map (synced standardId incoming) ++
          newRows standardId last (newEntries incoming) ∧
      ∀ t, t ≠ .jobProcess → db'.table t = db.table t := by
  obtain ⟨db₁, hinserts, h⟩ := Dml.applyAll_append_eq_ok.mp h
  obtain ⟨db₂, hupdates, hdeletes⟩ := Dml.applyAll_append_eq_ok.mp h
  have hchanged : ∀ row ∈ byId (changedRows incoming rows), row ∈ db.rows .jobProcess :=
    fun row h => (hrows.mem_iff.mp
      (mem_keptRows.mp (mem_changedRows.mp (mem_byId.mp h)).1).1).1
  have hdropped : ∀ row ∈ byId (droppedRows incoming rows), row ∈ db.rows .jobProcess :=
    fun row h => (hrows.mem_iff.mp (mem_droppedRows.mp (mem_byId.mp h)).1).1
  obtain ⟨hrows₁, -, hothers₁⟩ := applyAll_addRows.mp hinserts
  have hchanged₁ : ∀ row ∈ byId (changedRows incoming rows), row ∈ db₁.rows .jobProcess := by
    intro row hrow
    rw [hrows₁]
    exact List.mem_append_left _ (hchanged row hrow)
  have hnodup : ((byId (changedRows incoming rows)).map JobProcess.id).Nodup :=
    nodup_byId (hrows.nodup.sublist ((List.filter_sublist.trans List.filter_sublist).map _))
  obtain ⟨hrows₂, hothers₂⟩ := (applyAll_saveRows hchanged₁ hnodup).2 db₂ hupdates
  obtain ⟨hrows₃, hothers₃⟩ := applyAll_dropRows hdeletes
  refine ⟨?_, fun t ht => (hothers₃ t ht).trans ((hothers₂ t ht).trans (hothers₁ t ht))⟩
  have hupdId : ∀ row : JobProcess, (if row.id ∈ (byId (changedRows incoming rows)).map
      JobProcess.id then finalValues incoming row else row).id = row.id := by
    intro row
    split
    · exact id_finalValues
    · rfl
  -- new rows are neither updated nor dropped
  have hnew : ∀ row ∈ newRows standardId last (newEntries incoming), ∀ l : List JobProcess,
      (∀ x ∈ l, x ∈ db.rows .jobProcess) → row.id ∉ l.map JobProcess.id := by
    intro row hrow l hl hmem
    obtain ⟨x, hx, hid⟩ := List.mem_map.mp hmem
    exact newRows_fresh hrows₁ (hl x hx) hrow hid
  have hold : ∀ row ∈ db.rows .jobProcess,
      (row.id ∉ (byId (droppedRows incoming rows)).map JobProcess.id ↔
        stays standardId incoming row = true) := by
    intro row hrow
    rw [id_mem_iff hdropped hrow, mem_byId, mem_droppedRows, hrows.mem_iff]
    simp only [stays, decide_eq_true_eq]
    tauto
  rw [hrows₃, hrows₂, hrows₁, List.filter_map, List.filter_append, List.map_append]
  refine congrArg₂ (· ++ ·) ?_ ?_
  · rw [List.filter_congr (q := stays standardId incoming) fun row hrow => ?_]
    · refine List.map_congr_left fun row hrow => ?_
      obtain ⟨hrow, hstays⟩ := List.mem_filter.mp hrow
      simp only [id_mem_iff hchanged hrow, mem_byId, mem_changedRows, mem_keptRows, hrows.mem_iff,
        hrow, true_and, synced]
      by_cases hstandard : row.jobStandardId = standardId
      · have hnamed : row.id ∈ namedIds incoming := by
          simpa [stays, hstandard] using hstays
        by_cases hsame : finalValues incoming row = row
        · simp [hsame]
        · rw [if_pos ⟨⟨hstandard, hnamed⟩, hsame⟩, if_pos hstandard]
      · rw [if_neg fun h => hstandard h.1.1, if_neg hstandard]
    · rw [Bool.eq_iff_iff, Function.comp, hupdId, decide_eq_true_eq]
      exact hold row hrow
  · rw [List.filter_eq_self.mpr fun row hrow => ?_]
    · refine (List.map_congr_left fun row hrow => if_neg ?_).trans (List.map_id _)
      exact hnew row hrow _ hchanged
    · simp only [Function.comp, hupdId, decide_eq_true_eq]
      exact hnew row hrow _ hdropped

end Rows

/-! ## The whole request -/

section Request

variable {env : Env} {w : World V D} {standardId : ℤ} {found : JobStandard}
  {incoming : List ProcessUpsertRequest} {rows : List JobProcess}

/-- A row that no entry names keeps its values, if it were to stay. -/
theorem finalValues_of_unnamed {row : JobProcess} (h : row.id ∉ namedIds incoming) :
    finalValues incoming row = row := by
  induction incoming with
  | nil => rfl
  | cons p rest ih =>
      have hp : p.id ≠ some row.id := fun hid => h (by simp [namedIds, hid])
      have hrest : row.id ∉ namedIds rest := by
        rintro hmem
        exact h (List.mem_filterMap.mpr
          ((List.mem_filterMap.mp hmem).imp fun q hq => ⟨List.mem_cons_of_mem _ hq.1, hq.2⟩))
      rw [finalValues_cons, if_neg hp, ih hrest]

/-- The document of a row that an entry names reads as a dictionary. -/
theorem ofColumn_finalValues {row : JobProcess} (h : row.id ∈ namedIds incoming) :
    ∃ fields, Dict.ofColumn (finalValues incoming row).context = .ok fields := by
  induction incoming generalizing row with
  | nil => exact absurd h List.not_mem_nil
  | cons p rest ih =>
      rw [finalValues_cons]
      by_cases hrest : row.id ∈ namedIds rest
      · split
        · have hassigned : (p.assign row).id ∈ namedIds rest := hrest
          exact ih hassigned
        · exact ih hrest
      · have hp : p.id = some row.id := by
          obtain ⟨q, hq, hid⟩ := List.mem_filterMap.mp h
          obtain rfl | hq := List.mem_cons.mp hq
          · exact hid
          · exact absurd (List.mem_filterMap.mpr ⟨q, hq, hid⟩) hrest
        have hassigned : (p.assign row).id ∉ namedIds rest := hrest
        rw [if_pos hp, finalValues_of_unnamed hassigned]
        exact ⟨p.context, Dict.ofColumn_assign ..⟩

/-- The document of a new row comes from a request, so it is a dictionary. -/
theorem ofColumn_newRows {last : ℤ} {l : List ProcessUpsertRequest} {row : JobProcess}
    (h : row ∈ newRows standardId last l) :
    ∃ fields, Dict.ofColumn row.context = .ok fields := by
  induction l generalizing last with
  | nil => exact absurd h List.not_mem_nil
  | cons p rest ih =>
      obtain rfl | h := List.mem_cons.mp h
      · exact ⟨p.context, Dict.ofColumn_assign none p.context⟩
      · exact ih h

/-- The response of a standard whose documents are all dictionaries. -/
theorem toStandardResponse_ok {processes : List JobProcess} {fields : Option Dict}
    (hcontext : Dict.ofColumn found.context = .ok fields)
    (hprocesses : ∀ row ∈ processes, ∃ fields, Dict.ofColumn row.context = .ok fields)
    (name : Option String) : ∃ resp, toStandardResponse found processes name = .ok resp := by
  have hall : ∀ row ∈ processes, ∃ resp, JobProcessResponse.ofRow row = .ok resp := by
    intro row hrow
    obtain ⟨rowFields, hrowFields⟩ := hprocesses row hrow
    exact ⟨_, JobProcessResponse.ofRow_eq_ok_iff.mpr ⟨rowFields, hrowFields, rfl⟩⟩
  exact ⟨_, toStandardResponse_eq_ok_iff.mpr
    ⟨fields, _, hcontext, mapM_eq_ok_iff.mpr ⟨hall, rfl⟩, rfl⟩⟩

/-- A standard is only shown if its document is a dictionary. -/
theorem context_of_toStandardResponse {processes : List JobProcess} {name : Option String}
    {resp : JobStandardResponse} (h : toStandardResponse found processes name = .ok resp) :
    ∃ fields, Dict.ofColumn found.context = .ok fields := by
  obtain ⟨fields, -, hcontext, -⟩ := toStandardResponse_eq_ok_iff.mp h
  exact ⟨fields, hcontext⟩

/-- What follows the flush of a request. -/
theorem run_finishSync {processes : List JobProcess} {pending : List Statement} {db' : Db}
    {w' : World V D} (hfound : found ∈ w.db.rows .jobStandard) (hmay : MayRecord env pending)
    (hdb : w'.db = w.db) (htaken : Dml.applyAll (Session.flushOrder pending) w.db = .ok db') :
    ∃ s w'', (server env).run (finishSync found processes) { pending := pending } w' =
      (toStandardResponse found processes
        ((db'.find? .company found.companyId).map Company.name), s, w'') ∧ Sees w db' s w'' := by
  obtain ⟨s, hflush, hsees⟩ := run_flush_taken hmay hdb htaken
  have hcompany : bigint found.companyId := bigint_of_ref hfound (.head _)
  have hname : (server env).run (companyName found.companyId) s w'.tick =
      (.ok ((db'.find? .company found.companyId).map Company.name), s, w'.tick.tick) := by
    rw [companyName, Prog.bind_eq, Machine.run_bind, dbGet,
      run_select_sees hsees (by simpa [Bind.fits] using hcompany)]
    rfl
  rw [finishSync, Machine.run_bind, hflush]
  dsimp only
  rw [Machine.run_bind, hname]
  exact ⟨s, _, Machine.run_ofExcept .., hsees⟩

/-- The processes in memory when the request is answered. -/
def loadedAfter (standardId last : ℤ) (incoming : List ProcessUpsertRequest)
    (rows : List JobProcess) : List JobProcess :=
  (keptRows incoming rows).map (finalValues incoming) ++
    newRows standardId last (newEntries incoming)

/-- **A request that is answered** has sent its changes, the database has them, and the
answer is built from what is in memory. -/
theorem serve_syncProcesses_answer {resp : JobStandardResponse}
    (h : (serve env (syncProcesses standardId incoming) w).1 = .ok resp)
    (hrows : rows = processesOf standardId (env.rowOrder (w.ticks + 1)) w.db) :
    ∃ found, w.db.find? .jobStandard standardId = some found ∧ NamesRows incoming rows ∧
      MayRecord env (syncPending standardId (w.seq .jobProcess) incoming rows) ∧
      Dml.applyAll (syncStatements standardId (w.seq .jobProcess) incoming rows) w.db =
        .ok (serve env (syncProcesses standardId incoming) w).2.db ∧
      toStandardResponse found (loadedAfter standardId (w.seq .jobProcess) incoming rows)
        (((serve env (syncProcesses standardId incoming) w).2.db.find? .company
          found.companyId).map Company.name) = .ok resp := by
  obtain ⟨s, w', hrun⟩ := run_of_serve_ok _ _ h
  cases hfound : w.db.find? .jobStandard standardId with
  | none =>
      obtain ⟨e, s', w'', hrefused, -⟩ : Refuses env (syncProcesses standardId incoming) w :=
        ((refuses_getOrRaise hfound).bind).bind
      cases hrun.symm.trans hrefused
  | some found =>
      refine ⟨found, rfl, ?_⟩
      by_cases hnames : NamesRows incoming rows
      · have hfinish := (run_syncProcesses hfound hrows hnames).symm.trans hrun
        obtain ⟨⟨⟩, s₁, w₁, hflush, -⟩ := Machine.run_bind_eq_ok hfinish
        have hdb : (syncWorld incoming rows w).db = w.db := rfl
        obtain ⟨hmay, db', htaken, -⟩ := run_flush_eq_taken hdb hflush
        obtain ⟨s₂, w₂, hrun', hsees⟩ :=
          run_finishSync (Table.find?_mem hfound) hmay hdb htaken
        obtain ⟨hresp, rfl, rfl⟩ : _ ∧ _ ∧ _ := by
          simpa [Prod.ext_iff] using hfinish.symm.trans hrun'
        obtain rfl : found.id = standardId := Table.find?_key hfound
        rw [(serve_of_sees hrun hsees).2, ← flushOrder_syncPending]
        exact ⟨hnames, hmay, htaken, hresp.symm⟩
      · rw [hrows] at hnames
        cases hrun.symm.trans (run_syncProcesses_unnamed hfound hnames)

/-- The same, without the answer. -/
theorem serve_syncProcesses_ok {resp : JobStandardResponse}
    (h : (serve env (syncProcesses standardId incoming) w).1 = .ok resp) :
    ∃ found, w.db.find? .jobStandard standardId = some found ∧
      NamesRows incoming (processesOf standardId (env.rowOrder (w.ticks + 1)) w.db) ∧
        MayRecord env (syncPending standardId (w.seq .jobProcess) incoming
          (processesOf standardId (env.rowOrder (w.ticks + 1)) w.db)) ∧
        (∃ fields, Dict.ofColumn found.context = .ok fields) ∧
        Dml.applyAll (syncStatements standardId (w.seq .jobProcess) incoming
          (processesOf standardId (env.rowOrder (w.ticks + 1)) w.db)) w.db =
            .ok (serve env (syncProcesses standardId incoming) w).2.db := by
  obtain ⟨found, hfound, hnames, hmay, htaken, hresp⟩ := serve_syncProcesses_answer h rfl
  exact ⟨found, hfound, hnames, hmay, context_of_toStandardResponse hresp, htaken⟩

/-- **A request is answered** if the database takes its changes. -/
theorem serve_syncProcesses_of_taken {db' : Db} {fields : Option Dict}
    (hfound : w.db.find? .jobStandard standardId = some found)
    (hrows : rows = processesOf standardId (env.rowOrder (w.ticks + 1)) w.db)
    (hnames : NamesRows incoming rows)
    (hcontext : Dict.ofColumn found.context = .ok fields)
    (hmay : MayRecord env (syncPending standardId (w.seq .jobProcess) incoming rows))
    (htaken : Dml.applyAll (syncStatements standardId (w.seq .jobProcess) incoming rows) w.db =
      .ok db') :
    ∃ resp, (serve env (syncProcesses standardId incoming) w).1 = .ok resp := by
  rw [← flushOrder_syncPending] at htaken
  have hdb : (syncWorld incoming rows w).db = w.db := rfl
  obtain ⟨s, w'', hrun, hsees⟩ :=
    run_finishSync (Table.find?_mem hfound) hmay hdb htaken
  replace hrun := (run_syncProcesses hfound hrows hnames).trans hrun
  have hdocuments : ∀ row ∈ (keptRows incoming rows).map (finalValues incoming) ++
      newRows standardId (w.seq .jobProcess) (newEntries incoming),
      ∃ fields, Dict.ofColumn row.context = .ok fields := by
    intro row hrow
    obtain hrow | hrow := List.mem_append.mp hrow
    · obtain ⟨row', hrow', rfl⟩ := List.mem_map.mp hrow
      exact ofColumn_finalValues (mem_keptRows.mp hrow').2
    · exact ofColumn_newRows hrow
  obtain ⟨resp, hresp⟩ := toStandardResponse_ok hcontext hdocuments
    ((db'.find? .company found.companyId).map Company.name)
  rw [hresp] at hrun
  exact ⟨resp, (serve_of_sees hrun hsees).1⟩

end Request

end Rooti
