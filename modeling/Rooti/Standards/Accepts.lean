import Rooti.Standards.Sync

/-!
# Which lists of processes are accepted

A list of processes is sent in three phases, and the database checks `UNIQUE
(job_standard_id, sequence)` after every row.  A process that gets the sequence
of another one is refused unless the other one has made room before: new rows
come first and find all old rows, changed rows come by id, and the rows that are
dropped go last.

## Main definitions

* `NoCollision` — no row meets the sequence of another one on the way
* `Acceptable` — what a request needs to be answered
* `serve_syncProcesses_iff` — it is answered exactly then
* `NoOldSequenceTaken` — the sequences a list of distinct sequences may use

## What the exact condition is made of

A request is answered if every statement of `syncStatements` goes through. `Storable`
collects what concerns one row by itself: types and widths of the columns, fresh ids, a
dictionary in the context of the standard. `NoCollision` collects what concerns two
rows. It has one part for each pair of kinds that can meet in the table: new and old,
new and kept, kept and dropped, kept and kept, where of the last two the one with the
smaller id moves first. `Unreferenced` is about the DELETEs alone: a process with
records cannot go.

## What carries the proof

For the UPDATEs the table changes under way. `atTurn` says what a row holds when the row
`row` is about to be changed, namely its final values if its id is smaller and its old
ones otherwise, and `passAll_changedRows_iff` shows that the UPDATEs pass one after
another exactly if each row is apart from all others as they are at its turn. Unfolding
the two cases of `atTurn` gives `later` and `kept` of `NoCollision`. That the statements
are in this order is the assumption named at `Session.flushOrder`.
-/

namespace Rooti

open Relational Program JobStandardService

variable {V D : Type}

/-- The processes of a standard, as they are stored. -/
def standardRows (db : Db) (standardId : ℤ) : List JobProcess :=
  (db.rows .jobProcess).filter fun row => row.jobStandardId = standardId

/-- The column types hold the row. -/
def JobProcess.fits (row : JobProcess) : Bool := (schema.shape .jobProcess).check row

/-- **No row meets the sequence of another one on the way.** -/
structure NoCollision (incoming : List ProcessUpsertRequest) (rows : List JobProcess) :
    Prop where
  /-- the old rows are all there when the new ones come -/
  newOld : ∀ p ∈ newEntries incoming, ∀ row ∈ rows, row.sequence ≠ p.sequence
  newNew : ((newEntries incoming).map ProcessUpsertRequest.sequence).Nodup
  newKept : ∀ p ∈ newEntries incoming, ∀ row ∈ keptRows incoming rows,
    (finalValues incoming row).sequence ≠ p.sequence
  /-- dropped rows are still there when a row is changed -/
  dropped : ∀ row ∈ keptRows incoming rows, ∀ other ∈ droppedRows incoming rows,
    (finalValues incoming row).sequence ≠ other.sequence
  /-- so are the old values of the rows that come later -/
  later : ∀ row ∈ keptRows incoming rows, ∀ other ∈ keptRows incoming rows, row.id < other.id →
    (finalValues incoming row).sequence ≠ other.sequence
  kept : ∀ row ∈ keptRows incoming rows, ∀ other ∈ keptRows incoming rows, row.id < other.id →
    (finalValues incoming row).sequence ≠ (finalValues incoming other).sequence

/-- The list asks for what is there already. -/
def NothingToSync (incoming : List ProcessUpsertRequest) (rows : List JobProcess) : Prop :=
  newEntries incoming = [] ∧
    ∀ row ∈ rows, row.id ∈ namedIds incoming ∧ finalValues incoming row = row

/-- What the rows to be written need, apart from their sequences. -/
structure Storable (env : Env) (w : World V D) (found : JobStandard)
    (incoming : List ProcessUpsertRequest) (rows : List JobProcess) : Prop where
  /-- a server in read-only mode changes nothing -/
  writable : env.settings.appReadOnly = true → NothingToSync incoming rows
  readable : ∃ fields, Dict.ofColumn found.context = .ok fields
  fitsKept : ∀ row ∈ keptRows incoming rows, (finalValues incoming row).fits
  fitsNew : ∀ row ∈ newRows found.id (w.seq .jobProcess) (newEntries incoming), row.fits
  /-- the ids drawn for new rows are free -/
  fresh : ∀ row ∈ newRows found.id (w.seq .jobProcess) (newEntries incoming),
    ∀ old ∈ w.db.rows .jobProcess, old.id ≠ row.id

/-- No record of a shift names a row that is dropped. -/
def Unreferenced (incoming : List ProcessUpsertRequest) (rows : List JobProcess) (db : Db) :
    Prop :=
  ∀ row ∈ droppedRows incoming rows, ∀ r ∈ db.rows .workProcessRecord, r.jobProcessId ≠ row.id

/-- **What a request needs to be answered**, for a standard that exists. -/
structure Acceptable (env : Env) (w : World V D) (found : JobStandard)
    (incoming : List ProcessUpsertRequest) (rows : List JobProcess) : Prop where
  named : NamesRows incoming rows
  storable : Storable env w found incoming rows
  collision : NoCollision incoming rows
  unreferenced : Unreferenced incoming rows w.db

section Flush

variable {db db' : Db} {standardId last : ℤ} {incoming : List ProcessUpsertRequest}
  {rows : List JobProcess} {found : JobStandard}

/-- Two processes stand apart by id, and within a standard by sequence. -/
theorem apart_jobProcess {row other : JobProcess} :
    (schema.shape .jobProcess).Apart row other ↔
      row.id ≠ other.id ∧
        ¬(row.jobStandardId = other.jobStandardId ∧ row.sequence = other.sequence) := by
  show row.id ≠ other.id ∧ decide _ = false ∧ decide _ = false ↔ _
  rw [decide_eq_false_iff_not, decide_eq_false_iff_not, and_congr_right_iff]
  intro _
  refine and_iff_left_of_imp fun h heq => h ⟨heq.1.symm, heq.2.symm⟩

/-- New rows are numbered one after the other, their sequences are those of the entries.
-/
theorem map_sequence_newRows (standardId last : ℤ) (entries : List ProcessUpsertRequest) :
    (newRows standardId last entries).map JobProcess.sequence =
      entries.map ProcessUpsertRequest.sequence := by
  induction entries generalizing last with
  | nil => rfl
  | cons p rest ih => exact congrArg (p.sequence :: ·) (ih (last + 1))

/-- New rows have the sequences of their entries. -/
theorem forall_sequence_newRows (standardId last : ℤ) {entries : List ProcessUpsertRequest}
    {P : ℤ → Prop} :
    (∀ row ∈ newRows standardId last entries, P row.sequence) ↔ ∀ p ∈ entries, P p.sequence := by
  rw [← List.forall_mem_map (f := JobProcess.sequence) (P := P), map_sequence_newRows,
    List.forall_mem_map]

/-- New rows are numbered upwards. -/
theorem lt_id_newRows {entries : List ProcessUpsertRequest} {row : JobProcess}
    (h : row ∈ newRows standardId last entries) : last < row.id := by
  induction entries generalizing last with
  | nil => exact absurd h List.not_mem_nil
  | cons p rest ih =>
      obtain rfl | h := List.mem_cons.mp h
      · exact Int.lt_succ last
      · exact (Int.lt_succ last).trans (ih h)

/-- Their ids differ, being drawn one after the other. -/
theorem pairwise_id_newRows (standardId last : ℤ) (entries : List ProcessUpsertRequest) :
    (newRows standardId last entries).Pairwise fun row other => row.id ≠ other.id := by
  induction entries generalizing last with
  | nil => exact List.Pairwise.nil
  | cons p rest ih =>
      exact List.Pairwise.cons (fun row hrow => (lt_id_newRows hrow).ne) (ih (last + 1))

/-- **The insertions**: what the table holds afterwards. -/
theorem valid_newRows_iff {entries : List ProcessUpsertRequest}
    (hfresh : ∀ row ∈ newRows standardId last entries,
      ∀ old ∈ db.rows .jobProcess, old.id ≠ row.id) :
    (schema.shape .jobProcess).Valid
        (db.rows .jobProcess ++ newRows standardId last entries) ↔
      (∀ row ∈ newRows standardId last entries, row.fits) ∧
        (entries.map ProcessUpsertRequest.sequence).Nodup ∧
          ∀ p ∈ entries, ∀ row ∈ db.rows .jobProcess,
            row.jobStandardId = standardId → row.sequence ≠ p.sequence := by
  have hold : (schema.shape .jobProcess).Valid (db.rows .jobProcess) :=
    (db.table .jobProcess).valid
  have hseq : (newRows standardId last entries).Pairwise
      (schema.shape .jobProcess).Apart ↔
      (entries.map ProcessUpsertRequest.sequence).Nodup := by
    rw [← map_sequence_newRows standardId last, List.Nodup, List.pairwise_map]
    have hids := pairwise_id_newRows standardId last entries
    constructor
    · intro h
      refine h.imp_of_mem fun {row other} hrow hother hapart heq => ?_
      exact (apart_jobProcess.mp hapart).2
        ⟨(jobStandardId_newRows hrow).trans (jobStandardId_newRows hother).symm, heq⟩
    · intro h
      refine (hids.and h).imp fun {row other} hne => apart_jobProcess.mpr ⟨hne.1, ?_⟩
      exact fun heq => hne.2 heq.2
  have hcross : (∀ old ∈ db.rows .jobProcess, ∀ row ∈ newRows standardId last entries,
      (schema.shape .jobProcess).Apart old row) ↔
      ∀ p ∈ entries, ∀ row ∈ db.rows .jobProcess,
        row.jobStandardId = standardId → row.sequence ≠ p.sequence := by
    rw [← forall_sequence_newRows standardId last (P := fun n =>
      ∀ row ∈ db.rows .jobProcess, row.jobStandardId = standardId → row.sequence ≠ n)]
    constructor
    · intro h row hrow old hstored hstandard heq
      exact (apart_jobProcess.mp (h old hstored row hrow)).2
        ⟨hstandard.trans (jobStandardId_newRows hrow).symm, heq⟩
    · intro h old hstored row hrow
      refine apart_jobProcess.mpr ⟨hfresh row hrow old hstored, ?_⟩
      rintro ⟨hstandard, heq⟩
      exact h row hrow old hstored (hstandard.trans (jobStandardId_newRows hrow)) heq
  -- new rows among themselves, then each of them and an old one
  rw [Shape.Valid, List.pairwise_append, hseq, hcross, List.forall_mem_append]
  constructor
  · rintro ⟨⟨-, hnew, hcross⟩, -, hfits⟩
    exact ⟨hfits, hnew, hcross⟩
  · rintro ⟨hfits, hnew, hcross⟩
    exact ⟨⟨hold.1, hnew, hcross⟩, hold.2, hfits⟩

/-! ### Changed rows, one after another -/

/-- What a row holds when it is the turn of the row `row`. -/
def atTurn (incoming : List ProcessUpsertRequest) (rows : List JobProcess)
    (row other : JobProcess) : JobProcess :=
  if other ∈ keptRows incoming rows ∧ other.id < row.id then finalValues incoming other else other

/-- A row keeps its id throughout. -/
@[simp] theorem id_atTurn {row other : JobProcess} :
    (atTurn incoming rows row other).id = other.id := by
  unfold atTurn
  split <;> simp

/-- And its standard. -/
@[simp] theorem jobStandardId_atTurn {row other : JobProcess} :
    (atTurn incoming rows row other).jobStandardId = other.jobStandardId := by
  unfold atTurn
  split <;> simp

/-- New rows are not old ones. -/
theorem atTurn_of_new {db₁ : Db} {new : List JobProcess} (hrows : AreProcesses db standardId rows)
    (hrows₁ : db₁.rows .jobProcess = db.rows .jobProcess ++ new) {row other : JobProcess}
    (h : other ∈ new) : atTurn incoming rows row other = other := by
  refine if_neg ?_
  rintro ⟨hkept, -⟩
  exact newRows_fresh hrows₁ (hrows.mem_iff.mp (mem_keptRows.mp hkept).1).1 h rfl

/-- The rows that are changed come strictly by id. -/
theorem sorted_byId {l : List JobProcess} (h : (l.map JobProcess.id).Nodup) :
    (byId l).Pairwise fun row other => row.id < other.id := by
  have hsorted : (byId l).Pairwise fun row other => row.id ≤ other.id :=
    List.pairwise_insertionSort (fun row other : JobProcess => row.id ≤ other.id) l
  have hnodup : (byId l).Pairwise fun row other => row.id ≠ other.id :=
    List.pairwise_map.mp (nodup_byId h)
  exact (hsorted.and hnodup).imp fun hle => lt_of_le_of_ne hle.1 hle.2

/-- The rows before a row in a list by id are those with a smaller id. -/
theorem mem_before_iff {l before after : List JobProcess} {row : JobProcess}
    (hsorted : l.Pairwise fun row other => row.id < other.id)
    (hsplit : l = before ++ row :: after) (k : ℤ) :
    k ∈ before.map JobProcess.id ↔ k ∈ l.map JobProcess.id ∧ k < row.id := by
  subst hsplit
  obtain ⟨-, hafter, hbefore⟩ := List.pairwise_append.mp hsorted
  obtain ⟨hafter, -⟩ := List.pairwise_cons.mp hafter
  simp only [List.map_append, List.map_cons, List.mem_append, List.mem_cons]
  constructor
  · intro hk
    obtain ⟨other, hother, rfl⟩ := List.mem_map.mp hk
    exact ⟨.inl hk, hbefore other hother row List.mem_cons_self⟩
  · rintro ⟨hk | rfl | hk, hlt⟩
    · exact hk
    · exact absurd hlt (lt_irrefl _)
    · obtain ⟨other, hother, rfl⟩ := List.mem_map.mp hk
      exact absurd hlt (hafter other hother).asymm

/-- A row that is changed is one of the standard, and still stored when the new ones are. -/
theorem mem_of_mem_byId {db₁ : Db} {new : List JobProcess} (hrows : AreProcesses db standardId rows)
    (hrows₁ : db₁.rows .jobProcess = db.rows .jobProcess ++ new) {row : JobProcess}
    (hrow : row ∈ byId (changedRows incoming rows)) :
    row ∈ db.rows .jobProcess ∧ row.jobStandardId = standardId ∧ row ∈ db₁.rows .jobProcess := by
  obtain ⟨hmem, hstandard⟩ :=
    hrows.mem_iff.mp (mem_keptRows.mp (mem_changedRows.mp (mem_byId.mp hrow)).1).1
  exact ⟨hmem, hstandard, hrows₁ ▸ List.mem_append_left _ hmem⟩

/-- **A row whose turn has come already** has its final values. -/
theorem overlay_eq_atTurn {db₁ : Db} {new : List JobProcess}
    (hrows : AreProcesses db standardId rows)
    (hrows₁ : db₁.rows .jobProcess = db.rows .jobProcess ++ new)
    {before after : List JobProcess} {row other : JobProcess}
    (hsplit : byId (changedRows incoming rows) = before ++ row :: after)
    (hother : other ∈ db₁.rows .jobProcess) :
    Dml.overlay schema (i := .jobProcess) (finalValues incoming) (before.map JobProcess.id) other =
      atTurn incoming rows row other := by
  have hsorted := sorted_byId (l := changedRows incoming rows)
    (hrows.nodup.sublist ((List.filter_sublist.trans List.filter_sublist).map _))
  have hdone : other.id ∈ before.map JobProcess.id ↔
      other ∈ changedRows incoming rows ∧ other.id < row.id := by
    rw [mem_before_iff hsorted hsplit,
      id_mem_iff (fun row hrow => (mem_of_mem_byId hrows hrows₁ hrow).2.2) hother, mem_byId]
  show (if other.id ∈ before.map JobProcess.id then _ else _) = _
  rw [atTurn]
  by_cases hkept : other ∈ keptRows incoming rows ∧ other.id < row.id
  · rw [if_pos hkept]
    by_cases hsame : finalValues incoming other = other
    · rw [hsame, ite_self]
    · rw [if_pos (hdone.mpr ⟨mem_changedRows.mpr ⟨hkept.1, hsame⟩, hkept.2⟩)]
  · rw [if_neg hkept, if_neg fun h => hkept ⟨?_, (hdone.mp h).2⟩]
    exact (mem_changedRows.mp (hdone.mp h).1).1

/-- A row and another one at its turn are apart unless they are of one standard and would have
one sequence. -/
theorem apart_atTurn_iff {db₁ : Db} {new : List JobProcess}
    (hrows : AreProcesses db standardId rows)
    (hrows₁ : db₁.rows .jobProcess = db.rows .jobProcess ++ new)
    {before after : List JobProcess} {row other : JobProcess}
    (hsplit : byId (changedRows incoming rows) = before ++ row :: after)
    (hother : other ∈ db₁.rows .jobProcess) (hne : other ≠ row) :
    (schema.shape .jobProcess).Apart (Dml.overlay schema (i := .jobProcess)
        (finalValues incoming) (before.map JobProcess.id) other) (finalValues incoming row) ↔
      (other.jobStandardId = standardId →
        (atTurn incoming rows row other).sequence ≠ (finalValues incoming row).sequence) := by
  have hrow : row ∈ byId (changedRows incoming rows) := by
    rw [hsplit]
    exact List.mem_append_right _ List.mem_cons_self
  obtain ⟨-, hstandard, hstored⟩ := mem_of_mem_byId hrows hrows₁ hrow
  rw [overlay_eq_atTurn hrows hrows₁ hsplit hother, apart_jobProcess]
  simp only [id_atTurn, id_finalValues, jobStandardId_atTurn, jobStandardId_finalValues,
    hstandard, not_and]
  exact and_iff_right fun hid => hne (Table.eq_of_key hother hstored hid)

/-- **The update of one row**: what it finds at its turn. -/
theorem passes_changedRow_iff {db₁ : Db} {new : List JobProcess}
    (hrows : AreProcesses db standardId rows)
    (hrows₁ : db₁.rows .jobProcess = db.rows .jobProcess ++ new)
    (hnew : ∀ row ∈ new, row.jobStandardId = standardId)
    {before after : List JobProcess} {row : JobProcess}
    (hsplit : byId (changedRows incoming rows) = before ++ row :: after) :
    Dml.Passes (C := schema) (i := .jobProcess) db₁ (finalValues incoming)
        (before.map JobProcess.id) row ↔
      (finalValues incoming row).fits ∧
        (∀ other ∈ rows, other ≠ row →
          (atTurn incoming rows row other).sequence ≠ (finalValues incoming row).sequence) ∧
        ∀ other ∈ new, other.sequence ≠ (finalValues incoming row).sequence := by
  have hrow : row ∈ byId (changedRows incoming rows) := by
    rw [hsplit]
    exact List.mem_append_right _ List.mem_cons_self
  refine and_congr_right fun _ => ?_
  constructor
  · intro h
    refine ⟨fun other hother hne => ?_, fun other hother => ?_⟩
    · obtain ⟨hmem, hstandard⟩ := hrows.mem_iff.mp hother
      have hmem₁ : other ∈ db₁.rows .jobProcess := by
        rw [hrows₁]
        exact List.mem_append_left _ hmem
      exact (apart_atTurn_iff hrows hrows₁ hsplit hmem₁ hne).mp (h other hmem₁ hne) hstandard
    · have hmem₁ : other ∈ db₁.rows .jobProcess := by
        rw [hrows₁]
        exact List.mem_append_right _ hother
      have hfresh := newRows_fresh hrows₁ (mem_of_mem_byId hrows hrows₁ hrow).1 hother
      have hne : other ≠ row := fun heq => hfresh (congrArg JobProcess.id heq.symm)
      have hturn : atTurn incoming rows row other = other := atTurn_of_new hrows hrows₁ hother
      rw [← hturn]
      exact (apart_atTurn_iff hrows hrows₁ hsplit hmem₁ hne).mp (h other hmem₁ hne)
        (hnew other hother)
  · rintro ⟨hold, hadded⟩ other hother hne
    refine (apart_atTurn_iff hrows hrows₁ hsplit hother hne).mpr fun hstandard => ?_
    have hmem := hother
    rw [hrows₁] at hmem
    obtain hmem | hmem := List.mem_append.mp hmem
    · exact hold other (hrows.mem_iff.mpr ⟨hmem, hstandard⟩) hne
    · rw [atTurn_of_new hrows hrows₁ hmem]
      exact hadded other hmem

/-- **The updates**: what each of them finds. -/
theorem passAll_changedRows_iff {db₁ : Db} {new : List JobProcess}
    (hrows : AreProcesses db standardId rows)
    (hrows₁ : db₁.rows .jobProcess = db.rows .jobProcess ++ new)
    (hnew : ∀ row ∈ new, row.jobStandardId = standardId) :
    Dml.PassAll (C := schema) (i := .jobProcess) db₁ (finalValues incoming) []
        (byId (changedRows incoming rows)) ↔
      ∀ row ∈ changedRows incoming rows, (finalValues incoming row).fits ∧
        (∀ other ∈ rows, other ≠ row →
          (atTurn incoming rows row other).sequence ≠ (finalValues incoming row).sequence) ∧
        ∀ other ∈ new, other.sequence ≠ (finalValues incoming row).sequence := by
  rw [Dml.passAll_iff]
  constructor
  · intro h row hrow
    obtain ⟨before, after, hsplit⟩ := List.append_of_mem (mem_byId.mpr hrow)
    exact (passes_changedRow_iff hrows hrows₁ hnew hsplit).mp (h before row after hsplit)
  · intro h before row after hsplit
    refine (passes_changedRow_iff hrows hrows₁ hnew hsplit).mpr (h row ?_)
    rw [← mem_byId, hsplit]
    exact List.mem_append_right _ List.mem_cons_self

/-- Processes of a standard have different sequences. -/
theorem AreProcesses.sequence_ne (h : AreProcesses db standardId rows) {row other : JobProcess}
    (hrow : row ∈ rows) (hother : other ∈ rows) (hne : row ≠ other) :
    row.sequence ≠ other.sequence := by
  obtain ⟨hrow, hstandard⟩ := h.mem_iff.mp hrow
  obtain ⟨hother, hstandard'⟩ := h.mem_iff.mp hother
  have hapart := (apart_jobProcess.mp (Table.apart hrow hother hne)).2
  exact fun heq => hapart ⟨hstandard.trans hstandard'.symm, heq⟩

/-- A row that is not changed collides with nothing that is not changed. -/
theorem atTurn_ne_of_changed (hrows : AreProcesses db standardId rows)
    (h : ∀ row ∈ changedRows incoming rows, ∀ other ∈ rows, other ≠ row →
      (atTurn incoming rows row other).sequence ≠ (finalValues incoming row).sequence)
    {row other : JobProcess} (hrow : row ∈ keptRows incoming rows) (hother : other ∈ rows)
    (hne : other ≠ row) :
    (atTurn incoming rows row other).sequence ≠ (finalValues incoming row).sequence := by
  by_cases hsame : finalValues incoming row = row
  · have hrow' := (mem_keptRows.mp hrow).1
    have happart := hrows.sequence_ne hother hrow' hne
    rw [hsame, atTurn]
    split
    · next hbefore =>
        by_cases hsame' : finalValues incoming other = other
        · rw [hsame']
          exact happart
        · -- the other row found this one in its place
          have hturn := h other (mem_changedRows.mpr ⟨hbefore.1, hsame'⟩) row hrow' hne.symm
          rw [atTurn, if_neg fun hlt => hlt.2.asymm hbefore.2] at hturn
          exact hturn.symm
    · exact happart
  · exact h row (mem_changedRows.mpr ⟨hrow, hsame⟩) other hother hne

/-- **The turns of all changed rows**, in terms of their values. -/
theorem forall_turns_iff (hrows : AreProcesses db standardId rows) :
    (∀ row ∈ changedRows incoming rows, ∀ other ∈ rows, other ≠ row →
        (atTurn incoming rows row other).sequence ≠ (finalValues incoming row).sequence) ↔
      (∀ row ∈ keptRows incoming rows, ∀ other ∈ droppedRows incoming rows,
          (finalValues incoming row).sequence ≠ other.sequence) ∧
        ∀ row ∈ keptRows incoming rows, ∀ other ∈ keptRows incoming rows, row.id < other.id →
          (finalValues incoming row).sequence ≠ other.sequence ∧
            (finalValues incoming row).sequence ≠ (finalValues incoming other).sequence := by
  constructor
  · intro h
    refine ⟨fun row hrow other hother => ?_, fun row hrow other hother hlt => ⟨?_, ?_⟩⟩
    · obtain ⟨hother, hdropped⟩ := mem_droppedRows.mp hother
      have hne : other ≠ row := fun heq => hdropped (heq ▸ (mem_keptRows.mp hrow).2)
      have hturn := atTurn_ne_of_changed hrows h hrow hother hne
      rw [atTurn, if_neg fun hkept => hdropped (mem_keptRows.mp hkept.1).2] at hturn
      exact hturn.symm
    · have hne : other ≠ row := fun heq => (heq ▸ hlt).false
      have hturn := atTurn_ne_of_changed hrows h hrow (mem_keptRows.mp hother).1 hne
      rw [atTurn, if_neg fun hbefore => hlt.asymm hbefore.2] at hturn
      exact hturn.symm
    · have hne : row ≠ other := fun heq => (heq ▸ hlt).false
      have hturn := atTurn_ne_of_changed hrows h hother (mem_keptRows.mp hrow).1 hne
      rw [atTurn, if_pos ⟨hrow, hlt⟩] at hturn
      exact hturn
  · rintro ⟨hdropped, hkept⟩ row hrow other hother hne
    obtain ⟨hrow, -⟩ := mem_changedRows.mp hrow
    have hstored := (hrows.mem_iff.mp (mem_keptRows.mp hrow).1).1
    by_cases hnamed : other.id ∈ namedIds incoming
    · have hother' := mem_keptRows.mpr ⟨hother, hnamed⟩
      obtain hlt | heq | hlt := lt_trichotomy row.id other.id
      · rw [atTurn, if_neg fun hbefore => hlt.asymm hbefore.2]
        exact (hkept row hrow other hother' hlt).1.symm
      · exact absurd (Table.eq_of_key hstored (hrows.mem_iff.mp hother).1 heq).symm hne
      · rw [atTurn, if_pos ⟨hother', hlt⟩]
        exact (hkept other hother' row hrow hlt).2
    · rw [atTurn, if_neg fun hbefore => hnamed (mem_keptRows.mp hbefore.1).2]
      exact (hdropped row hrow other (mem_droppedRows.mpr ⟨hother, hnamed⟩)).symm

/-! ### All phases -/

/-- Processes are named by the records of shifts. -/
theorem named_jobProcess_iff {k : ℤ} :
    Dml.Named db .jobProcess k ↔ ∃ r ∈ db.rows .workProcessRecord, r.jobProcessId = k := by
  constructor
  · rintro ⟨j, r, hr, ref, href, htable, hkey⟩
    change ref ∈ refs j r at href
    cases j <;> simp [refs] at href <;> grind
  · rintro ⟨r, hr, rfl⟩
    exact ⟨.workProcessRecord, r, hr, ⟨.jobProcess, r.jobProcessId, .restrict⟩,
      by simp [schema, refs], rfl, rfl⟩

/-- The rows that are changed are stored. -/
theorem changedRows_stored {db₁ : Db} {new : List JobProcess} (hrows : AreProcesses db standardId rows)
    (hrows₁ : db₁.rows .jobProcess = db.rows .jobProcess ++ new) {row : JobProcess}
    (h : row ∈ byId (changedRows incoming rows)) : row ∈ db₁.rows .jobProcess := by
  rw [hrows₁]
  exact List.mem_append_left _ (hrows.mem_iff.mp
    (mem_keptRows.mp (mem_changedRows.mp (mem_byId.mp h)).1).1).1

/-- The changed rows have different ids, also when sorted. -/
theorem nodup_changedRows (hrows : AreProcesses db standardId rows) :
    ((byId (changedRows incoming rows)).map JobProcess.id).Nodup :=
  nodup_byId (hrows.nodup.sublist ((List.filter_sublist.trans List.filter_sublist).map _))

/-- **The updates succeed**: no kept row collides. -/
theorem exists_saveRows_iff {db₁ : Db} (hrows : AreProcesses db standardId rows)
    (hrows₁ : db₁.rows .jobProcess =
      db.rows .jobProcess ++ newRows standardId last (newEntries incoming))
    (hnewOld : ∀ p ∈ newEntries incoming, ∀ row ∈ rows, row.sequence ≠ p.sequence) :
    (∃ db₂, Dml.applyAll ((byId (changedRows incoming rows)).map (saveRow incoming)) db₁ =
        .ok db₂) ↔
      (∀ row ∈ keptRows incoming rows, (finalValues incoming row).fits) ∧
      (∀ p ∈ newEntries incoming, ∀ row ∈ keptRows incoming rows,
        (finalValues incoming row).sequence ≠ p.sequence) ∧
      (∀ row ∈ keptRows incoming rows, ∀ other ∈ droppedRows incoming rows,
        (finalValues incoming row).sequence ≠ other.sequence) ∧
      ∀ row ∈ keptRows incoming rows, ∀ other ∈ keptRows incoming rows, row.id < other.id →
        (finalValues incoming row).sequence ≠ other.sequence ∧
          (finalValues incoming row).sequence ≠ (finalValues incoming other).sequence := by
  have hnew : ∀ row, (∀ other ∈ newRows standardId last (newEntries incoming),
      other.sequence ≠ (finalValues incoming row).sequence) ↔
      ∀ p ∈ newEntries incoming, p.sequence ≠ (finalValues incoming row).sequence :=
    fun row => forall_sequence_newRows standardId last
      (P := fun n => n ≠ (finalValues incoming row).sequence)
  rw [(applyAll_saveRows (fun row h => changedRows_stored hrows hrows₁ h)
    (nodup_changedRows hrows)).1, passAll_changedRows_iff hrows hrows₁
      fun row hrow => jobStandardId_newRows hrow, ← forall_turns_iff hrows]
  constructor
  · intro h
    refine ⟨fun row hrow => ?_, fun p hp row hrow => ?_, fun row hrow => (h row hrow).2.1⟩
    · by_cases hsame : finalValues incoming row = row
      · rw [hsame]
        exact Table.check_of_mem (hrows.mem_iff.mp (mem_keptRows.mp hrow).1).1
      · exact (h row (mem_changedRows.mpr ⟨hrow, hsame⟩)).1
    · by_cases hsame : finalValues incoming row = row
      · rw [hsame]
        exact hnewOld p hp row (mem_keptRows.mp hrow).1
      · exact ((hnew row).mp (h row (mem_changedRows.mpr ⟨hrow, hsame⟩)).2.2 p hp).symm
  · rintro ⟨hfits, hnewKept, hturns⟩ row hrow
    have hkept := (mem_changedRows.mp hrow).1
    exact ⟨hfits row hkept, hturns row hrow,
      (hnew row).mpr fun p hp => (hnewKept p hp row hkept).symm⟩

/-- **The deletions succeed**: no record of a shift names a row that is dropped. -/
theorem exists_dropRows_iff {db₂ : Db} (hrows : AreProcesses db standardId rows)
    (hstored : ∀ row ∈ rows, ∃ other ∈ db₂.rows .jobProcess, other.id = row.id)
    (hrecords : db₂.table .workProcessRecord = db.table .workProcessRecord) :
    (∃ db', Dml.applyAll ((byId (droppedRows incoming rows)).map dropRow) db₂ = .ok db') ↔
      Unreferenced incoming rows db := by
  have hmap : (byId (droppedRows incoming rows)).map dropRow =
      ((byId (droppedRows incoming rows)).map JobProcess.id).map (Dml.delete .jobProcess) := by
    rw [List.map_map]
    rfl
  have hself : ∀ row : JobProcess, ∀ ref ∈ refs .jobProcess row, ref.table ≠ .jobProcess := by
    intro row ref href
    rw [List.mem_singleton.mp href]
    exact fun heq => (by cases heq)
  have hnodup : ((byId (droppedRows incoming rows)).map JobProcess.id).Nodup :=
    nodup_byId (hrows.nodup.sublist (List.filter_sublist.map _))
  have hfind : ∀ k ∈ (byId (droppedRows incoming rows)).map JobProcess.id,
      ∃ row ∈ db₂.rows .jobProcess, row.id = k := by
    refine List.forall_mem_map.mpr fun row hrow => hstored row ?_
    exact (mem_droppedRows.mp (mem_byId.mp hrow)).1
  rw [hmap, Dml.applyAll_deletes_iff (C := schema) (i := .jobProcess) jobProcess_onlyRestricts
    hself hnodup hfind, List.forall_mem_map]
  simp only [mem_byId, named_jobProcess_iff, not_exists, not_and, Database.rows, hrecords]
  rfl

/-- **What the database takes.** -/
theorem applyAll_syncStatements_iff (hrows : AreProcesses db standardId rows)
    (hfound : db.find? .jobStandard standardId = some found) :
    (∃ db', Dml.applyAll (syncStatements standardId last incoming rows) db = .ok db') ↔
      ((∀ row ∈ keptRows incoming rows, (finalValues incoming row).fits) ∧
        ∀ row ∈ newRows standardId last (newEntries incoming), row.fits) ∧
      (∀ row ∈ newRows standardId last (newEntries incoming),
        ∀ old ∈ db.rows .jobProcess, old.id ≠ row.id) ∧
      NoCollision incoming rows ∧ Unreferenced incoming rows db := by
  have hinserts : (∃ db₁, Dml.applyAll
      ((newRows standardId last (newEntries incoming)).map addRow) db = .ok db₁) ↔
      (schema.shape .jobProcess).Valid
        (db.rows .jobProcess ++ newRows standardId last (newEntries incoming)) := by
    refine Dml.exists_inserts (C := schema) (i := .jobProcess) (fun row _ ref href => ?_)
      fun row hrow => ?_
    · rw [List.mem_singleton.mp href]
      exact fun heq => (by cases heq)
    · refine Database.refsMet_iff.mpr fun ref href => ?_
      rw [List.mem_singleton.mp href, jobStandardId_newRows hrow]
      exact ⟨found, hfound⟩
  -- the rows that the deletions find
  have hstored : ∀ {db₁ db₂ : Db}, db₁.rows .jobProcess =
      db.rows .jobProcess ++ newRows standardId last (newEntries incoming) →
      Dml.applyAll ((byId (changedRows incoming rows)).map (saveRow incoming)) db₁ = .ok db₂ →
      ∀ row ∈ rows, ∃ other ∈ db₂.rows .jobProcess, other.id = row.id := by
    intro db₁ db₂ hrows₁ h₂ row hrow
    rw [((applyAll_saveRows (fun row h => changedRows_stored hrows hrows₁ h)
      (nodup_changedRows hrows)).2 db₂ h₂).1, hrows₁]
    refine ⟨_, List.mem_map.mpr ⟨row, List.mem_append_left _ (hrows.mem_iff.mp hrow).1, rfl⟩, ?_⟩
    split <;> simp
  have hrecords : ∀ {db₁ db₂ : Db},
      Dml.applyAll ((newRows standardId last (newEntries incoming)).map addRow) db = .ok db₁ →
      Dml.applyAll ((byId (changedRows incoming rows)).map (saveRow incoming)) db₁ = .ok db₂ →
      db₂.table .workProcessRecord = db.table .workProcessRecord := by
    intro db₁ db₂ h₁ h₂
    obtain ⟨hrows₁, -, hothers₁⟩ := applyAll_addRows.mp h₁
    have hothers₂ := ((applyAll_saveRows (fun row h => changedRows_stored hrows hrows₁ h)
      (nodup_changedRows hrows)).2 db₂ h₂).2
    exact (hothers₂ _ (by decide)).trans (hothers₁ _ (by decide))
  constructor
  · rintro ⟨db', h⟩
    obtain ⟨db₁, h₁, h⟩ := Dml.applyAll_append_eq_ok.mp h
    obtain ⟨db₂, h₂, h₃⟩ := Dml.applyAll_append_eq_ok.mp h
    have hrows₁ := (applyAll_addRows.mp h₁).1
    have hfresh : ∀ row ∈ newRows standardId last (newEntries incoming),
        ∀ old ∈ db.rows .jobProcess, old.id ≠ row.id :=
      fun row hrow old hold => newRows_fresh hrows₁ hold hrow
    obtain ⟨hfitsNew, hnewNew, hnewOld⟩ := (valid_newRows_iff hfresh).mp (hinserts.mp ⟨db₁, h₁⟩)
    have hnewRows : ∀ p ∈ newEntries incoming, ∀ row ∈ rows, row.sequence ≠ p.sequence := by
      intro p hp row hrow
      obtain ⟨hrow, hstandard⟩ := hrows.mem_iff.mp hrow
      exact hnewOld p hp row hrow hstandard
    obtain ⟨hfitsKept, hnewKept, hdropped, hkept⟩ :=
      (exists_saveRows_iff hrows hrows₁ hnewRows).mp ⟨db₂, h₂⟩
    have hunreferenced :=
      (exists_dropRows_iff hrows (hstored hrows₁ h₂) (hrecords h₁ h₂)).mp ⟨db', h₃⟩
    refine ⟨⟨hfitsKept, hfitsNew⟩, hfresh, ⟨hnewRows, hnewNew, hnewKept, hdropped, ?_, ?_⟩,
      hunreferenced⟩
    · exact fun row hrow other hother hlt => (hkept row hrow other hother hlt).1
    · exact fun row hrow other hother hlt => (hkept row hrow other hother hlt).2
  · rintro ⟨⟨hfitsKept, hfitsNew⟩, hfresh, hcollision, hunreferenced⟩
    obtain ⟨db₁, h₁⟩ := hinserts.mpr ((valid_newRows_iff hfresh).mpr
      ⟨hfitsNew, hcollision.newNew, fun p hp row hrow hstandard =>
        hcollision.newOld p hp row (hrows.mem_iff.mpr ⟨hrow, hstandard⟩)⟩)
    have hrows₁ := (applyAll_addRows.mp h₁).1
    obtain ⟨db₂, h₂⟩ := (exists_saveRows_iff hrows hrows₁ hcollision.newOld).mpr
      ⟨hfitsKept, hcollision.newKept, hcollision.dropped, fun row hrow other hother hlt =>
        ⟨hcollision.later row hrow other hother hlt, hcollision.kept row hrow other hother hlt⟩⟩
    obtain ⟨db', h₃⟩ :=
      (exists_dropRows_iff hrows (hstored hrows₁ h₂) (hrecords h₁ h₂)).mpr hunreferenced
    exact ⟨db', Dml.applyAll_append_eq_ok.mpr
      ⟨db₁, h₁, Dml.applyAll_append_eq_ok.mpr ⟨db₂, h₂, h₃⟩⟩⟩

/-- Nothing is pending exactly if the list asks for what is there already. -/
theorem syncPending_eq_nil_iff :
    syncPending standardId last incoming rows = [] ↔ NothingToSync incoming rows := by
  have hnew : newRows standardId last (newEntries incoming) = [] ↔ newEntries incoming = [] := by
    cases newEntries incoming <;> simp [newRows]
  rw [syncPending, List.append_eq_nil_iff, List.append_eq_nil_iff, List.map_eq_nil_iff,
    List.map_eq_nil_iff, List.map_eq_nil_iff, hnew]
  simp only [List.eq_nil_iff_forall_not_mem (l := droppedRows _ _),
    List.eq_nil_iff_forall_not_mem (l := changedRows _ _), mem_droppedRows, mem_changedRows,
    mem_keptRows, NothingToSync]
  constructor
  · rintro ⟨hdropped, hchanged, hentries⟩
    refine ⟨hentries, fun row hrow => ?_⟩
    have hnamed : row.id ∈ namedIds incoming := by
      by_contra hunnamed
      exact hdropped row ⟨hrow, hunnamed⟩
    exact ⟨hnamed, by_contra fun hne => hchanged row ⟨⟨hrow, hnamed⟩, hne⟩⟩
  · rintro ⟨hentries, hsame⟩
    exact ⟨fun row h => h.2 (hsame row h.1).1, fun row h => h.2 (hsame row h.1.1).2, hentries⟩

end Flush

/-! ## Which requests are answered -/

section Request

variable {env : Env} {w : World V D} {standardId : ℤ} {found : JobStandard}
  {incoming : List ProcessUpsertRequest} {rows rows' : List JobProcess}

/-- The rows in the order of the table are one way to list the processes. -/
theorem areProcesses_standardRows (db : Db) (standardId : ℤ) :
    AreProcesses db standardId (standardRows db standardId) := .refl _

/-- The order in which the processes were read plays no role. -/
theorem Acceptable.of_mem_iff (h : Acceptable env w found incoming rows)
    (hmem : ∀ row, row ∈ rows ↔ row ∈ rows') : Acceptable env w found incoming rows' := by
  have hkept : ∀ row, row ∈ keptRows incoming rows ↔ row ∈ keptRows incoming rows' := fun row => by
    rw [mem_keptRows, mem_keptRows, hmem]
  have hdropped : ∀ row, row ∈ droppedRows incoming rows ↔ row ∈ droppedRows incoming rows' :=
    fun row => by rw [mem_droppedRows, mem_droppedRows, hmem]
  obtain ⟨hnamed, ⟨hwritable, hreadable, hfitsKept, hfitsNew, hfresh⟩, hcollision,
    hunreferenced⟩ := h
  obtain ⟨hnewOld, hnewNew, hnewKept, hdroppedRows, hlater, hfinal⟩ := hcollision
  simp only [NamesRows, NothingToSync, Unreferenced, hmem, hkept, hdropped] at *
  exact ⟨hnamed, ⟨hwritable, hreadable, hfitsKept, hfitsNew, hfresh⟩,
    ⟨hnewOld, hnewNew, hnewKept, hdroppedRows, hlater, hfinal⟩, hunreferenced⟩

/-- **Which requests are answered.** -/
theorem serve_syncProcesses_iff :
    (∃ resp, (serve env (syncProcesses standardId incoming) w).1 = .ok resp) ↔
      ∃ found, w.db.find? .jobStandard standardId = some found ∧
        Acceptable env w found incoming (standardRows w.db standardId) := by
  have hrows := processesOf_perm standardId (env.rowOrder (w.ticks + 1)) w.db
  have hmem : ∀ row, row ∈ processesOf standardId (env.rowOrder (w.ticks + 1)) w.db ↔
      row ∈ standardRows w.db standardId := fun row => List.Perm.mem_iff hrows
  constructor
  · rintro ⟨resp, h⟩
    obtain ⟨found, hfound, hnames, hmay, hreadable, htaken⟩ := serve_syncProcesses_ok h
    obtain ⟨⟨hfitsKept, hfitsNew⟩, hfresh, hcollision, hunreferenced⟩ :=
      (applyAll_syncStatements_iff hrows hfound).mp ⟨_, htaken⟩
    obtain rfl : found.id = standardId := Table.find?_key hfound
    refine ⟨found, hfound, Acceptable.of_mem_iff ⟨hnames, ⟨fun hreadOnly => ?_, hreadable,
      hfitsKept, hfitsNew, hfresh⟩, hcollision, hunreferenced⟩ hmem⟩
    exact syncPending_eq_nil_iff.mp (hmay hreadOnly)
  · rintro ⟨found, hfound, h⟩
    obtain rfl : found.id = standardId := Table.find?_key hfound
    have h' := h.of_mem_iff fun row => (hmem row).symm
    obtain ⟨hwritable, ⟨fields, hcontext⟩, hfitsKept, hfitsNew, hfresh⟩ := h'.storable
    obtain ⟨db', htaken⟩ := (applyAll_syncStatements_iff hrows hfound).mpr
      ⟨⟨hfitsKept, hfitsNew⟩, hfresh, h'.collision, h'.unreferenced⟩
    exact serve_syncProcesses_of_taken hfound rfl h'.named hcontext
      (fun hreadOnly => syncPending_eq_nil_iff.mpr (hwritable hreadOnly)) htaken

/-! ## Lists of distinct ids and sequences -/

/-- **The sequences a list may use**: an entry takes the sequence of an old process only
if the list keeps that process, and the entry names this process or one with a greater
id. -/
def NoOldSequenceTaken (incoming : List ProcessUpsertRequest) (rows : List JobProcess) : Prop :=
  ∀ p ∈ incoming, ∀ row ∈ rows, row.sequence = p.sequence →
    row.id ∈ namedIds incoming ∧ ∃ id, p.id = some id ∧ row.id ≤ id

/-- Where ids are not repeated, the entry that names a row decides. -/
theorem finalValues_of_mem (hids : (namedIds incoming).Nodup) {p : ProcessUpsertRequest}
    {row : JobProcess} (hp : p ∈ incoming) (hid : p.id = some row.id) :
    finalValues incoming row = p.assign row := by
  induction incoming with
  | nil => exact absurd hp List.not_mem_nil
  | cons q rest ih =>
      rw [finalValues_cons]
      obtain rfl | hp := List.mem_cons.mp hp
      · have hrest : (p.assign row).id ∉ namedIds rest := by
          rw [namedIds, List.filterMap_cons_some hid] at hids
          exact (List.nodup_cons.mp hids).1
        rw [if_pos hid, finalValues_of_unnamed hrest]
      · have hmem : row.id ∈ namedIds rest := List.mem_filterMap.mpr ⟨p, hp, hid⟩
        cases hq : q.id with
        | none =>
            rw [namedIds, List.filterMap_cons_none hq] at hids
            rw [if_neg (by simp), ih hids hp]
        | some id =>
            rw [namedIds, List.filterMap_cons_some hq] at hids
            obtain ⟨hnot, hids⟩ := List.nodup_cons.mp hids
            have hne : (some id : Option ℤ) ≠ some row.id := by
              rintro heq
              exact hnot (Option.some.inj heq ▸ hmem)
            rw [if_neg hne, ih hids hp]

/-- A row that is kept has an entry. -/
theorem exists_entry (hids : (namedIds incoming).Nodup) {row : JobProcess}
    (h : row ∈ keptRows incoming rows) :
    ∃ p ∈ incoming, p.id = some row.id ∧ (finalValues incoming row).sequence = p.sequence := by
  obtain ⟨p, hp, hid⟩ := List.mem_filterMap.mp (mem_keptRows.mp h).2
  exact ⟨p, hp, hid, by rw [finalValues_of_mem hids hp hid]; rfl⟩

/-- Entries with one sequence are one entry. -/
theorem eq_of_sequence (hsequences : (incoming.map ProcessUpsertRequest.sequence).Nodup)
    {p q : ProcessUpsertRequest} (hp : p ∈ incoming) (hq : q ∈ incoming)
    (h : p.sequence = q.sequence) : p = q :=
  List.inj_on_of_nodup_map hsequences hp hq h

/-- **Which lists do not collide**, if ids and sequences are not repeated. -/
theorem noCollision_iff (hids : (namedIds incoming).Nodup)
    (hsequences : (incoming.map ProcessUpsertRequest.sequence).Nodup)
    (hnames : NamesRows incoming rows) :
    NoCollision incoming rows ↔ NoOldSequenceTaken incoming rows := by
  constructor
  · intro h p hp row hrow hsequence
    cases hid : p.id with
    | none =>
        have hnew : p ∈ newEntries incoming := List.mem_filter.mpr ⟨hp, by rw [hid]; rfl⟩
        exact absurd hsequence (h.newOld p hnew row hrow)
    | some id =>
        have hmem : id ∈ namedIds incoming := List.mem_filterMap.mpr ⟨p, hp, hid⟩
        obtain ⟨own, hown, rfl⟩ := hnames id hmem
        have hown' := mem_keptRows.mpr ⟨hown, hmem⟩
        have hfinal : (finalValues incoming own).sequence = row.sequence := by
          rw [finalValues_of_mem hids hp hid]
          exact hsequence.symm
        -- rows that are dropped are still there when the values of the others change
        have hnamed : row.id ∈ namedIds incoming := by
          by_contra hdropped
          exact h.dropped own hown' row (mem_droppedRows.mpr ⟨hrow, hdropped⟩) hfinal
        refine ⟨hnamed, own.id, rfl, le_of_not_gt fun hlt => ?_⟩
        -- updates go by id: a sequence is free only if its row had its turn
        exact h.later own hown' row (mem_keptRows.mpr ⟨hrow, hnamed⟩) hlt hfinal
  · intro h
    refine ⟨fun p hp row hrow hsequence => ?_, ?_, fun p hp row hrow hsequence => ?_,
      fun row hrow other hother hsequence => ?_, fun row hrow other hother hlt hsequence => ?_,
      fun row hrow other hother hlt hsequence => ?_⟩
    · obtain ⟨hp, hnone⟩ := List.mem_filter.mp hp
      obtain ⟨-, id, hid, -⟩ := h p hp row hrow hsequence
      rw [hid] at hnone
      cases hnone
    · exact hsequences.sublist (List.filter_sublist.map _)
    · obtain ⟨hp, hnone⟩ := List.mem_filter.mp hp
      obtain ⟨q, hq, hid, hq'⟩ := exists_entry hids hrow
      obtain rfl := eq_of_sequence hsequences hq hp (hq'.symm.trans hsequence)
      rw [hid] at hnone
      cases hnone
    · obtain ⟨hother, hdropped⟩ := mem_droppedRows.mp hother
      obtain ⟨q, hq, -, hq'⟩ := exists_entry hids hrow
      exact hdropped (h q hq other hother (hsequence.symm.trans hq')).1
    · obtain ⟨q, hq, hid, hq'⟩ := exists_entry hids hrow
      obtain ⟨-, id, hid', hle⟩ :=
        h q hq other (mem_keptRows.mp hother).1 (hsequence.symm.trans hq')
      obtain rfl : row.id = id := Option.some.inj (hid.symm.trans hid')
      exact absurd hlt (not_lt_of_ge hle)
    · obtain ⟨q, hq, hid, hq'⟩ := exists_entry hids hrow
      obtain ⟨q', hqmem, hid', hsame⟩ := exists_entry hids hother
      obtain rfl := eq_of_sequence hsequences hq hqmem (hq'.symm.trans (hsequence.trans hsame))
      exact absurd (Option.some.inj (hid.symm.trans hid')) hlt.ne

/-- **A list of distinct ids and sequences is accepted** exactly if its values fit and
no entry takes an old sequence that is not free yet: it may be that of a process the
list keeps, and the entry names this process or one with a greater id. The hypotheses
are those of an ordinary request: the standard is there, its own rows are named, and
nothing refers to the rows that are dropped. -/
theorem sync_accepts_iff (hfound : w.db.find? .jobStandard standardId = some found)
    (hids : (namedIds incoming).Nodup)
    (hnames : NamesRows incoming (standardRows w.db standardId))
    (hsequences : (incoming.map ProcessUpsertRequest.sequence).Nodup)
    (hdropped : Unreferenced incoming (standardRows w.db standardId) w.db) :
    (∃ resp, (serve env (syncProcesses standardId incoming) w).1 = .ok resp) ↔
      Storable env w found incoming (standardRows w.db standardId) ∧
        NoOldSequenceTaken incoming (standardRows w.db standardId) := by
  rw [serve_syncProcesses_iff, ← noCollision_iff hids hsequences hnames]
  constructor
  · rintro ⟨found', hfound', h⟩
    obtain rfl := Option.some.inj (hfound.symm.trans hfound')
    exact ⟨h.storable, h.collision⟩
  · rintro ⟨hstorable, hcollision⟩
    exact ⟨found, hfound, hnames, hstorable, hcollision, hdropped⟩

end Request

/-- The one step of the sample, under another name. -/
def renamed : List ProcessUpsertRequest :=
  [{ id := some 1, name := "Checking", sequence := 1, processTimeSeconds := 60 }]

/-- The one process of the sample standard can be renamed. -/
theorem sync_accepts_iff_sample :
    (∃ resp, (serve still (syncProcesses 1 renamed)
        (World.fresh Db.sample () : World Unit Unit)).1 = .ok resp) ↔
      Storable still (World.fresh Db.sample () : World Unit Unit)
          ⟨1, 1, "Packing", true, none, 8, 1, none, none, none, true⟩ renamed
          (standardRows Db.sample 1) ∧
        NoOldSequenceTaken renamed (standardRows Db.sample 1) :=
  sync_accepts_iff (by decide +kernel) (by decide) (by decide +kernel) (by decide)
    (by unfold Unreferenced; decide +kernel)

/-- A standard with two steps. -/
def Db.twoSteps : Db := Db.ofStatements
  [.insert .company ⟨1, "Workshop", none, true, none, none, none, none, none⟩,
    .insert .jobStandard ⟨1, 1, "Packing", true, none, 8, 1, none, none, none, true⟩,
    .insert .jobProcess ⟨1, 1, "Sorting", 1, none, none, none, none, 0⟩,
    .insert .jobProcess ⟨2, 1, "Wrapping", 2, none, none, none, none, 0⟩]

/-- The two steps in the other order. -/
def swapped : List ProcessUpsertRequest :=
  [{ id := some 1, name := "Sorting", sequence := 2, processTimeSeconds := 0 },
    { id := some 2, name := "Wrapping", sequence := 1, processTimeSeconds := 0 }]

/-- **Two steps cannot change places.** -/
theorem swap_refused :
    Db.twoSteps.find? .jobStandard 1 =
        some ⟨1, 1, "Packing", true, none, 8, 1, none, none, none, true⟩ ∧
      (namedIds swapped).Nodup ∧ NamesRows swapped (standardRows Db.twoSteps 1) ∧
      (swapped.map ProcessUpsertRequest.sequence).Nodup ∧
      Unreferenced swapped (standardRows Db.twoSteps 1) Db.twoSteps ∧
      ∀ resp, (serve still (syncProcesses 1 swapped)
        (World.fresh Db.twoSteps () : World Unit Unit)).1 ≠ .ok resp := by
  refine ⟨by decide +kernel, by decide, by decide +kernel, by decide, ?_, fun resp h => ?_⟩
  · unfold Unreferenced
    decide +kernel
  · obtain ⟨found, -, haccepted⟩ := serve_syncProcesses_iff.mp ⟨resp, h⟩
    -- when the first step moves, the second one is still in its place
    have hlater := haccepted.collision.later
      ⟨1, 1, "Sorting", 1, none, none, none, none, 0⟩ (by decide +kernel)
      ⟨2, 1, "Wrapping", 2, none, none, none, none, 0⟩ (by decide +kernel) (by decide)
    exact hlater (by decide)

end Rooti
