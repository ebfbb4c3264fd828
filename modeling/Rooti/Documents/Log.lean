import Rooti.Documents.Steps
import Rooti.Lib.Runs

/-!
# The log of caregiver documents

Uploads, downloads and deletions are logged, and no code changes a log row.  But
log rows reference their document with `ON DELETE CASCADE`: a deletion takes the
whole log of its document along, its own entry included
(`document_log_lost`), and so does the removal of a relation.  In read-only mode
a download is answered without being logged.

While no request takes logged documents away, the log is append-only and holds
one row for every success (`document_log_complete`).

## Main definitions

* `LogEntry`, `DocumentOp.logged` — what the log says, and what it should say
* `LogHistory` — the successes of a run
* `KeepsLog` — requests that take no logged document away

## What carries the proof

`documentLog_step` reads off the step relation of a request what it adds to the log: one
entry for a success, nothing for a failure. `KeepsLog` excludes the requests for which
that is not so: deletions of a document, removals of a relation whose documents have
entries in the log, and downloads in read-only mode, which are answered without a
commit. The run then appends what its steps append. Ids are drawn from sequences, so no
upload gets the id of an older document and its log (`IdsDrawn`).
-/

namespace Rooti

open Relational Program

variable {V D : Type}

/-- What a log row says: which document, who, and what. -/
abbrev LogEntry := ℤ × ℤ × CaregiverDocumentActionType

/-- What a log row says. -/
def CaregiverDocumentLog.entry (l : CaregiverDocumentLog) : LogEntry :=
  (l.documentId, l.userId, l.actionType)

/-- What the log should say of a request and its answer. -/
def DocumentOp.logged : DocumentOp → Except Err DocumentReply → List LogEntry
  | .call actorUserId (.upload ..), .ok (.uploaded response) =>
      [(response.id, actorUserId, .upload)]
  | .call actorUserId (.loadForDownload documentId), .ok _ =>
      [(documentId, actorUserId, .download)]
  | .call actorUserId (.delete documentId), .ok _ => [(documentId, actorUserId, .delete)]
  | _, _ => []

/-- The state after a request. -/
def DocumentOp.step (env : Env) (files : StorageService D) (op : DocumentOp) (w : World V D) :
    World V D :=
  (serve env (op.script files) w).2

/-- **The successes of a run**, in order. -/
def LogHistory (env : Env) (files : StorageService D) :
    List DocumentOp → World V D → List LogEntry
  | [], _ => []
  | op :: ops, w =>
      op.logged (serve env (op.script files) w).1 ++
        LogHistory env files ops (op.step env files w)

/-- **The request takes no logged document away**, and no download is answered
without being logged. -/
def KeepsLog (env : Env) (files : StorageService D) (op : DocumentOp) (w : World V D) : Prop :=
  match op with
  | .call actorUserId (.loadForDownload documentId) =>
      DocumentCall.Allowed w.db actorUserId (.loadForDownload documentId) →
        env.settings.appReadOnly = false
  | .call actorUserId (.delete documentId) =>
      DocumentCall.Allowed w.db actorUserId (.delete documentId) →
        ∀ doc, w.db.find? .caregiverDocument documentId = some doc →
          ∀ disk, files.delete doc.filename w.disk ≠ (.ok (), disk)
  | .removeRelation caregiverUserId relationId =>
      OwnRelation w.db caregiverUserId relationId → env.settings.appReadOnly = false →
        ∀ l ∈ w.db.rows .caregiverDocumentLog, ∀ d ∈ w.db.rows .caregiverDocument,
          l.documentId = d.id → d.relationId ≠ relationId
  | _ => True

variable {env : Env} {files : StorageService D}

/-- **One request appends to the log** what it should. -/
theorem documentLog_step {op : DocumentOp} {w : World V D} (hids : IdsDrawn w)
    (hkeeps : KeepsLog env files op w) :
    IdsDrawn (op.step env files w) ∧
      ∃ added, (op.step env files w).db.rows .caregiverDocumentLog =
          w.db.rows .caregiverDocumentLog ++ added ∧
        added.map CaregiverDocumentLog.entry =
          op.logged (serve env (op.script files) w).1 := by
  have hstep : DocumentStep env none files w op (serve env (op.script files) w).1
      (serve env (op.script files) w).2 := serve_documentStep hids op
  refine ⟨hstep.idsDrawn hids fun t => serve_seq_le _ t, ?_⟩
  have hsame : (op.step env files w).db = w.db →
      op.logged (serve env (op.script files) w).1 = [] →
      ∃ added, (op.step env files w).db.rows .caregiverDocumentLog =
          w.db.rows .caregiverDocumentLog ++ added ∧
        added.map CaregiverDocumentLog.entry =
          op.logged (serve env (op.script files) w).1 := fun hdb hnothing =>
    ⟨[], by rw [hdb, List.append_nil], hnothing.symm⟩
  unfold DocumentOp.step at hsame ⊢
  generalize serve env (op.script files) w = served at hstep hsame ⊢
  obtain ⟨r, w'⟩ := served
  dsimp only at hstep hsame ⊢
  cases hstep with
  | refused db => exact hsame db (by rcases op with ⟨_, _ | _ | _ | _⟩ | _ <;> rfl)
  | listed db => exact hsame db rfl
  | storeFailed _ _ _ db => exact hsame db rfl
  | uploadLost _ _ _ _ db => exact hsame db rfl
  | uploaded store id seq documents logs answer =>
      exact ⟨_, logs, by rw [DocumentOp.logged, answer]; rfl⟩
  | downloaded writable id seq documents logs => exact ⟨_, logs, rfl⟩
  | downloadUnlogged allowed readOnly =>
      cases readOnly.symm.trans (hkeeps allowed)
  | eraseFailed _ _ _ _ db => exact hsame db rfl
  | deletionLost allowed _ found erase => exact absurd erase (hkeeps allowed _ found _)
  | deleted allowed found erase => exact absurd erase (hkeeps allowed _ found _)
  | relationRemoved own _ writable _ _ _ logs =>
      exact ⟨[], by rw [logs.2 (hkeeps own writable), List.append_nil], rfl⟩
  | removalUnsaved _ db => exact hsame db rfl

/-- **The log is append-only and complete**, as long as no request takes a logged
document away: at the end of a run there are the old entries, unchanged and in their
order, and after them one for each success of the run, in the order of the requests. -/
theorem document_log_complete (env : Env) (files : StorageService D) (ops : List DocumentOp)
    (w₀ : World V D) (h₀ : IdsDrawn w₀)
    (hops : Runs.Guarded (DocumentOp.step env files) (KeepsLog env files) ops w₀) :
    ∃ added, (Runs.run (DocumentOp.step env files) ops w₀).db.rows .caregiverDocumentLog =
        w₀.db.rows .caregiverDocumentLog ++ added ∧
      added.map CaregiverDocumentLog.entry = LogHistory env files ops w₀ := by
  induction ops generalizing w₀ with
  | nil => exact ⟨[], (List.append_nil _).symm, rfl⟩
  | cons op ops ih =>
      obtain ⟨hids, added, hrows, hentries⟩ := documentLog_step h₀ hops.1
      obtain ⟨added', hrows', hentries'⟩ := ih _ hids hops.2
      refine ⟨added ++ added', ?_, ?_⟩
      · rw [Runs.run_cons, hrows', hrows, List.append_assoc]
      · rw [List.map_append, hentries, hentries']
        rfl

/-- A document uploaded, listed, and downloaded by an administrator. -/
theorem document_log_complete_sample :
    ∃ added, (Runs.run (DocumentOp.step still .memory)
        [sampleUpload, .call 3 (.listByRelation 1), .call 1 (.loadForDownload 1)]
        World.caregiverSample).db.rows .caregiverDocumentLog =
          World.caregiverSample.db.rows .caregiverDocumentLog ++ added ∧
      added.map CaregiverDocumentLog.entry = LogHistory still .memory
        [sampleUpload, .call 3 (.listByRelation 1), .call 1 (.loadForDownload 1)]
        World.caregiverSample :=
  document_log_complete still .memory _ _ idsDrawn_caregiverSample
    ⟨trivial, trivial, fun _ => rfl, trivial⟩

/-- **A deletion leaves no trace in the log**: the entry of the upload is removed
with the document, and the entry of the deletion is never there. -/
theorem document_log_lost :
    ¬∃ added, (Runs.run (DocumentOp.step still .memory) [sampleUpload, .call 3 (.delete 1)]
        World.caregiverSample).db.rows .caregiverDocumentLog =
          World.caregiverSample.db.rows .caregiverDocumentLog ++ added ∧
      added.map CaregiverDocumentLog.entry = LogHistory still .memory
        [sampleUpload, .call 3 (.delete 1)] World.caregiverSample := by
  rintro ⟨added, hrows, hentries⟩
  have hhistory : LogHistory still .memory [sampleUpload, .call 3 (.delete 1)]
      World.caregiverSample = [(1, 3, .upload), (1, 3, .delete)] := by decide +kernel
  have hlogs : (Runs.run (DocumentOp.step still .memory) [sampleUpload, .call 3 (.delete 1)]
      World.caregiverSample).db.rows .caregiverDocumentLog = [] := by decide +kernel
  obtain rfl : added = [] := (List.append_eq_nil_iff.mp (hrows.symm.trans hlogs)).2
  cases hentries.trans hhistory

end Rooti
