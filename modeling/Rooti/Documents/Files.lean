import Rooti.Documents.Steps
import Rooti.Lib.Runs

/-!
# Documents and their files

A document row names a file of the storage.  Rows change when a request commits,
files at once, and nothing brings the two back together: an upload whose flush or
commit fails leaves a file without a row, a deletion whose commit fails (or that
is served in read-only mode) a row without a file, and the removal of a relation
takes rows away and leaves their files (`documents_disagree`).

While none of this happens, rows and files agree after every request
(`documents_agree`), whatever else fails.

## Main definitions

* `Agrees` — every row has its file, every file of an upload its row
* `FaultyRequest` — a request and the failure it meets
* `KeepsFiles` — requests none of whose failures come between the two stores
* `Consistent` — the invariant

## What carries the proof

The storage is known by two laws only (`StorageService.Lawful`): a store that succeeds
adds one new key, and a deletion that succeeds removes the one it is asked for.
`consistent_step` goes through the outcomes of a request (`DocumentStep`). In most of
them either both stores are as before, or both have changed for the same key. The others
are those that `KeepsFiles` excludes: a file has been stored or removed, and the
database has not followed.

Besides the agreement itself the invariant says that no two documents share a file, as
the deletion of one would take that of the other along, and that files of others are
left alone.
-/

namespace Rooti

open Relational Program CaregiverDocumentService

variable {V D : Type}

/-- **Documents and files agree**: every row names a file, and every file that is
not one of the `foreign` ones is named by a row. -/
def Agrees (has : D → String → Prop) (foreign : String → Prop) (w : World V D) : Prop :=
  (∀ d ∈ w.db.rows .caregiverDocument, has w.disk d.filename) ∧
    ∀ key, has w.disk key → ¬foreign key →
      ∃ d ∈ w.db.rows .caregiverDocument, d.filename = key

/-- A request and the failure of the database it meets. -/
structure FaultyRequest where
  fault : Option Fault := none
  op : DocumentOp

/-- The state after a request. -/
def FaultyRequest.step (env : Env) (files : StorageService D) (r : FaultyRequest)
    (w : World V D) : World V D :=
  (serveFaulty env r.fault (r.op.script files) w).2

/-- **The request does not end between the two stores**: where it stores or removes
a file, the database takes the change; where the storage fails, it has changed
nothing; and no relation with documents is removed. -/
def KeepsFiles (env : Env) (files : StorageService D) (has : D → String → Prop)
    (r : FaultyRequest) (w : World V D) : Prop :=
  match r.op with
  | .call actorUserId (.upload relationId typeId originalFilename file size contentType) =>
      DocumentCall.Allowed w.db actorUserId
          (.upload relationId typeId originalFilename file size contentType) →
        ¬StruckReading r.fault w (callReads w.db actorUserId) →
        match storeCall files relationId originalFilename file size contentType w.disk with
        | (.ok uploaded, _) => TakesUpload env r.fault w uploaded
        | (.error _, disk) => ∀ key, has disk key ↔ has w.disk key
  | .call actorUserId (.delete documentId) =>
      DocumentCall.Allowed w.db actorUserId (.delete documentId) →
        ¬StruckReading r.fault w (callReads w.db actorUserId) →
        ∀ doc, w.db.find? .caregiverDocument documentId = some doc →
          match files.delete doc.filename w.disk with
          | (.ok _, _) => TakesDeletion env r.fault w
          | (.error _, disk) => ∀ key, has disk key ↔ has w.disk key
  | .removeRelation caregiverUserId relationId =>
      OwnRelation w.db caregiverUserId relationId → ¬StruckReading r.fault w 2 →
        env.settings.appReadOnly = false → (∀ e, r.fault ≠ some (.commit e)) →
        ∀ d ∈ w.db.rows .caregiverDocument, d.relationId ≠ relationId
  | _ => True

/-- **What the requests preserve**: the two stores agree, no two rows share a file,
and the foreign files stay out of it. -/
structure Consistent (has : D → String → Prop) (foreign : String → Prop) (w : World V D) :
    Prop where
  ids : IdsDrawn w
  agrees : Agrees has foreign w
  distinct : ∀ d ∈ w.db.rows .caregiverDocument, ∀ d' ∈ w.db.rows .caregiverDocument,
    d.filename = d'.filename → d = d'
  foreignKept : ∀ key, foreign key → has w.disk key
  foreignApart : ∀ d ∈ w.db.rows .caregiverDocument, ¬foreign d.filename

section Step

variable {env : Env} {files : StorageService D} {has : D → String → Prop}
  {foreign : String → Prop} {w w' : World V D}

/-- Rows and files as before. -/
theorem Consistent.of_same (h : Consistent has foreign w) (hids : IdsDrawn w')
    (hdocs : w'.db.rows .caregiverDocument = w.db.rows .caregiverDocument)
    (hdisk : ∀ key, has w'.disk key ↔ has w.disk key) : Consistent has foreign w' where
  ids := hids
  agrees := by
    constructor
    · intro d hd
      rw [hdocs] at hd
      exact (hdisk _).mpr (h.agrees.1 d hd)
    · intro key hkey hforeign
      rw [hdocs]
      exact h.agrees.2 key ((hdisk _).mp hkey) hforeign
  distinct := by
    rw [hdocs]
    exact h.distinct
  foreignKept := fun key hkey => (hdisk _).mpr (h.foreignKept key hkey)
  foreignApart := by
    rw [hdocs]
    exact h.foreignApart

/-- A file stored under a fresh key, and a row for it. -/
theorem Consistent.uploaded (h : Consistent has foreign w) (hids : IdsDrawn w')
    {d : CaregiverDocument} (hfresh : ¬has w.disk d.filename)
    (hdocs : w'.db.rows .caregiverDocument = w.db.rows .caregiverDocument ++ [d])
    (hdisk : ∀ key, has w'.disk key ↔ has w.disk key ∨ key = d.filename) :
    Consistent has foreign w' := by
  have hmem : ∀ d' ∈ w'.db.rows .caregiverDocument,
      d' ∈ w.db.rows .caregiverDocument ∨ d' = d := by
    intro d' hd'
    rw [hdocs, List.mem_append, List.mem_singleton] at hd'
    exact hd'
  -- a row of before names another file
  have hother : ∀ d' ∈ w.db.rows .caregiverDocument, d'.filename ≠ d.filename :=
    fun d' hd' e => hfresh (e ▸ h.agrees.1 d' hd')
  refine ⟨hids, ⟨fun d' hd' => ?_, fun key hkey hforeign => ?_⟩, fun d₁ h₁ d₂ h₂ e => ?_,
    fun key hkey => (hdisk key).mpr (.inl (h.foreignKept key hkey)), fun d' hd' => ?_⟩
  · obtain hd' | rfl := hmem d' hd'
    · exact (hdisk _).mpr (.inl (h.agrees.1 d' hd'))
    · exact (hdisk _).mpr (.inr rfl)
  · rw [hdocs]
    obtain hkey | rfl := (hdisk key).mp hkey
    · obtain ⟨d', hd', hname⟩ := h.agrees.2 key hkey hforeign
      exact ⟨d', List.mem_append_left _ hd', hname⟩
    · exact ⟨d, List.mem_append_right _ (List.mem_singleton.mpr rfl), rfl⟩
  · obtain h₁ | rfl := hmem d₁ h₁
    · obtain h₂ | rfl := hmem d₂ h₂
      · exact h.distinct d₁ h₁ d₂ h₂ e
      · exact absurd e (hother d₁ h₁)
    · obtain h₂ | rfl := hmem d₂ h₂
      · exact absurd e.symm (hother d₂ h₂)
      · rfl
  · obtain hd' | rfl := hmem d' hd'
    · exact h.foreignApart d' hd'
    · exact fun hforeign => hfresh (h.foreignKept _ hforeign)

/-- A row removed together with its file. -/
theorem Consistent.deleted (h : Consistent has foreign w) (hids : IdsDrawn w')
    {d : CaregiverDocument} (hd : d ∈ w.db.rows .caregiverDocument)
    (hdocs : w'.db.rows .caregiverDocument =
      (w.db.rows .caregiverDocument).filter fun d' => d'.id ≠ d.id)
    (hdisk : ∀ key, has w'.disk key ↔ has w.disk key ∧ key ≠ d.filename) :
    Consistent has foreign w' := by
  have hmem : ∀ d', d' ∈ w'.db.rows .caregiverDocument ↔
      d' ∈ w.db.rows .caregiverDocument ∧ d'.id ≠ d.id := by
    intro d'
    rw [hdocs, List.mem_filter, decide_eq_true_eq]
  refine ⟨hids, ⟨fun d' hd' => ?_, fun key hkey hforeign => ?_⟩, fun d₁ h₁ d₂ h₂ e => ?_,
    fun key hkey => ?_, fun d' hd' => h.foreignApart d' ((hmem d').mp hd').1⟩
  · obtain ⟨hd', hid⟩ := (hmem d').mp hd'
    refine (hdisk _).mpr ⟨h.agrees.1 d' hd', fun e => hid ?_⟩
    rw [h.distinct d' hd' d hd e]
  · obtain ⟨hkey, hne⟩ := (hdisk key).mp hkey
    obtain ⟨d', hd', hname⟩ := h.agrees.2 key hkey hforeign
    refine ⟨d', (hmem d').mpr ⟨hd', fun e => hne ?_⟩, hname⟩
    rw [← hname, Table.eq_of_key hd' hd e]
  · exact h.distinct d₁ ((hmem d₁).mp h₁).1 d₂ ((hmem d₂).mp h₂).1 e
  · refine (hdisk key).mpr ⟨h.foreignKept key hkey, ?_⟩
    rintro rfl
    exact h.foreignApart d hd hkey

/-- **One request keeps rows and files consistent**, if it does not end between the
two stores. -/
theorem consistent_step (hfiles : files.Lawful has) (r : FaultyRequest)
    (hkeeps : KeepsFiles env files has r w) (h : Consistent has foreign w) :
    Consistent has foreign (r.step env files w) := by
  obtain ⟨fault, op⟩ := r
  have hstep : DocumentStep env fault files w op (serveFaulty env fault (op.script files) w).1
      (FaultyRequest.step env files ⟨fault, op⟩ w) := serve_documentStep h.ids op
  have hids : IdsDrawn (FaultyRequest.step env files ⟨fault, op⟩ w) :=
    hstep.idsDrawn h.ids fun t => serveFaulty_seq_le _ t
  have hsame : ∀ {w' : World V D}, IdsDrawn w' → w'.db = w.db →
      (∀ key, has w'.disk key ↔ has w.disk key) → Consistent has foreign w' :=
    fun hids hdb hdisk => h.of_same hids (by rw [hdb]) hdisk
  generalize (serveFaulty env fault (op.script files) w).1 = answer at hstep
  generalize FaultyRequest.step env files ⟨fault, op⟩ w = w' at hstep hids ⊢
  cases hstep with
  | refused db disk => exact hsame hids db fun key => by rw [disk]
  | listed db disk => exact hsame hids db fun key => by rw [disk]
  -- the condition speaks of just these outcomes: a store that fails keeps its files
  | storeFailed allowed reads store db =>
      have hunchanged := hkeeps allowed reads
      rw [store] at hunchanged
      exact hsame hids db hunchanged
  -- a file without a document, which the condition excludes
  | uploadLost allowed reads store lost db =>
      have htakes := hkeeps allowed reads
      rw [store] at htakes
      exact absurd htakes lost
  | uploaded store id seq documents logs answer =>
      obtain ⟨hfresh, hdisk⟩ := hfiles.store store
      exact h.uploaded hids hfresh documents hdisk
  | downloaded _ _ _ documents _ disk =>
      exact h.of_same hids documents fun key => by rw [disk]
  | downloadUnlogged _ _ db disk => exact hsame hids db fun key => by rw [disk]
  | eraseFailed allowed reads found erase db =>
      have hunchanged := hkeeps allowed reads _ found
      rw [erase] at hunchanged
      exact hsame hids db hunchanged
  -- a document without its file, which the condition excludes as well
  | deletionLost allowed reads found erase lost db =>
      have htakes := hkeeps allowed reads _ found
      rw [erase] at htakes
      exact absurd htakes lost
  | deleted allowed found erase seq documents logs =>
      obtain ⟨hd, rfl⟩ := Table.find?_eq_some.mp found
      exact h.deleted hids hd documents (hfiles.delete (h.agrees.1 _ hd) erase)
  | relationRemoved own reads writable commit _ documents _ disk =>
      exact h.of_same hids (documents.2 (hkeeps own reads writable commit))
        fun key => by rw [disk]
  | removalUnsaved _ db disk => exact hsame hids db fun key => by rw [disk]

end Step

/-- **Documents and files agree after every request**, as long as no request ends
between the two stores. Each request may meet a failure of the database at any of its
commands; the storage may refuse at any time, as long as a refusal changes nothing. -/
theorem documents_agree (env : Env) (files : StorageService D) (has : D → String → Prop)
    (hfiles : files.Lawful has) (foreign : String → Prop) (w₀ : World V D)
    (h₀ : Consistent has foreign w₀) (requests : List FaultyRequest)
    (hkeeps : Runs.Guarded (FaultyRequest.step env files) (KeepsFiles env files has) requests
      w₀) :
    Agrees has foreign (Runs.run (FaultyRequest.step env files) requests w₀) :=
  (Runs.Guarded.invariant (fun r _ hr h => consistent_step hfiles r hr h) h₀ hkeeps).agrees

/-- In a fresh installation there are no documents and no files. -/
theorem consistent_caregiverSample :
    Consistent (fun keys key => key ∈ keys) (fun _ => False) World.caregiverSample where
  ids := idsDrawn_caregiverSample
  agrees := ⟨by decide +kernel, fun _ hkey => absurd hkey (by simp [World.caregiverSample,
    World.fresh])⟩
  distinct := by decide +kernel
  foreignKept := fun _ h => h.elim
  foreignApart := fun _ _ h => h

/-- A document uploaded and listed; the query of the listing fails. -/
theorem documents_agree_sample :
    Agrees (fun keys key => key ∈ keys) (fun _ => False)
      (Runs.run (FaultyRequest.step still .memory)
        [{ op := sampleUpload },
          { fault := some (.query 10 (.database "08006")), op := .call 3 (.listByRelation 1) }]
        World.caregiverSample) := by
  refine documents_agree still .memory _ StorageService.memory_lawful _ _
    consistent_caregiverSample _ ⟨fun _ _ => ⟨rfl, ?_, ?_, by decide +kernel⟩, trivial, trivial⟩
  · rintro e ⟨⟩
  · rintro e ⟨⟩

/-- **Files and rows part**: the removal of a relation leaves the file of its
document, an upload whose commit fails leaves a file without a row, and a deletion
whose commit fails a row without a file. -/
theorem documents_disagree :
    ¬Agrees (fun keys key => key ∈ keys) (fun _ => False)
        (Runs.run (FaultyRequest.step still .memory)
          [{ op := sampleUpload }, { op := .removeRelation 3 1 }] World.caregiverSample) ∧
      ¬Agrees (fun keys key => key ∈ keys) (fun _ => False)
        (Runs.run (FaultyRequest.step still .memory)
          [{ fault := some (.commit (.database "08006")), op := sampleUpload }]
          World.caregiverSample) ∧
      ¬Agrees (fun keys key => key ∈ keys) (fun _ => False)
        (Runs.run (FaultyRequest.step still .memory)
          [{ op := sampleUpload },
            { fault := some (.commit (.database "08006")), op := .call 3 (.delete 1) }]
          World.caregiverSample) := by
  have horphan : ∀ w : World Unit (List String), w.db.rows .caregiverDocument = [] →
      w.disk = ["x"] → ¬Agrees (fun keys key => key ∈ keys) (fun _ => False) w := by
    intro w hdocs hdisk hagrees
    obtain ⟨d, hd, -⟩ := hagrees.2 "x" (by rw [hdisk]; exact List.mem_singleton.mpr rfl) id
    rw [hdocs] at hd
    cases hd
  refine ⟨horphan _ (by decide +kernel) (by decide +kernel),
    horphan _ (by decide +kernel) (by decide +kernel), fun hagrees => ?_⟩
  have hstored := hagrees.1
  revert hstored
  decide +kernel

end Rooti
