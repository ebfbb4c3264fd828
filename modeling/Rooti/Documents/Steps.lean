import Rooti.Core.Faults
import Rooti.Documents.Gate
import Rooti.Lib.Cascade
import Rooti.Services.Caregiver

/-!
# What a document request does

Uploads, listings, downloads and deletions of documents, and the removal of a
relation, change two stores: the database at the commit that ends the request,
and the document storage at once.  `DocumentStep` lists everything a request can
do to both, also when the storage or the database fails it on the way, and
`serve_documentStep` is the one place where the scripts are executed.

## Main definitions

* `DocumentOp` — the requests
* `DocumentStep` — what a request does to documents, log and storage
* `serve_documentStep` — every served request is such a step

## One exit for every failure

A request may fail at a query, at the storage, at the flush or at the commit, and what
is left behind differs. Before the storage is called nothing has changed (`refused`).
Once it has been called the file is there or gone, whatever becomes of the transaction:
`uploadLost` and `deletionLost` are the two ends in which storage and database part, and
`TakesUpload` and `TakesDeletion` say exactly when the database does take the change. In
read-only mode the transaction is rolled back after the answer, hence the two ends that
are answered and not kept.

The storage is any `StorageService`; nothing about it is assumed here. What a
`KeepsFiles` step has to spare is read off `DocumentStep` in `Documents.Files`.

## How a script is executed

Each part of a script has a triple over `AfterReads`: the state is the initial one, `n`
queries later, and no fault has struck. Such triples compose by adding up their queries,
which is why `gateReads` and `callReads` are counted at all: the fault of a request is
numbered by commands. After the last query the triples name what is pending
(`LogRecorded`, `UploadSent`, `DeletionRecorded`), and `serve_upload`, …,
`serve_removeRelation` only look at the commit.
-/

namespace Rooti

open Relational Program CaregiverDocumentService

variable {V D : Type}

/-- **The requests on documents and relations.** -/
inductive DocumentOp
  | call (actorUserId : ℤ) (c : DocumentCall)
  | removeRelation (caregiverUserId relationId : ℤ)

/-- The script of a request. -/
def DocumentOp.script (files : StorageService D) : DocumentOp → Async V D DocumentReply
  | .call actorUserId c => c.script files actorUserId
  | .removeRelation caregiverUserId relationId =>
      (CaregiverService.removeRelation caregiverUserId relationId).bind fun _ =>
        .ret .relationRemoved

/-- The ids of the documents and their log are those the sequences have drawn. -/
structure IdsDrawn (w : World V D) : Prop where
  document : ∀ d ∈ w.db.rows .caregiverDocument, d.id ≤ w.seq .caregiverDocument
  log : ∀ l ∈ w.db.rows .caregiverDocumentLog, l.id ≤ w.seq .caregiverDocumentLog

/-- The queries of the gate: an administrator is recognised by the first. -/
def gateReads (db : Db) (actorUserId : ℤ) : ℕ :=
  match db.find? .user actorUserId with
  | some user => if user.role = .admin then 1 else 2
  | none => 1

/-- The queries a call makes before it changes anything. -/
def callReads (db : Db) (actorUserId : ℤ) : ℕ := gateReads db actorUserId + 2

/-- What `upload` hands to the storage. -/
def storeCall (files : StorageService D) (relationId : ℤ) (originalFilename : String)
    (file : Bytes) (size : ℤ) (contentType : Option String) (disk : D) :
    Except String Uploaded × D :=
  files.store ("caregiver-documents/" ++ toString relationId) originalFilename file size
    contentType disk

/-- The rows of an upload fit their columns. -/
def uploadFits (w : World V D) (uploaded : Uploaded) : Bool :=
  bigint (w.seq .caregiverDocument + 1) && bigint (w.seq .caregiverDocumentLog + 1) &&
    varchar 500 uploaded.key && bigint uploaded.size && uploaded.contentType.all (varchar 100)

/-- The database takes an upload: it may be written, neither the flush nor the
commit fails, and the rows fit. -/
def TakesUpload (env : Env) (fault : Option Fault) (w : World V D) (uploaded : Uploaded) : Prop :=
  env.settings.appReadOnly = false ∧ (∀ e, fault ≠ some (.flush e)) ∧
    (∀ e, fault ≠ some (.commit e)) ∧ uploadFits w uploaded

/-- The database takes a deletion. -/
def TakesDeletion (env : Env) (fault : Option Fault) (w : World V D) : Prop :=
  env.settings.appReadOnly = false ∧ (∀ e, fault ≠ some (.commit e)) ∧
    bigint (w.seq .caregiverDocumentLog + 1)

/-- The relation exists and is one of the caregiver with this user. -/
def OwnRelation (db : Db) (caregiverUserId relationId : ℤ) : Prop :=
  ∃ caregiver ∈ db.rows .caregiver, ∃ relation,
    caregiver.userId = caregiverUserId ∧
      db.find? .caregiverWorkerRelation relationId = some relation ∧
      relation.caregiverId = caregiver.id

/-- **What a request does** to the documents, their log and the storage. -/
inductive DocumentStep (env : Env) (fault : Option Fault) (files : StorageService D)
    (w : World V D) : DocumentOp → Except Err DocumentReply → World V D → Prop
  /-- it fails before it changes anything -/
  | refused {op : DocumentOp} {e : Err} {w' : World V D} (db : w'.db = w.db)
      (disk : w'.disk = w.disk) : DocumentStep env fault files w op (.error e) w'
  | listed {actorUserId relationId : ℤ} {responses : List DocumentResponse} {w' : World V D}
      (db : w'.db = w.db) (disk : w'.disk = w.disk) :
      DocumentStep env fault files w (.call actorUserId (.listByRelation relationId))
        (.ok (.listed responses)) w'
  /-- the storage refuses the file -/
  | storeFailed {actorUserId relationId typeId size : ℤ} {originalFilename t : String}
      {file : Bytes} {contentType : Option String} {e : Err} {w' : World V D}
      (allowed : DocumentCall.Allowed w.db actorUserId
        (.upload relationId typeId originalFilename file size contentType))
      (reads : ¬StruckReading fault w (callReads w.db actorUserId))
      (store : storeCall files relationId originalFilename file size contentType w.disk =
        (.error t, w'.disk))
      (db : w'.db = w.db) :
      DocumentStep env fault files w
        (.call actorUserId (.upload relationId typeId originalFilename file size contentType))
        (.error e) w'
  /-- the file is stored, its row is not -/
  | uploadLost {actorUserId relationId typeId size : ℤ} {originalFilename : String}
      {file : Bytes} {contentType : Option String} {uploaded : Uploaded} {e : Err}
      {w' : World V D}
      (allowed : DocumentCall.Allowed w.db actorUserId
        (.upload relationId typeId originalFilename file size contentType))
      (reads : ¬StruckReading fault w (callReads w.db actorUserId))
      (store : storeCall files relationId originalFilename file size contentType w.disk =
        (.ok uploaded, w'.disk))
      (lost : ¬TakesUpload env fault w uploaded) (db : w'.db = w.db) :
      DocumentStep env fault files w
        (.call actorUserId (.upload relationId typeId originalFilename file size contentType))
        (.error e) w'
  | uploaded {actorUserId relationId typeId size : ℤ} {originalFilename : String}
      {file : Bytes} {contentType : Option String} {uploaded : Uploaded} {new : NewRow}
      {response : DocumentResponse} {w' : World V D}
      (store : storeCall files relationId originalFilename file size contentType w.disk =
        (.ok uploaded, w'.disk))
      (id : new.id = w.seq .caregiverDocument + 1)
      (seq : w'.seq .caregiverDocument = w.seq .caregiverDocument + 1 ∧
        w'.seq .caregiverDocumentLog = w.seq .caregiverDocumentLog + 1)
      (documents : w'.db.rows .caregiverDocument = w.db.rows .caregiverDocument ++
        [newDocument actorUserId relationId typeId uploaded new])
      (logs : w'.db.rows .caregiverDocumentLog = w.db.rows .caregiverDocumentLog ++
        [⟨w.seq .caregiverDocumentLog + 1, new.id, actorUserId, .upload⟩])
      (answer : response.id = new.id) :
      DocumentStep env fault files w
        (.call actorUserId (.upload relationId typeId originalFilename file size contentType))
        (.ok (.uploaded response)) w'
  | downloaded {actorUserId documentId : ℤ} {doc : CaregiverDocument} {w' : World V D}
      (writable : env.settings.appReadOnly = false) (id : doc.id = documentId)
      (seq : w'.seq .caregiverDocument = w.seq .caregiverDocument ∧
        w'.seq .caregiverDocumentLog = w.seq .caregiverDocumentLog + 1)
      (documents : w'.db.rows .caregiverDocument = w.db.rows .caregiverDocument)
      (logs : w'.db.rows .caregiverDocumentLog = w.db.rows .caregiverDocumentLog ++
        [⟨w.seq .caregiverDocumentLog + 1, documentId, actorUserId, .download⟩])
      (disk : w'.disk = w.disk) :
      DocumentStep env fault files w (.call actorUserId (.loadForDownload documentId))
        (.ok (.loaded doc)) w'
  /-- in read-only mode a download is answered and not logged -/
  | downloadUnlogged {actorUserId documentId : ℤ} {doc : CaregiverDocument} {w' : World V D}
      (allowed : DocumentCall.Allowed w.db actorUserId (.loadForDownload documentId))
      (readOnly : env.settings.appReadOnly = true) (db : w'.db = w.db)
      (disk : w'.disk = w.disk) :
      DocumentStep env fault files w (.call actorUserId (.loadForDownload documentId))
        (.ok (.loaded doc)) w'
  /-- the storage does not remove the file -/
  | eraseFailed {actorUserId documentId : ℤ} {doc : CaregiverDocument} {t : String} {e : Err}
      {w' : World V D}
      (allowed : DocumentCall.Allowed w.db actorUserId (.delete documentId))
      (reads : ¬StruckReading fault w (callReads w.db actorUserId))
      (found : w.db.find? .caregiverDocument documentId = some doc)
      (erase : files.delete doc.filename w.disk = (.error t, w'.disk)) (db : w'.db = w.db) :
      DocumentStep env fault files w (.call actorUserId (.delete documentId)) (.error e) w'
  /-- the file is removed, its row is not -/
  | deletionLost {actorUserId documentId : ℤ} {doc : CaregiverDocument}
      {r : Except Err DocumentReply} {w' : World V D}
      (allowed : DocumentCall.Allowed w.db actorUserId (.delete documentId))
      (reads : ¬StruckReading fault w (callReads w.db actorUserId))
      (found : w.db.find? .caregiverDocument documentId = some doc)
      (erase : files.delete doc.filename w.disk = (.ok (), w'.disk))
      (lost : ¬TakesDeletion env fault w) (db : w'.db = w.db) :
      DocumentStep env fault files w (.call actorUserId (.delete documentId)) r w'
  | deleted {actorUserId documentId : ℤ} {doc : CaregiverDocument} {w' : World V D}
      (allowed : DocumentCall.Allowed w.db actorUserId (.delete documentId))
      (found : w.db.find? .caregiverDocument documentId = some doc)
      (erase : files.delete doc.filename w.disk = (.ok (), w'.disk))
      (seq : w'.seq .caregiverDocument = w.seq .caregiverDocument ∧
        w'.seq .caregiverDocumentLog = w.seq .caregiverDocumentLog + 1)
      (documents : w'.db.rows .caregiverDocument =
        (w.db.rows .caregiverDocument).filter fun d => d.id ≠ documentId)
      (logs : w'.db.rows .caregiverDocumentLog =
        (w.db.rows .caregiverDocumentLog).filter fun l => l.documentId ≠ documentId) :
      DocumentStep env fault files w (.call actorUserId (.delete documentId))
        (.ok .deleted) w'
  | relationRemoved {caregiverUserId relationId : ℤ} {w' : World V D}
      (own : OwnRelation w.db caregiverUserId relationId)
      (reads : ¬StruckReading fault w 2) (writable : env.settings.appReadOnly = false)
      (commit : ∀ e, fault ≠ some (.commit e))
      (seq : w'.seq = w.seq)
      (documents : (w'.db.rows .caregiverDocument).Sublist (w.db.rows .caregiverDocument) ∧
        ((∀ d ∈ w.db.rows .caregiverDocument, d.relationId ≠ relationId) →
          w'.db.rows .caregiverDocument = w.db.rows .caregiverDocument))
      (logs : (w'.db.rows .caregiverDocumentLog).Sublist (w.db.rows .caregiverDocumentLog) ∧
        ((∀ l ∈ w.db.rows .caregiverDocumentLog, ∀ d ∈ w.db.rows .caregiverDocument,
            l.documentId = d.id → d.relationId ≠ relationId) →
          w'.db.rows .caregiverDocumentLog = w.db.rows .caregiverDocumentLog))
      (disk : w'.disk = w.disk) :
      DocumentStep env fault files w (.removeRelation caregiverUserId relationId)
        (.ok .relationRemoved) w'
  /-- in read-only mode a removal is answered and not kept -/
  | removalUnsaved {caregiverUserId relationId : ℤ} {w' : World V D}
      (readOnly : env.settings.appReadOnly = true) (db : w'.db = w.db)
      (disk : w'.disk = w.disk) :
      DocumentStep env fault files w (.removeRelation caregiverUserId relationId)
        (.ok .relationRemoved) w'

/-! ## Reading -/

section Reading

variable {env : Env} {fault : Option Fault} {w : World V D} {n : ℕ}
  {actorUserId relationId documentId caregiverUserId : ℤ} {relation : CaregiverWorkerRelation}

/-- The gate reads the user, and the caregiver of the relation only for one who is no
administrator. What it lets pass is `Permitted`, the predicate that `document_gate` is
about. -/
theorem ensures_ensureActorOwnsRelation :
    (faulty env fault).Ensures (AfterReads fault w n)
      (ensureActorOwnsRelation actorUserId relation)
      (fun _ s w' => Permitted w.db actorUserId relation ∧
        AfterReads fault w (n + gateReads w.db actorUserId) s w') (Stopped w) := by
  refine ensures_dbGet.bind fun found => .of_and ?_
  rintro rfl
  refine Machine.Ensures.bind (Q := fun user s w' =>
    w.db.find? .user actorUserId = some user ∧ AfterReads fault w (n + 1) s w')
    (.orRaise (fun user huser _ _ h => ⟨huser, h⟩) fun _ _ _ h => h.stopped) fun user =>
      .of_and fun huser => .ite (fun hrole => ?_) fun hrole => ?_
  · refine .ret fun s w' h => ⟨⟨user, huser, .inl hrole⟩, ?_⟩
    simpa [gateReads, huser, hrole] using h
  · refine ensures_dbGet.bind fun found => .of_and ?_
    rintro rfl
    refine .raiseIf (fun hpass s w' h => ?_) fun _ _ _ h => h.stopped
    cases hcaregiver : w.db.find? .caregiver relation.caregiverId with
    | none => simp [hcaregiver] at hpass
    | some caregiver =>
        have huserId : caregiver.userId = actorUserId := by simpa [hcaregiver] using hpass
        refine ⟨⟨user, huser, .inr ⟨caregiver, hcaregiver, huserId⟩⟩, ?_⟩
        simpa [gateReads, huser, hrole, Nat.add_assoc] using h

/-- Document, relation and gate, three reads before a call on a document goes on. -/
theorem ensures_ownDocument :
    (faulty env fault).Ensures (AfterReads fault w n) (ownDocument actorUserId documentId)
      (fun doc s w' =>
        (w.db.find? .caregiverDocument documentId = some doc ∧
          DocumentCall.Allowed w.db actorUserId (.delete documentId)) ∧
        AfterReads fault w (n + callReads w.db actorUserId) s w') (Stopped w) := by
  refine ensures_dbGet.bind fun found => .of_and ?_
  rintro rfl
  refine Machine.Ensures.bind (Q := fun doc s w' =>
    w.db.find? .caregiverDocument documentId = some doc ∧ AfterReads fault w (n + 1) s w')
    (.orRaise (fun doc hdoc _ _ h => ⟨hdoc, h⟩) fun _ _ _ h => h.stopped) fun doc =>
      .of_and fun hdoc => ?_
  refine ensures_getOrRaise.bind fun relation => .of_and fun hrelation => ?_
  refine ensures_ensureActorOwnsRelation.bind fun _ => .of_and fun hpermitted => ?_
  refine .ret fun s w' h => ⟨⟨hdoc, ⟨relation, ?_, hpermitted⟩, trivial⟩, ?_⟩
  · simp only [DocumentCall.relation?, hdoc, Option.bind_some]
    exact hrelation
  · have hreads : n + 1 + 1 + gateReads w.db actorUserId =
        n + callReads w.db actorUserId := by
      rw [callReads]
      omega
    rwa [hreads] at h

/-- An upload up to its call of the storage. -/
theorem ensures_uploadReads {typeId : ℤ} {β : Type} {Q : β → Session → World V D → Prop}
    {R : Session → World V D → Prop} {f : CaregiverDocumentType → Async V D β}
    (hf : ∀ docType relation,
      w.db.find? .caregiverWorkerRelation relationId = some relation →
      Permitted w.db actorUserId relation →
      w.db.find? .caregiverDocumentType typeId = some docType →
      (faulty env fault).Ensures (AfterReads fault w (callReads w.db actorUserId)) (f docType)
        Q R)
    (hR : ∀ s w', Stopped w s w' → R s w') :
    (faulty env fault).Ensures (AfterReads fault w 0)
      ((relationOr404 relationId).bind fun relation =>
        (ensureActorOwnsRelation actorUserId relation).bind fun _ =>
          (dbGet .caregiverDocumentType typeId).bind fun found =>
            (Prog.orRaise (businessException .documentTypeNotFound) found).bind f) Q R := by
  refine (ensures_getOrRaise.weaken (fun _ _ h => h) (fun _ _ _ h => h) hR).bind
    fun relation => .of_and fun hrelation => ?_
  refine (ensures_ensureActorOwnsRelation.weaken (fun _ _ h => h) (fun _ _ _ h => h) hR).bind
    fun _ => .of_and fun hpermitted => ?_
  refine (ensures_dbGet.weaken (fun _ _ h => h) (fun _ _ _ h => h) hR).bind
    fun found => .of_and ?_
  rintro rfl
  refine Machine.Ensures.bind (Q := fun docType s w' =>
    w.db.find? .caregiverDocumentType typeId = some docType ∧
      AfterReads fault w (callReads w.db actorUserId) s w')
    (.orRaise (fun docType htype s w' h => ⟨htype, ?_⟩) fun _ s w' h => hR s w' h.stopped)
    fun docType => .of_and fun htype => hf docType relation hrelation hpermitted htype
  have hreads : 0 + 1 + gateReads w.db actorUserId + 1 = callReads w.db actorUserId := by
    rw [callReads]
    omega
  rwa [hreads] at h

/-- A removal reads the caregiver of the caller and the relation, and goes on with a
relation of that caregiver only. -/
theorem ensures_removeRelationReads {β : Type} {Q : β → Session → World V D → Prop}
    {R : Session → World V D → Prop} {f : CaregiverWorkerRelation → Async V D β}
    (hf : ∀ relation, w.db.find? .caregiverWorkerRelation relationId = some relation →
      OwnRelation w.db caregiverUserId relationId →
      (faulty env fault).Ensures (AfterReads fault w 2) (f relation) Q R)
    (hR : ∀ s w', Stopped w s w' → R s w') :
    (faulty env fault).Ensures (AfterReads fault w 0)
      ((CaregiverService.getByUserId caregiverUserId).bind fun caregiver =>
        (dbGet .caregiverWorkerRelation relationId).bind fun found =>
          (Prog.orRaise (businessException .caregiverNotFound) found).bind fun relation =>
            (Prog.raiseIf (relation.caregiverId ≠ caregiver.id)
              (authForbiddenExceptionWith "relation does not belong to caregiver")).bind
                fun _ => f relation) Q R := by
  -- each read is one tick at which the fault may strike
  have hcaregiver : (faulty env fault).Ensures (AfterReads fault w 0)
      (CaregiverService.getByUserId caregiverUserId)
      (fun c s w' => (c ∈ w.db.rows .caregiver ∧ c.userId = caregiverUserId) ∧
        AfterReads fault w 1 s w') R := by
    refine (ensures_select.weaken (fun _ _ h => h) (fun _ _ _ h => h) hR).bind
      fun rows => .of_and ?_
    rintro ⟨o, rfl⟩
    refine Machine.Ensures.bind (Q := fun found s w' =>
      (∀ c, found = some c → c ∈ w.db.rows .caregiver ∧ c.userId = caregiverUserId) ∧
        AfterReads fault w 1 s w')
      (ensures_scalarOneOrNone (fun found hrows s w' h => ⟨?_, h⟩) fun s w' h =>
        hR s w' h.stopped)
      fun found => .of_and fun hfound =>
        .orRaise (fun c hc s w' h => ⟨hfound c hc, h⟩) fun _ s w' h => hR s w' h.stopped
    rintro c rfl
    have hmem : c ∈ (w.db.rows .caregiver).filter fun c => c.userId = caregiverUserId := by
      rw [← RowOrder.mem_scan o, hrows]
      exact List.mem_singleton.mpr rfl
    obtain ⟨hc, huser⟩ := List.mem_filter.mp hmem
    exact ⟨hc, of_decide_eq_true huser⟩
  refine hcaregiver.bind fun caregiver => .of_and fun ⟨hc, huser⟩ => ?_
  refine (ensures_dbGet.weaken (fun _ _ h => h) (fun _ _ _ h => h) hR).bind
    fun found => .of_and ?_
  rintro rfl
  refine Machine.Ensures.bind (Q := fun relation s w' =>
    w.db.find? .caregiverWorkerRelation relationId = some relation ∧
      AfterReads fault w 2 s w')
    (.orRaise (fun relation hrelation _ _ h => ⟨hrelation, h⟩) fun _ s w' h =>
      hR s w' h.stopped)
    fun relation => .of_and fun hrelation => ?_
  refine Machine.Ensures.bind (Q := fun _ s w' =>
    relation.caregiverId = caregiver.id ∧ AfterReads fault w 2 s w')
    (.raiseIf (fun hown _ _ h => ⟨by simpa using hown, h⟩) fun _ s w' h => hR s w' h.stopped)
    fun _ => .of_and fun hown =>
      hf relation hrelation ⟨caregiver, hc, relation, huser, hrelation, hown⟩

end Reading

/-! ## The rows of an upload -/

section Upload

variable {env : Env} {fault : Option Fault} {files : StorageService D} {w : World V D}
  {actorUserId relationId typeId size : ℤ} {originalFilename : String} {file : Bytes}
  {contentType : Option String}

/-- The rows of an upload can be inserted if they fit their columns. -/
theorem upload_inserts (hids : IdsDrawn w) {uploaded : Uploaded} (hfits : uploadFits w uploaded)
    (hallowed : DocumentCall.Allowed w.db actorUserId
      (.upload relationId typeId originalFilename file size contentType)) {new : NewRow}
    (hid : new.id = w.seq .caregiverDocument + 1) (hnaive : timestamp new.createdAt) :
    ∃ db₁ db₂,
      (Dml.insert .caregiverDocument
        (newDocument actorUserId relationId typeId uploaded new) : Statement).apply w.db =
          .ok db₁ ∧
      (Dml.insert .caregiverDocumentLog
        ⟨w.seq .caregiverDocumentLog + 1, new.id, actorUserId, .upload⟩ : Statement).apply db₁ =
          .ok db₂ := by
  obtain ⟨⟨relation, hrelation, user, huser, -⟩, htype⟩ := hallowed
  obtain ⟨docType, htype⟩ := Option.ne_none_iff_exists'.mp htype
  have hrelation' : w.db.find? .caregiverWorkerRelation relationId = some relation := hrelation
  simp only [uploadFits, Bool.and_eq_true] at hfits
  obtain ⟨⟨⟨⟨hdocId, hlogId⟩, hkey⟩, hsize⟩, hcontent⟩ := hfits
  have hbRelation := bigint_of_find? hrelation'
  have hbType := bigint_of_find? htype
  have hbUser := bigint_of_find? huser
  obtain ⟨db₁, hdb₁⟩ := Dml.insert_of_apart w.db (i := Entity.caregiverDocument)
    (r := newDocument actorUserId relationId typeId uploaded new)
    (fun d hd => ⟨fun e => by
      have hle := hids.document d hd
      have he : d.id = new.id := e
      omega, rfl, rfl⟩)
    (by
      rw [← hid] at hdocId
      simp only [schema, shape, newDocument, Option.all_some, Bool.and_eq_true]
      exact ⟨⟨⟨⟨⟨⟨⟨⟨hdocId, hbRelation⟩, hbType⟩, hkey⟩, hsize⟩, hcontent⟩, hnaive⟩, hbUser⟩,
        hbUser⟩)
    (Database.refsMet_iff.mpr (List.forall_mem_cons.mpr
      ⟨⟨_, hrelation'⟩, List.forall_mem_singleton.mpr ⟨_, htype⟩⟩))
  -- the log entry refers to the document, which is now in its table
  obtain ⟨hdocs, -, hframe⟩ := Dml.insert_ok hdb₁
  have hfound : db₁.find? .caregiverDocument new.id =
      some (newDocument actorUserId relationId typeId uploaded new) :=
    Table.find?_eq_some.mpr ⟨by
      show _ ∈ db₁.rows .caregiverDocument
      rw [hdocs]
      exact List.mem_append_right _ (List.mem_singleton.mpr rfl), rfl⟩
  have huser₁ : db₁.find? .user actorUserId = some user := by
    rw [Database.find?, hframe .user (by decide)]
    exact huser
  have hlogs : db₁.rows .caregiverDocumentLog = w.db.rows .caregiverDocumentLog := by
    rw [Database.rows, hframe .caregiverDocumentLog (by decide)]
  obtain ⟨db₂, hdb₂⟩ := Dml.insert_of_apart db₁ (i := Entity.caregiverDocumentLog)
    (r := ⟨w.seq .caregiverDocumentLog + 1, new.id, actorUserId, .upload⟩)
    (fun l hl => ⟨fun e => by
      rw [hlogs] at hl
      have hle := hids.log l hl
      have he : l.id = w.seq .caregiverDocumentLog + 1 := e
      omega, rfl, rfl⟩)
    (by
      rw [← hid] at hdocId
      simp only [schema, shape, Bool.and_eq_true]
      exact ⟨⟨hlogId, hdocId⟩, hbUser⟩)
    (Database.refsMet_iff.mpr (List.forall_mem_cons.mpr
      ⟨⟨_, hfound⟩, List.forall_mem_singleton.mpr ⟨_, huser₁⟩⟩))
  exact ⟨db₁, db₂, hdb₁, hdb₂⟩

/-- What an upload has done when its script returns: the file is stored, the
document is sent, its log entry is recorded. -/
structure UploadSent (env : Env) (fault : Option Fault) (files : StorageService D)
    (w : World V D) (actorUserId relationId typeId : ℤ) (originalFilename : String)
    (file : Bytes) (size : ℤ) (contentType : Option String) (uploaded : Uploaded) (new : NewRow)
    (s : Session) (w' : World V D) : Prop where
  allowed : DocumentCall.Allowed w.db actorUserId
    (.upload relationId typeId originalFilename file size contentType)
  reads : ¬StruckReading fault w (callReads w.db actorUserId)
  store : storeCall files relationId originalFilename file size contentType w.disk =
    (.ok uploaded, w'.disk)
  writable : env.settings.appReadOnly = false
  id : new.id = w.seq .caregiverDocument + 1
  naive : timestamp new.createdAt
  inserted : ∃ db₁, (Dml.insert .caregiverDocument
    (newDocument actorUserId relationId typeId uploaded new) : Statement).apply w.db = .ok db₁
  session : s = {
    written := [.insert .caregiverDocument
      (newDocument actorUserId relationId typeId uploaded new)]
    pending := [.insert .caregiverDocumentLog
      ⟨w.seq .caregiverDocumentLog + 1, new.id, actorUserId, .upload⟩] }
  db : w'.db = w.db
  seq : w'.seq .caregiverDocument = w.seq .caregiverDocument + 1 ∧
    w'.seq .caregiverDocumentLog = w.seq .caregiverDocumentLog + 1
  flushed : ∀ e, fault ≠ some (.flush e)

/-- What an upload that fails has done: nothing, or the storage was asked. -/
def UploadFailed (env : Env) (fault : Option Fault) (files : StorageService D)
    (w : World V D) (actorUserId relationId typeId : ℤ) (originalFilename : String)
    (file : Bytes) (size : ℤ) (contentType : Option String) (w' : World V D) : Prop :=
  w'.db = w.db ∧
    (w'.disk = w.disk ∨
      DocumentCall.Allowed w.db actorUserId
          (.upload relationId typeId originalFilename file size contentType) ∧
        ¬StruckReading fault w (callReads w.db actorUserId) ∧
        ((∃ t, storeCall files relationId originalFilename file size contentType w.disk =
            (.error t, w'.disk)) ∨
          ∃ uploaded, storeCall files relationId originalFilename file size contentType w.disk =
              (.ok uploaded, w'.disk) ∧ ¬TakesUpload env fault w uploaded))

/-- **After the storage was asked**, with this session and these sequences. -/
def Asked (files : StorageService D) (w : World V D) (relationId : ℤ) (originalFilename : String)
    (file : Bytes) (size : ℤ) (contentType : Option String) (session : Session)
    (seq : Entity → ℤ) (s : Session) (w' : World V D) : Prop :=
  s = session ∧ w'.db = w.db ∧ w'.seq = seq ∧
    w'.disk = (storeCall files relationId originalFilename file size contentType w.disk).2

/-- An upload that is allowed and fails after its file was stored. -/
theorem uploadFailed_of_lost
    (hallowed : DocumentCall.Allowed w.db actorUserId
      (.upload relationId typeId originalFilename file size contentType))
    (hreads : ¬StruckReading fault w (callReads w.db actorUserId)) {uploaded : Uploaded}
    (hstore : (storeCall files relationId originalFilename file size contentType w.disk).1 =
      .ok uploaded) {w' : World V D} (hdb : w'.db = w.db)
    (hdisk : w'.disk =
      (storeCall files relationId originalFilename file size contentType w.disk).2)
    (htakes : ¬TakesUpload env fault w uploaded) :
    UploadFailed env fault files w actorUserId relationId typeId originalFilename file size
      contentType w' :=
  ⟨hdb, .inr ⟨hallowed, hreads, .inr ⟨uploaded, Prod.ext hstore hdisk.symm, htakes⟩⟩⟩

/-- **The storage is asked**, when the queries have been answered. -/
theorem ensures_storeFile
    (hallowed : DocumentCall.Allowed w.db actorUserId
      (.upload relationId typeId originalFilename file size contentType)) :
    (faulty env fault).Ensures (AfterReads fault w (callReads w.db actorUserId))
      (storeFile files relationId originalFilename file size contentType)
      (fun uploaded s w' =>
        ((storeCall files relationId originalFilename file size contentType w.disk).1 =
            .ok uploaded ∧ ¬StruckReading fault w (callReads w.db actorUserId)) ∧
          Asked files w relationId originalFilename file size contentType {} w.seq s w')
      (fun _ w' => UploadFailed env fault files w actorUserId relationId typeId originalFilename
        file size contentType w') := by
  refine .handle (M := fun _ w' => UploadFailed env fault files w actorUserId relationId typeId
    originalFilename file size contentType w') (.lift ?_) fun e => .raise fun _ _ h => h
  rintro s w' ⟨rfl, rfl, hreads⟩
  rw [faulty_exec, execFaulty_of_quiet _ (by simp)]
  simp only [exec]
  cases hstore : (storeCall files relationId originalFilename file size contentType
    w.disk).1 with
  | ok uploaded =>
      have hstore' : (files.store ("caregiver-documents/" ++ toString relationId)
        originalFilename file size contentType w.disk).1 = .ok uploaded := hstore
      simp only [World.after_disk, hstore']
      exact ⟨⟨rfl, hreads⟩, rfl, rfl, rfl, rfl⟩
  | error t =>
      have hstore' : (files.store ("caregiver-documents/" ++ toString relationId)
        originalFilename file size contentType w.disk).1 = .error t := hstore
      simp only [World.after_disk, hstore']
      exact ⟨rfl, .inr ⟨hallowed, hreads, .inl ⟨t, Prod.ext hstore rfl⟩⟩⟩

/-- The sequences once the id of a document was drawn. -/
def Asked.drawn (w : World V D) : Entity → ℤ :=
  Function.update w.seq .caregiverDocument (w.seq .caregiverDocument + 1)

/-- **The document is added** under the next id. -/
theorem ensures_addDocument {R : Session → World V D → Prop} {uploaded : Uploaded} :
    (faulty env fault).Ensures
      (Asked files w relationId originalFilename file size contentType {} w.seq)
      (add .caregiverDocument (newDocument actorUserId relationId typeId uploaded))
      (fun new s w' => (new.id = w.seq .caregiverDocument + 1 ∧ timestamp new.createdAt) ∧
        Asked files w relationId originalFilename file size contentType
          { pending := [.insert .caregiverDocument
            (newDocument actorUserId relationId typeId uploaded new)] } (Asked.drawn w) s w')
      R := by
  refine .lift ?_
  rintro s w' ⟨rfl, hdb, hseq, hdisk⟩
  rw [faulty_exec, execFaulty_of_quiet _ (by simp)]
  exact ⟨⟨by rw [← hseq]; rfl, rfl⟩, rfl, hdb, by rw [Asked.drawn, ← hseq], hdisk⟩

/-- **The document is sent**, unless the database does not take the upload. -/
theorem ensures_flushDocument (hids : IdsDrawn w)
    (hallowed : DocumentCall.Allowed w.db actorUserId
      (.upload relationId typeId originalFilename file size contentType))
    (hreads : ¬StruckReading fault w (callReads w.db actorUserId)) {uploaded : Uploaded}
    (hstore : (storeCall files relationId originalFilename file size contentType w.disk).1 =
      .ok uploaded) {new : NewRow} (hid : new.id = w.seq .caregiverDocument + 1)
    (hnaive : timestamp new.createdAt) :
    (faulty env fault).Ensures
      (Asked files w relationId originalFilename file size contentType
        { pending := [.insert .caregiverDocument
          (newDocument actorUserId relationId typeId uploaded new)] } (Asked.drawn w))
      flush
      (fun _ s w' => (env.settings.appReadOnly = false ∧ (∀ e, fault ≠ some (.flush e)) ∧
          ∃ db₁, (Dml.insert .caregiverDocument
            (newDocument actorUserId relationId typeId uploaded new) : Statement).apply w.db =
              .ok db₁) ∧
        Asked files w relationId originalFilename file size contentType
          { written := [.insert .caregiverDocument
            (newDocument actorUserId relationId typeId uploaded new)] } (Asked.drawn w) s w')
      (fun _ w' => UploadFailed env fault files w actorUserId relationId typeId originalFilename
        file size contentType w') := by
  refine .lift ?_
  rintro s w' ⟨rfl, hdb, hseq, hdisk⟩
  rw [faulty_exec]
  cases hs : fault.bind fun f => f.strikes (.flush : Cmd V D Unit) w'.ticks with
  | some e =>
      simp only [execFaulty, hs]
      -- the file is stored already: it stays without a document
      refine uploadFailed_of_lost hallowed hreads hstore hdb hdisk fun htakes => ?_
      rcases fault with _ | _ | e' | _
      · cases hs
      · cases hs
      · exact htakes.2.1 e' rfl
      · cases hs
  | none =>
      have hflushed : ∀ e, fault ≠ some (.flush e) := by
        rintro e rfl
        cases hs
      rw [execFaulty_of_strikes hs]
      simp only [exec, hdb]
      cases hro : env.settings.appReadOnly with
      | true =>
          exact uploadFailed_of_lost hallowed hreads hstore hdb hdisk fun htakes => by
            cases hro.symm.trans htakes.1
      | false =>
          cases hinsert : (Dml.insert .caregiverDocument
              (newDocument actorUserId relationId typeId uploaded new) :
                Statement).apply w.db with
          | ok db₁ =>
              rw [flush_single hinsert]
              exact ⟨⟨rfl, hflushed, db₁, rfl⟩, rfl, hdb, hseq, hdisk⟩
          | error v =>
              rw [flush_single_refused hinsert]
              refine uploadFailed_of_lost hallowed hreads hstore hdb hdisk fun htakes => ?_
              obtain ⟨db₁, -, hdb₁, -⟩ := upload_inserts hids htakes.2.2.2 hallowed hid hnaive
              cases hinsert.symm.trans hdb₁

/-- **The log entry is recorded** under its next id. -/
theorem ensures_logUpload {R : Session → World V D → Prop} {uploaded : Uploaded} {new : NewRow}
    (hsent : ∀ w' : World V D, w'.db = w.db →
      w'.disk = (storeCall files relationId originalFilename file size contentType w.disk).2 →
      w'.seq .caregiverDocument = w.seq .caregiverDocument + 1 →
      w'.seq .caregiverDocumentLog = w.seq .caregiverDocumentLog + 1 →
      UploadSent env fault files w actorUserId relationId typeId originalFilename file size
        contentType uploaded new
        { written := [.insert .caregiverDocument
            (newDocument actorUserId relationId typeId uploaded new)]
          pending := [.insert .caregiverDocumentLog
            ⟨w.seq .caregiverDocumentLog + 1, new.id, actorUserId, .upload⟩] } w') :
    (faulty env fault).Ensures
      (Asked files w relationId originalFilename file size contentType
        { written := [.insert .caregiverDocument
          (newDocument actorUserId relationId typeId uploaded new)] } (Asked.drawn w))
      (log actorUserId new.id .upload)
      (fun _ s w' => UploadSent env fault files w actorUserId relationId typeId originalFilename
        file size contentType uploaded new s w') R := by
  refine Machine.Ensures.bind (.lift (Q := fun _ s w' => UploadSent env fault files w actorUserId
    relationId typeId originalFilename file size contentType uploaded new s w') ?_)
      fun _ => .ret fun _ _ h => h
  rintro s w' ⟨rfl, hdb, hseq, hdisk⟩
  rw [faulty_exec, execFaulty_of_quiet _ (by simp)]
  have hlogSeq : w'.seq .caregiverDocumentLog = w.seq .caregiverDocumentLog := by
    rw [hseq, Asked.drawn, Function.update_of_ne (by decide)]
  have hdocSeq : w'.seq .caregiverDocument = w.seq .caregiverDocument + 1 := by
    rw [hseq, Asked.drawn, Function.update_self]
  simp only [exec, Env.newRow, hlogSeq, List.nil_append]
  refine hsent _ hdb hdisk ?_ ?_
  · show Function.update w'.seq .caregiverDocumentLog (w.seq .caregiverDocumentLog + 1)
      .caregiverDocument = _
    rw [Function.update_of_ne (by decide), hdocSeq]
  · show Function.update w'.seq .caregiverDocumentLog (w.seq .caregiverDocumentLog + 1)
      .caregiverDocumentLog = _
    rw [Function.update_self]

/-- **An upload**, stage by stage: the storage first, then the row, then its log entry. -/
theorem ensures_upload (hids : IdsDrawn w) :
    (faulty env fault).Ensures (AfterReads fault w 0)
      (upload files actorUserId relationId typeId originalFilename file size contentType)
      (fun response s w' => ∃ uploaded new, response.id = new.id ∧
        UploadSent env fault files w actorUserId relationId typeId originalFilename file size
          contentType uploaded new s w')
      (fun _ w' => UploadFailed env fault files w actorUserId relationId typeId originalFilename
        file size contentType w') := by
  refine ensures_uploadReads (fun docType relation hrelation hpermitted htype => ?_) ?_
  swap
  · rintro s w' ⟨n, rfl⟩
    exact ⟨rfl, .inl rfl⟩
  have hallowed : DocumentCall.Allowed w.db actorUserId
      (.upload relationId typeId originalFilename file size contentType) :=
    ⟨⟨relation, hrelation, hpermitted⟩, fun h => by cases h.symm.trans htype⟩
  refine (ensures_storeFile hallowed).bind fun uploaded => .of_and fun ⟨hstore, hreads⟩ => ?_
  refine ensures_addDocument.bind fun new => .of_and fun ⟨hid, hnaive⟩ => ?_
  refine (ensures_flushDocument hids hallowed hreads hstore hid hnaive).bind fun _ =>
    .of_and fun ⟨hwritable, hflushed, hinserted⟩ => ?_
  refine (ensures_logUpload fun w' hdb hdisk hdocSeq hlogSeq => ?_).bind fun _ =>
    .ret fun s w' h => ⟨uploaded, new, rfl, h⟩
  exact ⟨hallowed, hreads, Prod.ext hstore hdisk.symm, hwritable, hid, hnaive, hinserted, rfl, hdb,
    ⟨hdocSeq, hlogSeq⟩, hflushed⟩

end Upload

/-! ## Deletions -/

section Delete

variable {db db' : Db} {relation document : ℤ → Prop} {k : ℤ}

/-- Relations, documents and the log entries of the documents. -/
def DocumentCascade (db : Db) (relation document : ℤ → Prop) : Entity → ℤ → Prop
  | .caregiverWorkerRelation, k => relation k
  | .caregiverDocument, k => document k
  | .caregiverDocumentLog, k =>
      ∃ l ∈ db.rows .caregiverDocumentLog, l.id = k ∧ document l.documentId
  | _, _ => False

/-- What references a relation, a document or a log entry. -/
theorem refs_documents {t : Entity} {r : Row t} {ref : Ref Entity ℤ} (href : ref ∈ refs t r)
    (htable : ref.table ∈
      [Entity.caregiverWorkerRelation, .caregiverDocument, .caregiverDocumentLog]) :
    ref.onDelete = .cascade ∧
      ((∃ d : CaregiverDocument, t = .caregiverDocument ∧ HEq r d ∧
          ref.table = .caregiverWorkerRelation ∧ ref.key = d.relationId) ∨
        ∃ l : CaregiverDocumentLog, t = .caregiverDocumentLog ∧ HEq r l ∧
          ref.table = .caregiverDocument ∧ ref.key = l.documentId) := by
  cases t <;> simp [refs] at href <;> grind

/-- **A cascade keeps to the documents of the relation**: the rows that a removal takes
along are documents of the relation and rows of their log, as long as the log follows
its document. -/
theorem cascades_documentCascade
    (h : ∀ d ∈ db.rows .caregiverDocument, relation d.relationId → document d.id) :
    db.Cascades (DocumentCascade db relation document) := by
  intro t r hr ref href hcascade hmember
  have htable : ref.table ∈
      [Entity.caregiverWorkerRelation, .caregiverDocument, .caregiverDocumentLog] := by
    obtain ⟨table, key, action⟩ := ref
    cases table <;> first | exact hmember.elim | simp
  obtain ⟨-, ⟨d, rfl, hd, htable, hkey⟩ | ⟨l, rfl, hl, htable, hkey⟩⟩ := refs_documents href htable
  · obtain rfl := eq_of_heq hd
    rw [htable, hkey] at hmember
    exact h r hr hmember
  · obtain rfl := eq_of_heq hl
    rw [htable, hkey] at hmember
    exact ⟨r, hr, rfl, hmember⟩

/-- No row that goes has a reference that restricts, so nothing stops the cascade. -/
theorem not_documentCascade_of_restrict {t : Entity} {r : Row t} {ref : Ref Entity ℤ}
    (href : ref ∈ refs t r) (hrestrict : ref.onDelete = .restrict) :
    ¬DocumentCascade db relation document ref.table ref.key := by
  intro hmember
  have htable : ref.table ∈
      [Entity.caregiverWorkerRelation, .caregiverDocument, .caregiverDocumentLog] := by
    obtain ⟨table, key, action⟩ := ref
    cases table <;> first | exact hmember.elim | simp
  obtain ⟨hcascade, -⟩ := refs_documents href htable
  cases hrestrict.symm.trans hcascade

/-- What a deletion sends leaves the other documents and their logs. -/
theorem deletion_rows {log : CaregiverDocumentLog} {documentId : ℤ}
    (hlog : log.documentId = documentId)
    (h : Dml.applyAll [.insert .caregiverDocumentLog log,
      (.delete .caregiverDocument documentId : Statement)] db = .ok db') :
    db'.rows .caregiverDocument =
        ((db.rows .caregiverDocument).filter fun d => d.id ≠ documentId) ∧
      db'.rows .caregiverDocumentLog =
        (db.rows .caregiverDocumentLog).filter fun l => l.documentId ≠ documentId := by
  rw [Dml.applyAll_cons] at h
  cases hinsert : (Dml.insert .caregiverDocumentLog log : Statement).apply db with
  | error v =>
      rw [hinsert] at h
      cases h
  | ok db₁ =>
      rw [hinsert] at h
      have hdelete : (Dml.delete .caregiverDocument documentId : Statement).apply db₁ =
          .ok db' := (Dml.applyAll_singleton _ _).symm.trans h
      obtain ⟨hlogs, -, hframe⟩ := Dml.insert_ok hinsert
      have hdocs : db₁.rows .caregiverDocument = db.rows .caregiverDocument := by
        rw [Database.rows, hframe .caregiverDocument (by decide)]
      -- the cascade of a document ends with its log
      have hX : db₁.Cascades
          (DocumentCascade db₁ (fun _ => False) fun key => key = documentId) :=
        cascades_documentCascade fun _ _ h => h.elim
      have hk : DocumentCascade db₁ (fun _ => False) (fun key => key = documentId)
          .caregiverDocument documentId := rfl
      constructor
      · rw [← hdocs]
        refine Dml.delete_rows_eq hX hk hdelete _ (fun d _ hd hgone => ?_) fun d _ hd hkept => ?_
        · exact of_decide_eq_true hd hgone
        · have hid : d.id = documentId := by simpa using hd
          exact Dml.delete_target hdelete hkept hid
      · have hrows := Dml.delete_rows_eq (j := Entity.caregiverDocumentLog) hX hk hdelete
          (fun l => decide (l.documentId ≠ documentId)) ?_ ?_
        · rw [hrows, hlogs, List.filter_append]
          simp [hlog]
        · rintro l hl hne ⟨l', hl', hkey, hdoc⟩
          obtain rfl := Table.eq_of_key hl' hl hkey
          exact of_decide_eq_true hne hdoc
        · intro l hl hdoc
          have href : (⟨.caregiverDocument, l.documentId, .cascade⟩ : Ref Entity ℤ) ∈
              schema.refs .caregiverDocumentLog l := List.mem_cons_self ..
          have hdocumentId : l.documentId = documentId := by simpa using hdoc
          exact Dml.delete_removes (by decide) hdelete hl href rfl rfl hdocumentId

/-- The statements of a deletion succeed. -/
theorem deletion_applies {w : World V D} (hids : IdsDrawn w)
    (hid : bigint (w.seq .caregiverDocumentLog + 1)) {actorUserId documentId : ℤ}
    {doc : CaregiverDocument} (hfound : w.db.find? .caregiverDocument documentId = some doc)
    {user : User} (huser : w.db.find? .user actorUserId = some user) :
    ∃ db', Dml.applyAll [.insert .caregiverDocumentLog
      ⟨w.seq .caregiverDocumentLog + 1, documentId, actorUserId, .delete⟩,
      (.delete .caregiverDocument documentId : Statement)] w.db = .ok db' := by
  obtain ⟨db₁, hdb₁⟩ := Dml.insert_of_apart w.db (i := Entity.caregiverDocumentLog)
    (r := ⟨w.seq .caregiverDocumentLog + 1, documentId, actorUserId, .delete⟩)
    (fun l hl => ⟨fun e => by
      have hle := hids.log l hl
      have he : l.id = w.seq .caregiverDocumentLog + 1 := e
      omega, rfl, rfl⟩)
    (by
      simp only [schema, shape, Bool.and_eq_true]
      exact ⟨⟨hid, bigint_of_find? hfound⟩, bigint_of_find? huser⟩)
    (Database.refsMet_iff.mpr (List.forall_mem_cons.mpr
      ⟨⟨_, hfound⟩, List.forall_mem_singleton.mpr ⟨_, huser⟩⟩))
  have hfound₁ : db₁.find? .caregiverDocument documentId ≠ none := by
    rw [Database.find?, (Dml.insert_ok hdb₁).2.2 .caregiverDocument (by decide)]
    exact fun e => by cases e.symm.trans hfound
  have hk : DocumentCascade db₁ (fun _ => False) (fun key => key = documentId)
      .caregiverDocument documentId := rfl
  obtain ⟨db₂, hdb₂⟩ := Dml.delete_of_cascades
    (cascades_documentCascade fun _ _ h => h.elim) hk hfound₁
    fun t r hr ref href hrestrict => not_documentCascade_of_restrict href hrestrict
  refine ⟨db₂, ?_⟩
  rw [Dml.applyAll_cons, hdb₁]
  exact (Dml.applyAll_singleton _ _).trans hdb₂

/-- The removal of a relation takes its documents and their logs along. -/
theorem removal_rows {relationId : ℤ}
    (h : (Dml.delete .caregiverWorkerRelation relationId : Statement).apply db = .ok db') :
    ((db'.rows .caregiverDocument).Sublist (db.rows .caregiverDocument) ∧
        ((∀ d ∈ db.rows .caregiverDocument, d.relationId ≠ relationId) →
          db'.rows .caregiverDocument = db.rows .caregiverDocument)) ∧
      (db'.rows .caregiverDocumentLog).Sublist (db.rows .caregiverDocumentLog) ∧
        ((∀ l ∈ db.rows .caregiverDocumentLog, ∀ d ∈ db.rows .caregiverDocument,
            l.documentId = d.id → d.relationId ≠ relationId) →
          db'.rows .caregiverDocumentLog = db.rows .caregiverDocumentLog) := by
  have hX : db.Cascades (DocumentCascade db (fun key => key = relationId) fun key =>
      ∃ d ∈ db.rows .caregiverDocument, d.id = key ∧ d.relationId = relationId) :=
    cascades_documentCascade fun d hd hrelation => ⟨d, hd, rfl, hrelation⟩
  have hk : DocumentCascade db (fun key => key = relationId) (fun key =>
      ∃ d ∈ db.rows .caregiverDocument, d.id = key ∧ d.relationId = relationId)
      .caregiverWorkerRelation relationId := rfl
  refine ⟨⟨Dml.delete_sublist h _, fun hnone => ?_⟩, Dml.delete_sublist h _, fun hnone => ?_⟩
  · refine Dml.delete_rows_of_outside hX hk h fun d hd => ?_
    rintro ⟨d', hd', hkey, hrelation⟩
    exact hnone d' hd' hrelation
  · refine Dml.delete_rows_of_outside hX hk h fun l hl => ?_
    rintro ⟨l', hl', hkey, d, hd, hid, hrelation⟩
    exact hnone l' hl' d hd hid.symm hrelation

end Delete

/-! ## Downloads and deletions -/

section Logged

variable {env : Env} {fault : Option Fault} {files : StorageService D} {w : World V D}
  {actorUserId documentId caregiverUserId relationId : ℤ}

/-- What a by-id call has done when it has recorded its log entry. -/
structure LogRecorded (fault : Option Fault) (w : World V D) (actorUserId documentId : ℤ)
    (action : CaregiverDocumentActionType) (doc : CaregiverDocument) (s : Session)
    (w' : World V D) : Prop where
  allowed : DocumentCall.Allowed w.db actorUserId (.delete documentId)
  reads : ¬StruckReading fault w (callReads w.db actorUserId)
  found : w.db.find? .caregiverDocument documentId = some doc
  session : s = { pending := [.insert .caregiverDocumentLog
    ⟨w.seq .caregiverDocumentLog + 1, documentId, actorUserId, action⟩] }
  db : w'.db = w.db
  seq : w'.seq .caregiverDocument = w.seq .caregiverDocument ∧
    w'.seq .caregiverDocumentLog = w.seq .caregiverDocumentLog + 1
  disk : w'.disk = w.disk

/-- The row of the log is pending, not yet written: whether it stays is settled at the
commit. -/
theorem ensures_log {action : CaregiverDocumentActionType} {doc : CaregiverDocument}
    (hfound : w.db.find? .caregiverDocument documentId = some doc)
    (hallowed : DocumentCall.Allowed w.db actorUserId (.delete documentId)) :
    (faulty env fault).Ensures (AfterReads fault w (callReads w.db actorUserId))
      (CaregiverDocumentService.log actorUserId doc.id action)
      (fun _ s w' => LogRecorded fault w actorUserId documentId action doc s w')
      (Stopped w) := by
  refine Machine.Ensures.bind (.lift (Q := fun _ s w' =>
    LogRecorded fault w actorUserId documentId action doc s w') ?_) fun _ => .ret fun _ _ h => h
  rintro s w' ⟨rfl, rfl, hreads⟩
  have hid : doc.id = documentId := Table.find?_key hfound
  rw [faulty_exec, execFaulty_of_quiet _ (by simp)]
  refine ⟨hallowed, hreads, hfound, ?_, rfl, ⟨?_, ?_⟩, rfl⟩
  · rw [hid]
    rfl
  · show Function.update w.seq .caregiverDocumentLog (w.seq .caregiverDocumentLog + 1)
      .caregiverDocument = _
    rw [Function.update_of_ne (by decide)]
  · show Function.update w.seq .caregiverDocumentLog (w.seq .caregiverDocumentLog + 1)
      .caregiverDocumentLog = _
    rw [Function.update_self]

/-- A download ends with its row of the log pending, and the storage untouched. -/
theorem ensures_loadForDownload :
    (faulty env fault).Ensures (AfterReads fault w 0) (loadForDownload actorUserId documentId)
      (fun doc s w' => LogRecorded fault w actorUserId documentId .download doc s w')
      (Stopped w) := by
  refine ensures_ownDocument.bind fun doc => .of_and fun ⟨hfound, hallowed⟩ => ?_
  rw [Nat.zero_add]
  exact (ensures_log hfound hallowed).bind fun _ => .ret fun _ _ h => h

/-- What a deletion has done when its script returns: the file is removed, its log
entry and the removal of its row are recorded. -/
structure DeletionRecorded (fault : Option Fault) (files : StorageService D) (w : World V D)
    (actorUserId documentId : ℤ) (doc : CaregiverDocument) (s : Session) (w' : World V D) :
    Prop where
  allowed : DocumentCall.Allowed w.db actorUserId (.delete documentId)
  reads : ¬StruckReading fault w (callReads w.db actorUserId)
  found : w.db.find? .caregiverDocument documentId = some doc
  erase : files.delete doc.filename w.disk = (.ok (), w'.disk)
  session : s = { pending := [.insert .caregiverDocumentLog
    ⟨w.seq .caregiverDocumentLog + 1, documentId, actorUserId, .delete⟩,
    .delete .caregiverDocument documentId] }
  db : w'.db = w.db
  seq : w'.seq .caregiverDocument = w.seq .caregiverDocument ∧
    w'.seq .caregiverDocumentLog = w.seq .caregiverDocumentLog + 1

/-- What a deletion that fails has done: nothing, or the storage was asked. -/
def DeletionFailed (fault : Option Fault) (files : StorageService D) (w : World V D)
    (actorUserId documentId : ℤ) (w' : World V D) : Prop :=
  w'.db = w.db ∧ (w'.disk = w.disk ∨ ∃ doc t,
    DocumentCall.Allowed w.db actorUserId (.delete documentId) ∧
      ¬StruckReading fault w (callReads w.db actorUserId) ∧
      w.db.find? .caregiverDocument documentId = some doc ∧
      files.delete doc.filename w.disk = (.error t, w'.disk))

/-- The file is erased while the deletion of the row is only pending; every later
failure leaves the document without its file. -/
theorem ensures_delete :
    (faulty env fault).Ensures (AfterReads fault w 0)
      (CaregiverDocumentService.delete files actorUserId documentId)
      (fun _ s w' => ∃ doc, DeletionRecorded fault files w actorUserId documentId doc s w')
      (fun _ w' => DeletionFailed fault files w actorUserId documentId w') := by
  have hstopped : ∀ (s : Session) (w' : World V D), Stopped w s w' →
      DeletionFailed fault files w actorUserId documentId w' := by
    rintro s w' ⟨n, rfl⟩
    exact ⟨rfl, .inl rfl⟩
  refine (ensures_ownDocument.weaken (fun _ _ h => h) (fun _ _ _ h => h) hstopped).bind
    fun doc => .of_and fun ⟨hfound, hallowed⟩ => ?_
  rw [Nat.zero_add]
  refine ((ensures_log hfound hallowed).weaken (fun _ _ h => h) (fun _ _ _ h => h)
    hstopped).bind fun _ => ?_
  refine Machine.Ensures.bind (Q := fun _ s w' =>
    (files.delete doc.filename w.disk).1 = .ok () ∧
      ¬StruckReading fault w (callReads w.db actorUserId) ∧
      s = { pending := [.insert .caregiverDocumentLog
        ⟨w.seq .caregiverDocumentLog + 1, documentId, actorUserId, .delete⟩] } ∧
      w'.db = w.db ∧ (w'.seq .caregiverDocument = w.seq .caregiverDocument ∧
        w'.seq .caregiverDocumentLog = w.seq .caregiverDocumentLog + 1) ∧
      w'.disk = (files.delete doc.filename w.disk).2) (.lift ?_) fun _ =>
        .of_and fun herase => .of_and fun hreads => .lift ?_
  · rintro s w' ⟨-, hreads, -, rfl, hdb, hseq, hdisk⟩
    rw [faulty_exec, execFaulty_of_quiet _ (by simp)]
    simp only [exec, hdisk]
    cases herase : (files.delete doc.filename w.disk).1 with
    | ok _ => exact ⟨rfl, hreads, rfl, hdb, hseq, rfl⟩
    | error t =>
        exact ⟨hdb, .inr ⟨doc, t, hallowed, hreads, hfound, Prod.ext herase rfl⟩⟩
  · rintro s w' ⟨rfl, hdb, hseq, hdisk⟩
    rw [faulty_exec, execFaulty_of_quiet _ (by simp)]
    have hid : keyOf .caregiverDocument doc = documentId := Table.find?_key hfound
    refine ⟨doc, hallowed, hreads, hfound, Prod.ext herase hdisk.symm, ?_, hdb, hseq⟩
    rw [← hid]
    rfl

/-- What the removal of a relation has recorded. -/
theorem ensures_removeRelation :
    (faulty env fault).Ensures (AfterReads fault w 0)
      (CaregiverService.removeRelation caregiverUserId relationId)
      (fun _ s w' => OwnRelation w.db caregiverUserId relationId ∧ ¬StruckReading fault w 2 ∧
        s = { pending := [.delete .caregiverWorkerRelation relationId] } ∧
        w' = w.after 3) (Stopped w) := by
  refine ensures_removeRelationReads (fun relation hrelation hown => .lift ?_) fun _ _ h => h
  rintro s w' ⟨rfl, rfl, hreads⟩
  rw [faulty_exec, execFaulty_of_quiet _ (by simp)]
  have hid : keyOf .caregiverWorkerRelation relation = relationId := Table.find?_key hrelation
  refine ⟨hown, hreads, ?_, rfl⟩
  rw [← hid]
  rfl

end Logged

/-! ## Requests -/

section Serve

variable {env : Env} {fault : Option Fault} {files : StorageService D} {w : World V D}

/-- **An upload** ends refused, with the storage failing, lost after the storage, or
uploaded. The two INSERTs fit one after the other because the ids are fresh
(`upload_inserts`). -/
theorem serve_upload (hids : IdsDrawn w) (actorUserId relationId typeId size : ℤ)
    (originalFilename : String) (file : Bytes) (contentType : Option String) :
    let op := DocumentOp.call actorUserId
      (.upload relationId typeId originalFilename file size contentType)
    DocumentStep env fault files w op (serveFaulty env fault (op.script files) w).1
      (serveFaulty env fault (op.script files) w).2 := by
  intro op
  have htriple : (faulty env fault).Ensures (AfterReads fault w 0) (op.script files)
      (fun reply s w' => ∃ response uploaded new,
        reply = .uploaded response ∧ response.id = new.id ∧
          UploadSent env fault files w actorUserId relationId typeId originalFilename file size
            contentType uploaded new s w')
      fun _ w' => UploadFailed env fault files w actorUserId relationId typeId originalFilename
        file size contentType w' :=
    (ensures_upload hids).bind fun response => .ret fun s w' ⟨uploaded, new, hid, hsent⟩ =>
      ⟨response, uploaded, new, rfl, hid, hsent⟩
  obtain ⟨e, s, w', hrun, hdb, hdisk⟩ | ⟨reply, s, w', hrun, response, uploaded, new, rfl,
    hanswer, hsent⟩ := htriple.run_cases afterReads_zero
  · rw [show serveFaulty env fault (op.script files) w = (.error e, w'.tick) from
      serveFaulty_of_error hrun]
    obtain hdisk | ⟨hallowed, hreads, ⟨t, hstore⟩ | ⟨uploaded, hstore, hlost⟩⟩ := hdisk
    · exact .refused hdb hdisk
    · exact .storeFailed hallowed hreads hstore hdb
    · exact .uploadLost hallowed hreads hstore hlost hdb
  · obtain ⟨db₁, hdb₁⟩ := hsent.inserted
    have hfailed : s.failed = false := by rw [hsent.session]
    have hwritten : Dml.applyAll s.written w'.db = .ok db₁ := by
      rw [hsent.session, hsent.db]
      exact (Dml.applyAll_singleton _ _).trans hdb₁
    -- The flush has written the document, so the session is not in read-only mode.
    obtain ⟨hro, -⟩ | ⟨-, ⟨e, hserve, hcause⟩ | ⟨hcommit, db₂, hdb₂, hserve⟩⟩ :=
      serveFaulty_of_ok hrun hfailed hwritten
    · cases hro.symm.trans hsent.writable
    · rw [show serveFaulty env fault (op.script files) w = (.error e, w'.tick.tick) from hserve]
      refine .uploadLost hsent.allowed hsent.reads hsent.store (fun htakes => ?_) hsent.db
      obtain ⟨e', he'⟩ | ⟨v, hv⟩ := hcause
      · exact htakes.2.2.1 e' he'
      -- No fault and fresh ids: the row of the log would have been taken.
      · obtain ⟨db₁', db₂, hdb₁', hdb₂⟩ := upload_inserts hids htakes.2.2.2 hsent.allowed
          hsent.id hsent.naive
        cases hdb₁.symm.trans hdb₁'
        rw [hsent.session] at hv
        cases hv.symm.trans ((Dml.applyAll_singleton _ _).trans hdb₂)
    · rw [show serveFaulty env fault (op.script files) w =
        (.ok (.uploaded response), { w'.tick with db := db₂ }) from hserve]
      rw [hsent.session] at hdb₂
      have hlog := (Dml.applyAll_singleton _ _).symm.trans hdb₂
      obtain ⟨hdocs₁, -, hframe₁⟩ := Dml.insert_ok hdb₁
      obtain ⟨hlogs₂, -, hframe₂⟩ := Dml.insert_ok hlog
      refine .uploaded hsent.store hsent.id hsent.seq ?_ ?_ hanswer
      · show db₂.rows .caregiverDocument = _
        rw [Database.rows, hframe₂ .caregiverDocument (by decide), ← hdocs₁]
      · show db₂.rows .caregiverDocumentLog = _
        rw [hlogs₂, Database.rows, hframe₁ .caregiverDocumentLog (by decide)]

/-- **A download** is refused, answered with a row of the log, or, in read-only mode,
answered without one. -/
theorem serve_loadForDownload (actorUserId documentId : ℤ) :
    let op := DocumentOp.call actorUserId (.loadForDownload documentId)
    DocumentStep env fault files w op (serveFaulty env fault (op.script files) w).1
      (serveFaulty env fault (op.script files) w).2 := by
  intro op
  have htriple : (faulty env fault).Ensures (AfterReads fault w 0) (op.script files)
      (fun reply s w' => ∃ doc, reply = .loaded doc ∧
        LogRecorded fault w actorUserId documentId .download doc s w') (Stopped w) :=
    ensures_loadForDownload.bind fun doc => .ret fun s w' h => ⟨doc, rfl, h⟩
  obtain ⟨e, s, w', hrun, n, rfl⟩ | ⟨reply, s, w', hrun, doc, rfl, hlogged⟩ :=
    htriple.run_cases afterReads_zero
  · rw [show serveFaulty env fault (op.script files) w = (.error e, (w.after n).tick) from
      serveFaulty_of_error hrun]
    exact .refused rfl rfl
  · have hfailed : s.failed = false := by rw [hlogged.session]
    have hwritten : Dml.applyAll s.written w'.db = .ok w.db := by
      rw [hlogged.session, hlogged.db]
      rfl
    obtain ⟨hro, hserve⟩ | ⟨hro, ⟨e, hserve, -⟩ | ⟨-, db₂, hdb₂, hserve⟩⟩ :=
      serveFaulty_of_ok hrun hfailed hwritten
    · rw [show serveFaulty env fault (op.script files) w = (.ok (.loaded doc), w'.tick) from
        hserve]
      exact .downloadUnlogged hlogged.allowed hro hlogged.db hlogged.disk
    · rw [show serveFaulty env fault (op.script files) w = (.error e, w'.tick.tick) from hserve]
      exact .refused hlogged.db hlogged.disk
    · rw [show serveFaulty env fault (op.script files) w =
        (.ok (.loaded doc), { w'.tick with db := db₂ }) from hserve]
      rw [hlogged.session] at hdb₂
      obtain ⟨hlogs, -, hframe⟩ := Dml.insert_ok ((Dml.applyAll_singleton _ _).symm.trans hdb₂)
      refine .downloaded hro (Table.find?_key hlogged.found) hlogged.seq ?_ hlogs hlogged.disk
      show db₂.rows .caregiverDocument = _
      rw [Database.rows, hframe .caregiverDocument (by decide)]

/-- **A listing** writes nothing, so its commit can only pass or fail. -/
theorem serve_listByRelation (actorUserId relationId : ℤ) :
    let op := DocumentOp.call actorUserId (.listByRelation relationId)
    DocumentStep env fault files w op (serveFaulty env fault (op.script files) w).1
      (serveFaulty env fault (op.script files) w).2 := by
  intro op
  have htriple : (faulty env fault).Ensures (AfterReads fault w 0) (op.script files)
      (fun reply s w' => (∃ rs, reply = .listed rs) ∧ s = {} ∧ w'.db = w.db ∧ w'.disk = w.disk)
      (Stopped w) := by
    refine Machine.Ensures.bind (Q := fun _ s w' => s = {} ∧ w'.db = w.db ∧ w'.disk = w.disk)
      ?_ fun rs => .ret fun s w' h => ⟨⟨rs, rfl⟩, h⟩
    refine ensures_getOrRaise.bind fun relation => .of_and fun _ => ?_
    refine ensures_ensureActorOwnsRelation.bind fun _ => .of_and fun _ => ?_
    refine ensures_select.bind fun rows => .of_and fun _ => .ret ?_
    rintro s w' ⟨rfl, rfl, -⟩
    exact ⟨rfl, rfl, rfl⟩
  obtain ⟨e, s, w', hrun, n, rfl⟩ | ⟨reply, s, w', hrun, ⟨rs, rfl⟩, rfl, hdb, hdisk⟩ :=
    htriple.run_cases afterReads_zero
  · rw [serveFaulty_of_error hrun]
    exact .refused rfl rfl
  · obtain ⟨-, hserve⟩ | ⟨-, ⟨e, hserve, -⟩ | ⟨-, db₂, hdb₂, hserve⟩⟩ :=
      serveFaulty_of_ok hrun rfl (Dml.applyAll_nil _)
    · rw [hserve]
      exact .listed hdb hdisk
    · rw [hserve]
      exact .refused hdb hdisk
    · rw [hserve]
      cases hdb₂
      exact .listed hdb hdisk

/-- **A deletion** ends refused, with the storage failing, lost, or done. A deletion
that is lost may be answered all the same: in read-only mode the caller sees a success.
-/
theorem serve_delete (hids : IdsDrawn w) (actorUserId documentId : ℤ) :
    let op := DocumentOp.call actorUserId (.delete documentId)
    DocumentStep env fault files w op (serveFaulty env fault (op.script files) w).1
      (serveFaulty env fault (op.script files) w).2 := by
  intro op
  have htriple : (faulty env fault).Ensures (AfterReads fault w 0) (op.script files)
      (fun reply s w' => ∃ doc, reply = .deleted ∧
        DeletionRecorded fault files w actorUserId documentId doc s w')
      (fun _ w' => DeletionFailed fault files w actorUserId documentId w') :=
    ensures_delete.bind fun _ => .ret fun s w' ⟨doc, h⟩ => ⟨doc, rfl, h⟩
  obtain ⟨e, s, w', hrun, hdb, hdisk⟩ | ⟨reply, s, w', hrun, doc, rfl, hsent⟩ :=
    htriple.run_cases afterReads_zero
  · rw [show serveFaulty env fault (op.script files) w = (.error e, w'.tick) from
      serveFaulty_of_error hrun]
    obtain hdisk | ⟨doc, t, hallowed, hreads, hfound, herase⟩ := hdisk
    · exact .refused hdb hdisk
    · exact .eraseFailed hallowed hreads hfound herase hdb
  · have hfailed : s.failed = false := by rw [hsent.session]
    have hwritten : Dml.applyAll s.written w'.db = .ok w.db := by
      rw [hsent.session, hsent.db]
      rfl
    obtain ⟨hro, hserve⟩ | ⟨hro, ⟨e, hserve, hcause⟩ | ⟨hcommit, db₂, hdb₂, hserve⟩⟩ :=
      serveFaulty_of_ok hrun hfailed hwritten
    · rw [show serveFaulty env fault (op.script files) w = (.ok .deleted, w'.tick) from hserve]
      refine .deletionLost hsent.allowed hsent.reads hsent.found hsent.erase (fun htakes => ?_)
        hsent.db
      cases hro.symm.trans htakes.1
    · rw [show serveFaulty env fault (op.script files) w = (.error e, w'.tick.tick) from hserve]
      refine .deletionLost hsent.allowed hsent.reads hsent.found hsent.erase (fun htakes => ?_)
        hsent.db
      obtain ⟨e', he'⟩ | ⟨v, hv⟩ := hcause
      · exact htakes.2.1 e' he'
      -- The row of the log refers to the user the gate has read, so only a fault can
      -- stop it.
      · obtain ⟨⟨relation, -, user, huser, -⟩, -⟩ := hsent.allowed
        obtain ⟨db', hdb'⟩ := deletion_applies hids htakes.2.2 hsent.found huser
        rw [hsent.session] at hv
        cases hv.symm.trans hdb'
    · rw [show serveFaulty env fault (op.script files) w =
        (.ok .deleted, { w'.tick with db := db₂ }) from hserve]
      rw [hsent.session] at hdb₂
      obtain ⟨hdocs, hlogs⟩ := deletion_rows rfl hdb₂
      exact .deleted hsent.allowed hsent.found hsent.erase hsent.seq hdocs hlogs

/-- **A removal** never calls the storage: the documents go with the relation, their
files stay. -/
theorem serve_removeRelation (caregiverUserId relationId : ℤ) :
    let op := DocumentOp.removeRelation caregiverUserId relationId
    DocumentStep env fault files w op (serveFaulty env fault (op.script files) w).1
      (serveFaulty env fault (op.script files) w).2 := by
  intro op
  have htriple : (faulty env fault).Ensures (AfterReads fault w 0) (op.script files)
      (fun reply s w' => reply = .relationRemoved ∧
        OwnRelation w.db caregiverUserId relationId ∧ ¬StruckReading fault w 2 ∧
          s = { pending := [.delete .caregiverWorkerRelation relationId] } ∧ w' = w.after 3)
      (Stopped w) := ensures_removeRelation.bind fun _ => .ret fun s w' h => ⟨rfl, h⟩
  obtain ⟨e, s, w', hrun, n, rfl⟩ | ⟨reply, s, w', hrun, rfl, hown, hreads, rfl, rfl⟩ :=
    htriple.run_cases afterReads_zero
  · rw [show serveFaulty env fault (op.script files) w = (.error e, (w.after n).tick) from
      serveFaulty_of_error hrun]
    exact .refused rfl rfl
  · obtain ⟨hro, hserve⟩ | ⟨hro, ⟨e, hserve, -⟩ | ⟨hcommit, db₂, hdb₂, hserve⟩⟩ :=
      serveFaulty_of_ok hrun rfl (Dml.applyAll_nil _)
    · rw [show serveFaulty env fault (op.script files) w =
        (.ok .relationRemoved, (w.after 3).tick) from hserve]
      exact .removalUnsaved hro rfl rfl
    · rw [show serveFaulty env fault (op.script files) w =
        (.error e, (w.after 3).tick.tick) from hserve]
      exact .refused rfl rfl
    · rw [show serveFaulty env fault (op.script files) w =
        (.ok .relationRemoved, { (w.after 3).tick with db := db₂ }) from hserve]
      obtain ⟨hdocs, hlogs⟩ := removal_rows ((Dml.applyAll_singleton _ _).symm.trans hdb₂)
      exact .relationRemoved hown hreads hro hcommit rfl hdocs hlogs rfl

/-- **Every request is one of the steps.** -/
theorem serve_documentStep (hids : IdsDrawn w) (op : DocumentOp) :
    DocumentStep env fault files w op (serveFaulty env fault (op.script files) w).1
      (serveFaulty env fault (op.script files) w).2 := by
  cases op with
  | call actorUserId c =>
      cases c with
      | upload relationId typeId originalFilename file size contentType =>
          exact serve_upload hids actorUserId relationId typeId size originalFilename file
            contentType
      | listByRelation relationId => exact serve_listByRelation actorUserId relationId
      | loadForDownload documentId => exact serve_loadForDownload actorUserId documentId
      | delete documentId => exact serve_delete hids actorUserId documentId
  | removeRelation caregiverUserId relationId =>
      exact serve_removeRelation caregiverUserId relationId

end Serve

/-! ## Ids -/

/-- A step draws the ids of the rows it adds. -/
theorem DocumentStep.idsDrawn {env : Env} {fault : Option Fault} {files : StorageService D}
    {w w' : World V D} {op : DocumentOp} {r : Except Err DocumentReply} (hids : IdsDrawn w)
    (hseq : ∀ t, w.seq t ≤ w'.seq t) (h : DocumentStep env fault files w op r w') :
    IdsDrawn w' := by
  -- rows that were there have ids drawn before, and sequences only grow
  have hsame : w'.db = w.db → IdsDrawn w' := fun hdb =>
    ⟨fun d hd => Int.le_trans (hids.document d (hdb ▸ hd)) (hseq _),
      fun l hl => Int.le_trans (hids.log l (hdb ▸ hl)) (hseq _)⟩
  have hkept : (∀ d ∈ w'.db.rows .caregiverDocument, d ∈ w.db.rows .caregiverDocument) →
      (∀ l ∈ w'.db.rows .caregiverDocumentLog, l ∈ w.db.rows .caregiverDocumentLog) →
      IdsDrawn w' := fun hdocs hlogs =>
    ⟨fun d hd => Int.le_trans (hids.document d (hdocs d hd)) (hseq _),
      fun l hl => Int.le_trans (hids.log l (hlogs l hl)) (hseq _)⟩
  cases h with
  | refused db => exact hsame db
  | listed db => exact hsame db
  | storeFailed _ _ _ db => exact hsame db
  | uploadLost _ _ _ _ db => exact hsame db
  | uploaded store id seq documents logs =>
      refine ⟨fun d hd => ?_, fun l hl => ?_⟩
      · rw [documents] at hd
        obtain hd | hd := List.mem_append.mp hd
        · exact Int.le_trans (hids.document d hd) (hseq _)
        · rw [List.mem_singleton.mp hd, seq.1]
          exact Int.le_of_eq id
      · rw [logs] at hl
        obtain hl | hl := List.mem_append.mp hl
        · exact Int.le_trans (hids.log l hl) (hseq _)
        · rw [List.mem_singleton.mp hl, seq.2]
  | downloaded writable id seq documents logs =>
      refine ⟨fun d hd => ?_, fun l hl => ?_⟩
      · rw [documents] at hd
        exact Int.le_trans (hids.document d hd) (hseq _)
      · rw [logs] at hl
        obtain hl | hl := List.mem_append.mp hl
        · exact Int.le_trans (hids.log l hl) (hseq _)
        · rw [List.mem_singleton.mp hl, seq.2]
  | downloadUnlogged _ _ db => exact hsame db
  | eraseFailed _ _ _ _ db => exact hsame db
  | deletionLost _ _ _ _ _ db => exact hsame db
  | deleted _ _ _ _ documents logs =>
      refine hkept (fun d hd => ?_) fun l hl => ?_
      · rw [documents] at hd
        exact (List.mem_filter.mp hd).1
      · rw [logs] at hl
        exact (List.mem_filter.mp hl).1
  | relationRemoved _ _ _ _ _ documents logs =>
      exact hkept (fun d hd => documents.1.subset hd) fun l hl => logs.1.subset hl
  | removalUnsaved _ db => exact hsame db

/-- A caregiver with a relation to a worker, and a type of document. -/
def Db.caregiverSample : Db := Db.ofStatements
  [.insert .user ⟨1, "admin", none, "", "Admin", none, .admin, true, none⟩,
    .insert .user ⟨2, "worker", none, "", "Worker", none, .worker, true, none⟩,
    .insert .user ⟨3, "caregiver", none, "", "Caregiver", none, .caregiver, true, none⟩,
    .insert .challengedWorker ⟨1, 2, none, none⟩,
    .insert .caregiver ⟨1, 3⟩,
    .insert .caregiverWorkerRelation ⟨1, 1, 1⟩,
    .insert .caregiverDocumentType ⟨1, "Diagnosis"⟩]

/-- An installation with a caregiver that has served nothing yet. -/
def World.caregiverSample : World Unit (List String) := World.fresh Db.caregiverSample []

/-- The caregiver uploads a document. -/
def sampleUpload : DocumentOp := .call 3 (.upload 1 1 "diagnosis.pdf" [] 0 none)

theorem idsDrawn_caregiverSample : IdsDrawn World.caregiverSample := by
  constructor <;> decide +kernel

end Rooti
