import Rooti.Core.Reading
import Rooti.Services.Document

/-!
# The gate of caregiver documents

Every document call resolves the relation it is about and asks whether the actor
may act for it, before it records a change or touches the storage
(`document_gate`).

## Main definitions

* `DocumentCall` — the calls of `CaregiverDocumentService`
* `Permitted` — whom the gate lets pass
* `DocumentCall.Allowed` — what a call asks for exists, and the gate lets it pass
-/

namespace Rooti

open Relational Program CaregiverDocumentService

variable {V D : Type}

/-! ## Calls -/

/-- The calls of `CaregiverDocumentService`. -/
inductive DocumentCall
  | upload (relationId typeId : ℤ) (originalFilename : String) (file : Bytes) (size : ℤ)
      (contentType : Option String)
  | listByRelation (relationId : ℤ)
  | loadForDownload (documentId : ℤ)
  | delete (documentId : ℤ)

/-- Their answers, and that of `remove_relation`. -/
inductive DocumentReply
  | uploaded (response : DocumentResponse)
  | listed (responses : List DocumentResponse)
  | loaded (document : CaregiverDocument)
  | deleted
  | relationRemoved
  deriving DecidableEq

namespace DocumentCall

/-- The script of a call. -/
def script (files : StorageService D) (actorUserId : ℤ) :
    DocumentCall → Async V D DocumentReply
  | .upload relationId typeId originalFilename file size contentType =>
      (CaregiverDocumentService.upload files actorUserId relationId typeId originalFilename file
        size contentType).bind fun r => .ret (.uploaded r)
  | .listByRelation relationId =>
      (CaregiverDocumentService.listByRelation actorUserId relationId).bind fun rs =>
        .ret (.listed rs)
  | .loadForDownload documentId =>
      (CaregiverDocumentService.loadForDownload actorUserId documentId).bind fun doc =>
        .ret (.loaded doc)
  | .delete documentId =>
      (CaregiverDocumentService.delete files actorUserId documentId).bind fun _ => .ret .deleted

/-- The relation a call is about. -/
def relation? (db : Db) : DocumentCall → Option CaregiverWorkerRelation
  | .upload relationId .. | .listByRelation relationId =>
      db.find? .caregiverWorkerRelation relationId
  | .loadForDownload documentId | .delete documentId =>
      (db.find? .caregiverDocument documentId).bind fun doc =>
        db.find? .caregiverWorkerRelation doc.relationId

/-- The document type a call names exists. -/
def TypeExists (db : Db) : DocumentCall → Prop
  | .upload _ typeId .. => db.find? .caregiverDocumentType typeId ≠ none
  | _ => True

end DocumentCall

/-- **Whom the gate lets pass**: an administrator, or the user of the caregiver
whose relation it is. -/
def Permitted (db : Db) (actorUserId : ℤ) (relation : CaregiverWorkerRelation) : Prop :=
  ∃ user, db.find? .user actorUserId = some user ∧
    (user.role = .admin ∨
      ∃ caregiver, db.find? .caregiver relation.caregiverId = some caregiver ∧
        caregiver.userId = actorUserId)

/-- What a call asks for exists, and the gate lets it pass. -/
def DocumentCall.Allowed (db : Db) (actorUserId : ℤ) (call : DocumentCall) : Prop :=
  (∃ relation, call.relation? db = some relation ∧ Permitted db actorUserId relation) ∧
    call.TypeExists db

/-! ## The gate -/

section Gate

variable {env : Env} {w : World V D} {actorUserId relationId documentId : ℤ}
  {relation : CaregiverWorkerRelation}

/-- The gate lets through whom it permits. -/
theorem reads_ensureActorOwnsRelation (h : Permitted w.db actorUserId relation) :
    Reads env (ensureActorOwnsRelation actorUserId relation) w () := by
  obtain ⟨user, huser, hpass⟩ := h
  refine .bind (reads_dbGet_of_find? huser) fun w₁ hw₁ => .bind .orRaise fun w₂ hw₂ => ?_
  by_cases hrole : user.role = .admin
  · rw [if_pos hrole]
    exact .ret
  · rw [if_neg hrole]
    obtain ⟨caregiver, hcaregiver, huserId⟩ := hpass.resolve_left hrole
    rw [← (hw₁.trans hw₂).db] at hcaregiver
    exact .bind (reads_dbGet_of_find? hcaregiver) fun _ _ => .raiseIf (by simp [huserId])

/-- The gate refuses everybody else. -/
theorem refuses_ensureActorOwnsRelation (h : ¬Permitted w.db actorUserId relation) :
    Refuses env (ensureActorOwnsRelation actorUserId relation) w := by
  cases huser : w.db.find? .user actorUserId with
  | none =>
      obtain hnone | hrefused := dbGet_of_none env huser
      · exact .bind_of_reads hnone fun _ _ => .bind .raise
      · exact hrefused.bind
  | some user =>
      refine .bind_of_reads (reads_dbGet_of_find? huser) fun w₁ hw₁ =>
        .bind_of_reads .orRaise fun w₂ hw₂ => ?_
      have hrole : user.role ≠ .admin := fun hrole => h ⟨user, huser, .inl hrole⟩
      rw [if_neg hrole]
      cases hcaregiver : w.db.find? .caregiver relation.caregiverId with
      | none =>
          rw [← (hw₁.trans hw₂).db] at hcaregiver
          obtain hnone | hrefused := dbGet_of_none env hcaregiver
          · exact .bind_of_reads hnone fun _ _ => .raiseIf rfl
          · exact hrefused.bind
      | some caregiver =>
          have huserId : caregiver.userId ≠ actorUserId := fun huserId =>
            h ⟨user, huser, .inr ⟨caregiver, hcaregiver, huserId⟩⟩
          rw [← (hw₁.trans hw₂).db] at hcaregiver
          exact .bind_of_reads (reads_dbGet_of_find? hcaregiver) fun _ _ =>
            .raiseIf (by simp [huserId])

/-- A call about a relation is refused unless the relation exists and the actor
may act for it. -/
theorem refuses_ofRelation {α : Type} {f : Async V D α}
    (h : ∀ relation, w.db.find? .caregiverWorkerRelation relationId = some relation →
      ¬Permitted w.db actorUserId relation) :
    Refuses env ((relationOr404 relationId).bind fun relation =>
      (ensureActorOwnsRelation actorUserId relation).bind fun _ => f) w := by
  cases hrelation : w.db.find? .caregiverWorkerRelation relationId with
  | none => exact (refuses_getOrRaise hrelation).bind
  | some relation =>
      refine .bind_of_reads (reads_getOrRaise hrelation) fun w₁ hw₁ => Refuses.bind ?_
      refine refuses_ensureActorOwnsRelation ?_
      rw [hw₁.db]
      exact h relation hrelation

/-- The document of a by-id call is refused unless it exists and the actor may
act for its relation. -/
theorem refuses_ownDocument
    (h : ∀ relation, (w.db.find? .caregiverDocument documentId).bind (fun doc =>
      w.db.find? .caregiverWorkerRelation doc.relationId) = some relation →
        ¬Permitted w.db actorUserId relation) :
    Refuses env (ownDocument actorUserId documentId) w := by
  cases hdoc : w.db.find? .caregiverDocument documentId with
  | none =>
      obtain hnone | hrefused := dbGet_of_none env hdoc
      · exact .bind_of_reads hnone fun _ _ => .bind .raise
      · exact hrefused.bind
  | some doc =>
      refine .bind_of_reads (reads_dbGet_of_find? hdoc) fun w₁ hw₁ =>
        .bind_of_reads .orRaise fun w₂ hw₂ => refuses_ofRelation fun relation hrelation => ?_
      rw [(hw₁.trans hw₂).db] at hrelation ⊢
      exact h relation (by simpa [hdoc] using hrelation)

/-- **A call that is not allowed is refused.** -/
theorem refuses_of_not_allowed {files : StorageService D} {call : DocumentCall}
    (h : ¬call.Allowed w.db actorUserId) : Refuses env (call.script files actorUserId) w := by
  cases call with
  | upload relationId typeId originalFilename file size contentType =>
      by_cases hgate : ∃ relation, w.db.find? .caregiverWorkerRelation relationId =
          some relation ∧ Permitted w.db actorUserId relation
      · -- the gate lets the call pass, so it is the type that is missing
        obtain ⟨relation, hrelation, hpermitted⟩ := hgate
        have htype : w.db.find? .caregiverDocumentType typeId = none := by
          by_contra htype
          exact h ⟨⟨relation, hrelation, hpermitted⟩, htype⟩
        refine Refuses.bind (.bind_of_reads (reads_getOrRaise hrelation) fun w₁ hw₁ => ?_)
        refine .bind_of_reads (reads_ensureActorOwnsRelation (hw₁.db ▸ hpermitted))
          fun w₂ hw₂ => ?_
        rw [← (hw₁.trans hw₂).db] at htype
        obtain hnone | hrefused := dbGet_of_none env htype
        · exact .bind_of_reads hnone fun _ _ => .bind .raise
        · exact hrefused.bind
      · exact .bind (refuses_ofRelation fun relation hrelation hpermitted =>
          hgate ⟨relation, hrelation, hpermitted⟩)
  | listByRelation relationId =>
      exact .bind (refuses_ofRelation fun relation hrelation hpermitted =>
        h ⟨⟨relation, hrelation, hpermitted⟩, trivial⟩)
  | loadForDownload documentId =>
      exact .bind (.bind (refuses_ownDocument fun relation hrelation hpermitted =>
        h ⟨⟨relation, hrelation, hpermitted⟩, trivial⟩))
  | delete documentId =>
      exact .bind (.bind (refuses_ownDocument fun relation hrelation hpermitted =>
        h ⟨⟨relation, hrelation, hpermitted⟩, trivial⟩))

end Gate

/-- **The gate of caregiver documents.**  A call succeeds only for an
administrator or for the user of the caregiver whose relation it is about; where
the gate refuses, or the relation, the document or the document type does not
exist, the call fails and leaves every table and the storage as they were. -/
theorem document_gate (env : Env) (files : StorageService D) (actorUserId : ℤ)
    (call : DocumentCall) (w : World V D) :
    ((∃ reply, (serve env (call.script files actorUserId) w).1 = .ok reply) →
      ∃ relation, call.relation? w.db = some relation ∧
        Permitted w.db actorUserId relation) ∧
      (¬call.Allowed w.db actorUserId →
        (∃ e, (serve env (call.script files actorUserId) w).1 = .error e) ∧
          (serve env (call.script files actorUserId) w).2.db = w.db ∧
          (serve env (call.script files actorUserId) w).2.disk = w.disk) := by
  refine ⟨fun ⟨reply, hreply⟩ => ?_, fun h => (refuses_of_not_allowed h).serve⟩
  by_contra hgate
  have hrefuses : Refuses env (call.script files actorUserId) w :=
    refuses_of_not_allowed fun h => hgate h.1
  obtain ⟨⟨e, he⟩, -⟩ := hrefuses.serve
  rw [hreply] at he
  cases he

end Rooti
