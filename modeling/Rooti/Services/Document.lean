import Rooti.Core.Database
import Rooti.Integrations.Storage

/-!
# Caregiver documents

A document belongs to a relation between a caregiver and a worker; its file is in
the document storage.  Every call first resolves the relation and asks whether
the actor owns it (`ensureActorOwnsRelation`).  Uploads, downloads and deletions
are logged.

## Main definitions

* `CaregiverDocumentService.upload`, `listByRelation`, `loadForDownload`, `delete`
-/

namespace Rooti

open Relational Program

variable {V D : Type}

/-- `DocumentResponse`. -/
structure DocumentResponse where
  id : ℤ
  relationId : ℤ
  typeId : ℤ
  typeName : Option String
  filename : String
  downloadUrl : Option String
  size : Option ℤ
  contentType : Option String
  createdAt : DateTime
  deriving DecidableEq

/-- `_to_response`. -/
def toDocumentResponse (doc : CaregiverDocument) (typeName downloadUrl : Option String) :
    DocumentResponse where
  id := doc.id
  relationId := doc.relationId
  typeId := doc.typeId
  typeName := typeName
  filename := doc.filename
  downloadUrl := downloadUrl
  size := doc.fileSize
  contentType := doc.contentType
  createdAt := doc.createdAt

namespace CaregiverDocumentService

/-- The caregiver of the relation is the actor. -/
def ensureActorIsCaregiver (actorUserId : ℤ) (relation : CaregiverWorkerRelation) :
    Async V D Unit := do
  let caregiver ← dbGet .caregiver relation.caregiverId
  Prog.raiseIf (caregiver.all fun c => c.userId ≠ actorUserId) authForbiddenException

/-- `_ensure_actor_owns_relation`: administrators pass. -/
def ensureActorOwnsRelation (actorUserId : ℤ) (relation : CaregiverWorkerRelation) :
    Async V D Unit := do
  let found ← dbGet .user actorUserId
  let actor ← Prog.orRaise authForbiddenException found
  if actor.role = .admin then return ()
  else ensureActorIsCaregiver actorUserId relation

/-- `_relation_or_404`. -/
def relationOr404 (relationId : ℤ) : Async V D CaregiverWorkerRelation := do
  let rel ← dbGet .caregiverWorkerRelation relationId
  Prog.orRaise (businessException .caregiverNotFound) rel

/-- `_log`. -/
def log (userId : ℤ) (documentId : ℤ) (action : CaregiverDocumentActionType) :
    Async V D Unit := do
  let _ ← add .caregiverDocumentLog fun new => ⟨new.id, documentId, userId, action⟩
  return ()

/-- The row an `upload` adds. -/
def newDocument (actorUserId relationId typeId : ℤ) (uploaded : Uploaded) (new : NewRow) :
    CaregiverDocument where
  id := new.id
  relationId := relationId
  typeId := typeId
  filename := uploaded.key
  fileSize := some uploaded.size
  contentType := uploaded.contentType
  createdAt := new.createdAt
  createdBy := some actorUserId
  updatedBy := some actorUserId

/-- A file of a relation, handed to the storage. -/
def storeFile (files : StorageService D) (relationId : ℤ) (originalFilename : String)
    (file : Bytes) (size : ℤ) (contentType : Option String) : Async V D Uploaded :=
  Prog.handle
    (storage (files.store ("caregiver-documents/" ++ toString relationId) originalFilename file
      size contentType))
    fun e => Prog.raise (businessExceptionWith .storageUploadFailed e.text)

/-- `upload`. -/
def upload (files : StorageService D) (actorUserId relationId typeId : ℤ)
    (originalFilename : String) (file : Bytes) (size : ℤ) (contentType : Option String) :
    Async V D DocumentResponse := do
  let relation ← relationOr404 relationId
  ensureActorOwnsRelation actorUserId relation
  let found ← dbGet .caregiverDocumentType typeId
  let docType ← Prog.orRaise (businessException .documentTypeNotFound) found
  let uploaded ← storeFile files relationId originalFilename file size contentType
  let new ← add .caregiverDocument (newDocument actorUserId relationId typeId uploaded)
  flush
  log actorUserId new.id .upload
  return toDocumentResponse (newDocument actorUserId relationId typeId uploaded new)
    (some docType.name) (some uploaded.url)

/-- The documents of a relation with their types, newest first. -/
def documentsOf (relationId : ℤ) (o : RowOrder) (db : Db) :
    List (CaregiverDocument × CaregiverDocumentType) :=
  (o.orderByDesc CaregiverDocument.id
    ((db.rows .caregiverDocument).filter fun d => d.relationId = relationId)).filterMap fun d =>
      (db.find? .caregiverDocumentType d.typeId).map fun t => (d, t)

/-- `list_by_relation`. -/
def listByRelation (actorUserId relationId : ℤ) : Async V D (List DocumentResponse) := do
  let relation ← relationOr404 relationId
  ensureActorOwnsRelation actorUserId relation
  let rows ← select [.int relationId] (documentsOf relationId)
  return rows.map fun r => toDocumentResponse r.1 (some r.2.name) none

/-- The document of a by-id call, of a relation the actor owns. -/
def ownDocument (actorUserId documentId : ℤ) : Async V D CaregiverDocument := do
  let found ← dbGet .caregiverDocument documentId
  let doc ← Prog.orRaise (businessException .documentNotFound) found
  let relation ← relationOr404 doc.relationId
  ensureActorOwnsRelation actorUserId relation
  return doc

/-- `load_for_download`. -/
def loadForDownload (actorUserId documentId : ℤ) : Async V D CaregiverDocument := do
  let doc ← ownDocument actorUserId documentId
  log actorUserId doc.id .download
  return doc

/-- `delete`. -/
def delete (files : StorageService D) (actorUserId documentId : ℤ) : Async V D Unit := do
  let doc ← ownDocument actorUserId documentId
  log actorUserId doc.id .delete
  storage (files.delete doc.filename)
  Rooti.delete .caregiverDocument doc

end CaregiverDocumentService

end Rooti
