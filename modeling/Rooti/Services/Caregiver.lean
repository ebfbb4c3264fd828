import Rooti.Core.Database

/-!
# Caregivers

A caregiver is an account of their own, and looks after workers.

## Main definitions

* `CaregiverService.me`, `listRelations` — the caregiver and the workers
* `CaregiverService.registerWorker`, `removeRelation` — a worker comes, and goes
-/

namespace Rooti

open Relational Program

variable {V D : Type}

/-- `CaregiverResponse`. -/
structure CaregiverResponse where
  id : ℤ
  userId : ℤ
  deriving DecidableEq

/-- `CaregiverRelationResponse`. -/
structure CaregiverRelationResponse where
  id : ℤ
  caregiverId : ℤ
  challengedWorkerId : ℤ
  deriving DecidableEq

namespace CaregiverService

/-- `CaregiverResponse.model_validate`. -/
def toResponse (c : Caregiver) : CaregiverResponse where
  id := c.id
  userId := c.userId

/-- `CaregiverRelationResponse.model_validate`. -/
def toRelationResponse (r : CaregiverWorkerRelation) : CaregiverRelationResponse where
  id := r.id
  caregiverId := r.caregiverId
  challengedWorkerId := r.challengedWorkerId

/-- `get_by_user_id`. -/
def getByUserId (userId : ℤ) : Async V D Caregiver := do
  let rows ← select [.int userId] fun o db =>
    o.scan ((db.rows .caregiver).filter fun c => c.userId = userId)
  let found ← scalarOneOrNone rows
  Prog.orRaise (businessException .caregiverNotFound) found

/-- `me`. -/
def me (userId : ℤ) : Async V D CaregiverResponse := do
  return toResponse (← getByUserId userId)

/-- The row a `register_worker` adds. -/
def newRelation (caregiverId workerId : ℤ) (new : NewRow) : CaregiverWorkerRelation where
  id := new.id
  caregiverId := caregiverId
  challengedWorkerId := workerId

/-- `register_worker`. -/
def registerWorker (caregiverUserId workerId : ℤ) : Async V D CaregiverRelationResponse := do
  let caregiver ← getByUserId caregiverUserId
  let dup ← select [.int caregiver.id, .int workerId] fun _ db =>
    (db.rows .caregiverWorkerRelation).any fun r =>
      r.caregiverId = caregiver.id ∧ r.challengedWorkerId = workerId
  Prog.raiseIf dup (businessException .caregiverRelationDuplicated)
  let found ← dbGet .challengedWorker workerId
  let worker ← Prog.orRaise (businessException .workerNotFound) found
  let new ← add .caregiverWorkerRelation (newRelation caregiver.id worker.id)
  flush
  return toRelationResponse (newRelation caregiver.id worker.id new)

/-- `list_relations`. -/
def listRelations (caregiverUserId : ℤ) : Async V D (List CaregiverRelationResponse) := do
  let caregiver ← getByUserId caregiverUserId
  let rows ← select [.int caregiver.id] fun o db =>
    o.orderByDesc CaregiverWorkerRelation.id
      ((db.rows .caregiverWorkerRelation).filter fun r => r.caregiverId = caregiver.id)
  return rows.map toRelationResponse

/-- `remove_relation`. -/
def removeRelation (caregiverUserId relationId : ℤ) : Async V D Unit := do
  let caregiver ← getByUserId caregiverUserId
  let found ← dbGet .caregiverWorkerRelation relationId
  let relation ← Prog.orRaise (businessException .caregiverNotFound) found
  Prog.raiseIf (relation.caregiverId ≠ caregiver.id)
    (authForbiddenExceptionWith "relation does not belong to caregiver")
  delete .caregiverWorkerRelation relation

end CaregiverService

end Rooti
