import Igris.Lib.Program
import Igris.Lib.Table
import Igris.Task.Checkpoint
import Mathlib.Data.List.Sort

/-!
# The checkpoint store

The tables behind the coordinator and the operations on them.  Every operation is
one SQL statement or one transaction, so it takes effect as a whole or not at all.
Uniqueness constraints of the schema are fields of {lit}`Store`.
-/

namespace Igris

open Relational

/-- Identity of the row in {lit}`contract_bound_action_runs`. -/
structure BoundRun where
  taskID : Uuid
  tenantID : String
  identity : BoundActionRunIdentity
deriving DecidableEq, Repr

def BoundRun.businessKey (run : BoundRun) : String × String :=
  (run.tenantID, run.identity.businessIdempotencyKey)

def TaskRecord.tenantKey (task : TaskRecord) : String × String :=
  (task.tenantID, task.idempotencyKey)

/-- The tables {lit}`task_records`, {lit}`contract_bound_action_runs` and
{lit}`wal_checkpoints`. -/
structure Store where
  tasks : Table Uuid TaskRecord TaskRecord.taskID
  tenantKeys : (tasks.rows.map TaskRecord.tenantKey).Nodup
  boundRuns : Table Uuid BoundRun BoundRun.taskID
  businessKeys : (boundRuns.rows.map BoundRun.businessKey).Nodup
  walCheckpoints : List CheckpointPayload

inductive StoreError where
  /-- A conditional update met no row. -/
  | taskTransitionRejected
  /-- The identity of a contract-bound run has an empty field. -/
  | incompleteBoundIdentity
  /-- The database reported an error and nothing was changed. -/
  | database
  /-- The operation took effect, but its outcome could not be read. -/
  | resultUnread
deriving DecidableEq, Repr

/-- Result of an operation: the identifiers of the affected rows, or an error. -/
abbrev StoreAnswer := Except StoreError (List Uuid)

namespace Store

def empty : Store where
  tasks := Table.empty
  tenantKeys := List.nodup_nil
  boundRuns := Table.empty
  businessKeys := List.nodup_nil
  walCheckpoints := []

/-- The record of a task. -/
def task (s : Store) (taskID : Uuid) : Option TaskRecord :=
  s.tasks.get taskID

/-- The stored checkpoints of a task, in the order in which they were stored. -/
def checkpointsOf (s : Store) (taskID : Uuid) : List CheckpointPayload :=
  s.walCheckpoints.filter fun cp => decide (cp.taskID = taskID)

end Store

/-! ## Update statements -/

/-- {lit}`UPDATE task_records SET … WHERE …`.  No statement writes the identity
columns. -/
structure Update where
  cond : TaskRecord → Bool
  set : TaskRecord → TaskRecord
  taskID : ∀ t, (set t).taskID = t.taskID := by intro _; rfl
  tenantID : ∀ t, (set t).tenantID = t.tenantID := by intro _; rfl
  idempotencyKey : ∀ t, (set t).idempotencyKey = t.idempotencyKey := by intro _; rfl
  taskDefinition : ∀ t, (set t).taskDefinition = t.taskDefinition := by intro _; rfl

/-- The row has this identifier and one of these statuses. -/
def hasStatus (taskID : Uuid) (allowed : List TaskRecordStatus) (t : TaskRecord) : Bool :=
  decide (t.taskID = taskID) && allowed.contains t.status

namespace Update

/-- What the statement makes of a row. -/
def run (u : Update) (t : TaskRecord) : TaskRecord :=
  if u.cond t then u.set t else t

/-- The statement that meets no row. -/
def never : Update where
  cond := fun _ => false
  set := id

def markDispatched (taskID : Uuid) (runtimeID runtimeEndpoint : String) : Update where
  cond := hasStatus taskID [.pending, .recovering]
  set := fun t => { t with
    status := .dispatched, runtimeID := some runtimeID, runtimeEndpoint := some runtimeEndpoint }

def markCompleted (taskID : Uuid) : Update where
  cond := hasStatus taskID [.dispatched, .checkpointed, .recovering]
  set := fun t => { t with status := .completed }

/-- The same statement whether or not the failure is also recorded as an
unresolved effect. -/
def markFailedWithDetails (taskID : Uuid) (reason : String)
    (details : Option TaskFailureDetails) : Update where
  cond := hasStatus taskID [.dispatched, .checkpointed, .recovering]
  set := fun t => { t with
    status := .failed, failureReason := some reason, failureDetails := details }

def markCanceled (taskID : Uuid) : Update where
  cond := hasStatus taskID [.pending, .dispatched, .checkpointed, .recovering]
  set := fun t => { t with status := .canceled }

def markApprovalRequired (taskID : Uuid) (reason : String) : Update where
  cond := hasStatus taskID [.pending, .recovering]
  set := fun t => { t with status := .approvalRequired, failureReason := some reason }

def markApprovedDispatched (taskID : Uuid) (tenantID runtimeID runtimeEndpoint : String) :
    Update where
  cond := fun t => hasStatus taskID [.approvalRequired] t && decide (t.tenantID = tenantID)
  set := fun t => { t with
    status := .dispatched, runtimeID := some runtimeID, runtimeEndpoint := some runtimeEndpoint
    failureReason := none }

def markApprovalRejected (taskID : Uuid) (tenantID reason : String)
    (details : Option TaskFailureDetails) : Update where
  cond := fun t => hasStatus taskID [.approvalRequired] t && decide (t.tenantID = tenantID)
  set := fun t => { t with
    status := .failed, failureReason := some reason, failureDetails := details }

def markRecovering (runtimeID : String) : Update where
  cond := fun t => decide (t.runtimeID = some runtimeID) &&
    [TaskRecordStatus.dispatched, .checkpointed].contains t.status
  set := fun t => { t with status := .recovering }

/-- An absent artifact keeps the stored one. -/
def saveExecutionArtifacts (taskID : Uuid) (executionEnvelope executionReceipt : Option String) :
    Update where
  cond := fun t => decide (t.taskID = taskID)
  set := fun t => { t with
    executionEnvelope := executionEnvelope.or t.executionEnvelope
    executionReceipt := executionReceipt.or t.executionReceipt }

/-- The update inside the checkpoint transaction. -/
def recordCheckpoint (cp : CheckpointPayload) : Update where
  cond := hasStatus cp.taskID [.dispatched, .checkpointed, .recovering]
  set := fun t => { t with status := .checkpointed, lastCheckpoint := some cp.reload }

end Update

namespace Store

/-- Execute an update statement. -/
def update (s : Store) (u : Update) : Store where
  tasks := s.tasks.updateWhere u.cond u.set u.taskID
  tenantKeys := by
    have hkeys : (s.tasks.updateWhere u.cond u.set u.taskID).rows.map TaskRecord.tenantKey =
        s.tasks.rows.map TaskRecord.tenantKey := by
      simp only [Table.updateWhere, List.map_map]
      apply List.map_congr_left
      intro t _
      by_cases hcond : u.cond t <;>
        simp [hcond, TaskRecord.tenantKey, u.tenantID, u.idempotencyKey]
    rw [hkeys]
    exact s.tenantKeys
  boundRuns := s.boundRuns
  businessKeys := s.businessKeys
  walCheckpoints := s.walCheckpoints

/-- Identifiers of the rows a statement meets. -/
def affected (s : Store) (u : Update) : List Uuid :=
  s.tasks.selected u.cond

/-- A statement that has to meet a row. -/
def transition (s : Store) (u : Update) : StoreAnswer × Store :=
  if s.affected u = [] then (.error .taskTransitionRejected, s)
  else (.ok (s.affected u), s.update u)

/-! ## Checkpoints -/

/-- Exclusive bound of the {lit}`INTEGER` column {lit}`step_index`. -/
def stepIndexBound : Nat := 2 ^ 31

def insertWalCheckpoint (s : Store) (cp : CheckpointPayload) : Store :=
  { s with walCheckpoints := s.walCheckpoints ++ [cp] }

/-- Store a checkpoint: validate it, then, in one transaction, compare it with the
current one, update the record and append the history row. -/
def saveCheckpoint (cp : CheckpointPayload) (s : Store) : StoreAnswer × Store :=
  if !taskCheckpointWatermarkConsistent (some cp) then (.error .taskTransitionRejected, s)
  else if !taskCheckpointEntriesBelongToTask (some cp) then (.error .taskTransitionRejected, s)
  else if !taskCheckpointEntriesHaveStableIDs (some cp) then (.error .taskTransitionRejected, s)
  else
    match s.task cp.taskID with
    | none => (.error .taskTransitionRejected, s)
    | some current =>
        if !taskCheckpointAdvances current.lastCheckpoint (some cp) then
          (.error .taskTransitionRejected, s)
        else
          match s.transition (.recordCheckpoint cp) with
          | (.error err, _) => (.error err, s)
          | (.ok ids, updated) =>
              -- the history insert can fail on its own; the transaction is rolled back
              if cp.watermark < stepIndexBound then
                (.ok ids, updated.insertWalCheckpoint cp.reload)
              else (.error .database, s)

/-! ## Creating tasks -/

/-- The row a task is inserted as: the columns of the {lit}`INSERT`, the definition
as the database renders it. -/
def newRow (jsonb : TaskDefinition → TaskDefinition) (task : TaskRecord) : TaskRecord where
  taskID := task.taskID
  tenantID := task.tenantID
  status := .pending
  taskDefinition := jsonb task.taskDefinition
  idempotencyKey := task.idempotencyKey

def insertTask (s : Store) (row : TaskRecord) (hid : s.tasks.get row.taskID = none)
    (hkey : row.tenantKey ∉ s.tasks.rows.map TaskRecord.tenantKey) : Store :=
  { s with
    tasks := s.tasks.insert row hid
    tenantKeys := nodup_map_append_singleton s.tenantKeys hkey }

def insertBoundRun (s : Store) (run : BoundRun) (hid : s.boundRuns.get run.taskID = none)
    (hkey : run.businessKey ∉ s.boundRuns.rows.map BoundRun.businessKey) : Store :=
  { s with
    boundRuns := s.boundRuns.insert run hid
    businessKeys := nodup_map_append_singleton s.businessKeys hkey }

/-- No field of the identity is missing. -/
def boundIdentityComplete (bound : BoundActionRunIdentity) : Bool :=
  !(decide (bound.bindingID = Uuid.nil) || decide (bound.targetActionID = Uuid.nil) ||
    decide (Text.trimSpace bound.contractHash = "") ||
    decide (Text.trimSpace bound.targetVersionHash = "") ||
    decide (Text.trimSpace bound.businessIdempotencyKey = "") ||
    decide (Text.trimSpace bound.requestFingerprint = ""))

def insertBoundActionRun (task : TaskRecord) (bound : BoundActionRunIdentity) (s : Store) :
    Except StoreError Store :=
  let run : BoundRun := ⟨task.taskID, task.tenantID, bound⟩
  if !boundIdentityComplete bound then .error .incompleteBoundIdentity
  else if hkey : run.businessKey ∈ s.boundRuns.rows.map BoundRun.businessKey then .error .database
  else if hid : s.boundRuns.get run.taskID = none then .ok (s.insertBoundRun run hid hkey)
  else .error .database

/-- {lit}`INSERT … ON CONFLICT (tenant_id, idempotency_key) DO NOTHING`, together
with the bound-run row in the same transaction. -/
def createTask (jsonb : TaskDefinition → TaskDefinition) (task : TaskRecord)
    (bound : Option BoundActionRunIdentity) (s : Store) : StoreAnswer × Store :=
  let row := newRow jsonb task
  if hkey : row.tenantKey ∈ s.tasks.rows.map TaskRecord.tenantKey then (.ok [], s)
  else if hid : s.tasks.get row.taskID = none then
    match bound with
    | none => (.ok [task.taskID], s.insertTask row hid hkey)
    | some bound =>
        match insertBoundActionRun task bound (s.insertTask row hid hkey) with
        | .error err => (.error err, s)
        | .ok s' => (.ok [task.taskID], s')
  else (.error .database, s)

end Store

/-! ## Reads -/

inductive ReadError where
  | noRows
  | database
deriving DecidableEq, Repr

namespace Store

/-- The record a tenant sees under a task identifier. -/
def taskOfTenant (s : Store) (taskID : Uuid) (tenantID : String) : Except ReadError TaskRecord :=
  match s.task taskID with
  | some t => if t.tenantID = tenantID then .ok t else .error .noRows
  | none => .error .noRows

def taskByIdempotencyKey (s : Store) (tenantID key : String) : Except ReadError TaskRecord :=
  match s.tasks.rows.find? fun t => decide (t.tenantKey = (tenantID, key)) with
  | some t => .ok t
  | none => .error .noRows

def boundRunByIdempotency (s : Store) (tenantID key : String) :
    Except ReadError BoundActionRunIdentity :=
  match s.boundRuns.rows.find? fun r => decide (r.businessKey = (tenantID, key)) with
  | some r => .ok r.identity
  | none => .error .noRows

/-- Stored checkpoints in the order of {lit}`step_index`. -/
def allCheckpoints (s : Store) (taskID : Uuid) : List CheckpointPayload :=
  (s.checkpointsOf taskID).insertionSort fun a b => a.watermark ≤ b.watermark

def tenantOf (s : Store) (taskID : Uuid) : Except ReadError String :=
  match s.task taskID with
  | some t => .ok t.tenantID
  | none => .error .noRows

end Store

/-! ## Operations as data -/

/-- A store operation with its arguments. -/
inductive StoreOp where
  | createTask (task : TaskRecord) (bound : Option BoundActionRunIdentity)
  | markDispatched (taskID : Uuid) (runtimeID runtimeEndpoint : String)
  | saveCheckpoint (cp : CheckpointPayload)
  | markCompleted (taskID : Uuid)
  | markFailedWithDetails (taskID : Uuid) (reason : String) (details : Option TaskFailureDetails)
  | markCanceled (taskID : Uuid)
  | markRecovering (runtimeID : String)
  | markApprovalRequired (taskID : Uuid) (reason : String)
  | markApprovedDispatched (taskID : Uuid) (tenantID runtimeID runtimeEndpoint : String)
  | markApprovalRejected (taskID : Uuid) (tenantID reason : String)
      (details : Option TaskFailureDetails)
  | saveExecutionArtifacts (taskID : Uuid) (executionEnvelope executionReceipt : Option String)
deriving DecidableEq, Repr

namespace StoreOp

/-- Execute an operation.  {lit}`markRecovering` and {lit}`saveExecutionArtifacts`
do not insist on meeting a row. -/
def apply (jsonb : TaskDefinition → TaskDefinition) : StoreOp → Store → StoreAnswer × Store
  | createTask task bound, s => s.createTask jsonb task bound
  | markDispatched taskID runtimeID endpoint, s =>
      s.transition (.markDispatched taskID runtimeID endpoint)
  | saveCheckpoint cp, s => s.saveCheckpoint cp
  | markCompleted taskID, s => s.transition (.markCompleted taskID)
  | markFailedWithDetails taskID reason details, s =>
      s.transition (.markFailedWithDetails taskID reason details)
  | markCanceled taskID, s => s.transition (.markCanceled taskID)
  | markRecovering runtimeID, s =>
      (.ok (s.affected (.markRecovering runtimeID)), s.update (.markRecovering runtimeID))
  | markApprovalRequired taskID reason, s => s.transition (.markApprovalRequired taskID reason)
  | markApprovedDispatched taskID tenantID runtimeID endpoint, s =>
      s.transition (.markApprovedDispatched taskID tenantID runtimeID endpoint)
  | markApprovalRejected taskID tenantID reason details, s =>
      s.transition (.markApprovalRejected taskID tenantID reason details)
  | saveExecutionArtifacts taskID envelope receipt, s =>
      (.ok (s.affected (.saveExecutionArtifacts taskID envelope receipt)),
        s.update (.saveExecutionArtifacts taskID envelope receipt))

/-- Execute an operation that received this answer.  The database may refuse any
operation, and the connection may break after the operation took effect. -/
def perform (jsonb : TaskDefinition → TaskDefinition) (op : StoreOp) (answer : StoreAnswer)
    (s : Store) : Option Store :=
  match answer with
  | .error .database => some s
  | .error .resultUnread =>
      match op.apply jsonb s with
      | (.ok _, s') => some s'
      | (.error _, _) => none
  | answer => if (op.apply jsonb s).1 = answer then some (op.apply jsonb s).2 else none

end StoreOp

end Igris
