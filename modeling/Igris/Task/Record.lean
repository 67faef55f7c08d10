import Igris.Task.Definition

/-!
# Task records and checkpoints

The durable record of a task, the write-ahead-log entries and checkpoints a
runtime reports, and the form in which a checkpoint comes back after it went
through the JSON encoding of the database.
-/

namespace Igris

/-! ## Checkpoints -/

/-- Watermark of a checkpoint. -/
structure ResumeToken where
  lastCommittedStep : Nat
  checkpointDigest : String
  runtimeID : String
deriving DecidableEq, Repr

/-- A write-ahead-log entry as the coordinator decodes it.  The step type is kept
as the JSON text it encodes to. -/
structure WalEntry where
  entryID : Uuid
  taskID : Uuid
  stepIndex : Nat
  stepType : String
  status : String
  inputDigest : String
  outputDigest : Option String
  timestampMs : Nat
  runtimeID : String
  signature : Option String
deriving DecidableEq, Repr

/-- A checkpoint as a runtime reports it. -/
structure CheckpointPayload where
  taskID : Uuid
  resumeToken : ResumeToken
  walEntries : List WalEntry
  metadata : Option String := none
  capturedAt : Int := 0
deriving DecidableEq, Repr

/-! ## JSON form of log entries -/

def normalizeWalStatus (status : String) : String :=
  Text.toLower (Text.trimSpace status)

/-- A digest of the expected length is written as base64, anything else as it is. -/
def marshalHexByteArrayField (value : String) (expectedLen : Nat) : String :=
  let trimmed := Text.trimSpace value
  if trimmed = "" then trimmed
  else
    match Text.hexDecode trimmed with
    | some bytes =>
        if 0 < expectedLen ∧ bytes.length ≠ expectedLen then trimmed
        else Text.base64Encode bytes
    | none => trimmed

/-- The first of the four base64 variants that yields the expected length. -/
def decodeBase64ByteArrayField (value : String) (expectedLen : Nat) : Option (List UInt8) :=
  let trimmed := Text.trimSpace value
  if trimmed = "" then none
  else
    [(Text.Alphabet.std, true), (.std, false), (.url, true), (.url, false)].findSome?
      fun variant =>
        (Text.base64Decode variant.1 variant.2 trimmed).filter fun bytes =>
          expectedLen = 0 || bytes.length = expectedLen

def unmarshalHexByteArrayField (value : String) (expectedLen : Nat) : String :=
  if value = "" then ""
  else
    match Text.hexDecode value with
    | some bytes =>
        if expectedLen = 0 ∨ bytes.length = expectedLen then Text.toLower value
        else
          match decodeBase64ByteArrayField value expectedLen with
          | some decoded => Text.hexEncode decoded
          | none => Text.toLower value
    | none =>
        match decodeBase64ByteArrayField value expectedLen with
        | some decoded => Text.hexEncode decoded
        | none => Text.toLower value

/-- Bytes given in base64 are written in canonical base64. -/
def marshalBinaryArrayField (value : String) : String :=
  match Text.base64Decode .std true value with
  | some bytes => Text.base64Encode bytes
  | none => value

def marshalWalStatusField (status : String) : String :=
  let normalized := normalizeWalStatus status
  if normalized = "intent" then "Intent"
  else if normalized = "executing" then "Executing"
  else if normalized = "committed" ∨ normalized = "completed" then "Committed"
  else if normalized = "failed" then "Failed"
  else status

/-- The JSON object an entry encodes to, with each field in its encoded form. -/
structure WalEntryJSON where
  entryID : Uuid
  taskID : Uuid
  stepIndex : Nat
  stepType : String
  status : String
  inputDigest : String
  outputDigest : Option String
  timestampMs : Nat
  runtimeID : String
  signature : Option String
deriving DecidableEq, Repr

def WalEntry.marshalJSON (e : WalEntry) : WalEntryJSON where
  entryID := e.entryID
  taskID := e.taskID
  stepIndex := e.stepIndex
  stepType := e.stepType
  status := marshalWalStatusField e.status
  inputDigest := marshalHexByteArrayField e.inputDigest 32
  outputDigest := e.outputDigest.map fun digest => marshalHexByteArrayField digest 32
  timestampMs := e.timestampMs
  runtimeID := e.runtimeID
  signature := e.signature.map marshalBinaryArrayField

def WalEntryJSON.unmarshalJSON (j : WalEntryJSON) : WalEntry where
  entryID := j.entryID
  taskID := j.taskID
  stepIndex := j.stepIndex
  stepType := j.stepType
  status := normalizeWalStatus j.status
  inputDigest := unmarshalHexByteArrayField j.inputDigest 32
  outputDigest := j.outputDigest.map fun digest => unmarshalHexByteArrayField digest 32
  timestampMs := j.timestampMs
  runtimeID := j.runtimeID
  signature := j.signature

/-- An entry as it is read back after it was stored. -/
def WalEntry.reload (e : WalEntry) : WalEntry :=
  e.marshalJSON.unmarshalJSON

/-- A checkpoint as it is read back after it was stored. -/
def CheckpointPayload.reload (cp : CheckpointPayload) : CheckpointPayload :=
  { cp with walEntries := cp.walEntries.map WalEntry.reload }

@[simp]
theorem CheckpointPayload.reload_taskID (cp : CheckpointPayload) : cp.reload.taskID = cp.taskID := by
  simp only [reload]

@[simp]
theorem CheckpointPayload.reload_resumeToken (cp : CheckpointPayload) :
    cp.reload.resumeToken = cp.resumeToken := by
  simp only [reload]

/-! ## Task records -/

inductive TaskRecordStatus where
  | pending
  | dispatched
  | checkpointed
  | completed
  | failed
  | recovering
  | canceled
  | approvalRequired
deriving DecidableEq, Repr

/-- Statuses from which a task never moves again. -/
def TaskRecordStatus.terminal : TaskRecordStatus → Bool
  | .completed | .failed | .canceled => true
  | _ => false

/-- Structured description of a failure. -/
structure TaskFailureDetails where
  source : String := ""
  operation : String := ""
  statusCode : Nat := 0
  rejectionType : String := ""
  message : String := ""
deriving DecidableEq, Repr

/-- Failure details of the coordinator's own decisions. -/
def overtureTaskFailureDetails (operation rejectionType message : String) : TaskFailureDetails where
  source := "overture"
  operation := operation
  rejectionType := rejectionType
  message := message

/-- Identity of a contract-bound action run. -/
structure BoundActionRunIdentity where
  bindingID : Uuid
  contractHash : String
  targetActionID : Uuid
  targetVersionHash : String
  businessIdempotencyKey : String
  requestFingerprint : String
deriving DecidableEq, Repr

/-- The durable record of a task. -/
structure TaskRecord where
  taskID : Uuid
  tenantID : String
  status : TaskRecordStatus
  runtimeID : Option String := none
  runtimeEndpoint : Option String := none
  taskDefinition : TaskDefinition
  lastCheckpoint : Option CheckpointPayload := none
  executionEnvelope : Option String := none
  executionReceipt : Option String := none
  idempotencyKey : String
  failureReason : Option String := none
  failureDetails : Option TaskFailureDetails := none
deriving DecidableEq, Repr

/-! ## Which statuses allow what -/

def taskAllowsRuntimeMutation : TaskRecordStatus → Bool
  | .dispatched | .checkpointed | .recovering => true
  | _ => false

def taskAllowsDispatch : TaskRecordStatus → Bool
  | .pending | .recovering => true
  | _ => false

def taskAllowsRecoveryRedispatch (status : TaskRecordStatus) : Bool :=
  decide (status = .recovering)

def taskAllowsCancellation : TaskRecordStatus → Bool
  | .pending | .dispatched | .checkpointed | .recovering => true
  | _ => false

/-- The task is paused on a human approval gate. -/
def taskAwaitingApproval (status : TaskRecordStatus) : Bool :=
  decide (status = .approvalRequired)

/-! ## Resumability -/

/-- Streaming single inferences cannot be resumed. -/
def taskSupportsRecoveryResume (task : TaskRecord) : Bool :=
  !(decide (task.taskDefinition.taskType = .singleInference) && task.taskDefinition.stream)

def taskFailureReasonStreamingResumeUnsupported : String :=
  "streaming durable tasks do not support resume"

def taskFailureReasonInvalidRecoveryCheckpoint : String :=
  "invalid checkpoint for recovery"

/-- Why a recovery pass leaves the task alone; {lit}`none` when it goes on. -/
def taskRecoverySkipReason (task : TaskRecord) : Option String :=
  if taskAllowsRecoveryRedispatch task.status then
    if taskSupportsRecoveryResume task then none else some "streaming_resume_unsupported"
  else
    match task.status with
    | .canceled => some "task_canceled"
    | .approvalRequired => some "approval_required"
    | .completed => some "task_completed"
    | .failed =>
        match task.failureReason with
        | none => some "task_failed"
        | some reason =>
            if reason = "no runtime available for recovery" then
              some "no_runtime_available_for_recovery"
            else if reason = taskFailureReasonInvalidRecoveryCheckpoint then
              some "invalid_recovery_checkpoint"
            else if reason = taskFailureReasonStreamingResumeUnsupported then
              some "streaming_resume_unsupported"
            else some "task_failed"
    | _ => none

end Igris
