import Igris.Lib.Interleaving
import Igris.Store.Operations
import Igris.Task.Cumulative
import Igris.Coordinator.Policy

/-!
# Atomic actions of the system

Coordinator handlers, background work and task executions on runtimes are
programs over the actions of this file.  An action on the store is answered from
the store, unless the database refuses it.  What lies outside the model, such as
the choice of a runtime, signing, decryption, or what a runtime answers, is
answered arbitrarily.
-/

namespace Igris

open Concurrency Coordinator

/-! ## Data exchanged -/

/-- A runtime that can take tasks. -/
structure RuntimeInfo where
  runtimeID : String
  endpoint : String
deriving DecidableEq, Repr

/-- A submission as the coordinator receives it. -/
structure TaskSubmitRequest where
  taskID : Uuid := Uuid.nil
  tenantID : String
  taskDefinition : TaskDefinition
  idempotencyKey : String := ""
  preferredRuntimeID : String := ""
  boundAction : Option BoundActionRunIdentity := none
deriving DecidableEq, Repr

/-- Who submitted a task, and on whose behalf. -/
structure AgentIdentity where
  agentID : String := ""
  principalID : String := ""
  submittedBy : String := ""
  actingOnBehalfOf : String := ""
  delegationChain : List String := []
deriving DecidableEq, Repr

/-- The request the coordinator posts to a runtime. -/
structure RuntimeTaskRequest where
  taskID : Uuid
  tenantID : String
  /-- The address the request is sent to. -/
  endpoint : String
  taskDefinition : TaskDefinition
  idempotencyKey : String
  resumeFrom : Option ResumeToken
  resumeCheckpoint : Option CheckpointPayload
  /-- Execution bounds, as JSON text. -/
  containment : Option String := none
  deadlineMs : Option Nat := none
  agentIdentity : Option AgentIdentity := none
  requiredCapabilities : List String := []
deriving DecidableEq, Repr

/-- The members of a request that its hash covers. -/
structure HashedRequest where
  taskType : TaskDefinition
  containment : Option String
  tenantID : String
  deadlineMs : Option Nat
  agentIdentity : Option AgentIdentity
  requiredCapabilities : List String
deriving DecidableEq, Repr

def RuntimeTaskRequest.hashed (req : RuntimeTaskRequest) : HashedRequest where
  taskType := req.taskDefinition
  containment := req.containment
  tenantID := req.tenantID
  deadlineMs := req.deadlineMs
  agentIdentity := req.agentIdentity
  requiredCapabilities := req.requiredCapabilities

/-- The decoded body of a runtime's answer. -/
structure TaskSubmitResult where
  statusName : String
  statusReason : String := ""
  checkpoint : Option CheckpointPayload := none
  failureReason : String := ""
  failureDetails : Option TaskFailureDetails := none
  executionEnvelope : Option String := none
  executionReceipt : Option String := none
deriving DecidableEq, Repr

/-- What comes of posting a request to a runtime. -/
inductive DispatchResponse where
  | unreachable
  /-- A status of 500 or above. -/
  | serverError (status : Nat)
  /-- A status of 400 or above, with the reason read from the body. -/
  | rejected (status : Nat) (reason : String) (details : TaskFailureDetails)
  | undecodable
  | accepted (result : TaskSubmitResult)
deriving DecidableEq, Repr

inductive CallbackBody where
  | checkpoint (cp : CheckpointPayload)
  | complete
  | failed (reason : String) (details : Option TaskFailureDetails)
deriving DecidableEq, Repr

/-- The signed identity of a callback. -/
structure CallbackEnvelope where
  tenantID : String
  taskID : Uuid
  runtimeID : String
deriving DecidableEq, Repr

/-- A callback as the coordinator receives it. -/
structure RuntimeCallback where
  /-- The runtime that sent it; the coordinator does not see this field. -/
  sender : String
  taskID : Uuid
  tenantID : String
  body : CallbackBody
  envelope : Option CallbackEnvelope := none
  /-- The header {lit}`X-Igris-Runtime-ID`. -/
  headerRuntimeID : String := ""
deriving DecidableEq, Repr

/-- Fate of a callback request: whether the coordinator got it, and what the
runtime learns. -/
structure CallbackFate where
  arrived : Bool
  result : Except String Unit

/-- Background work started with {lit}`go`. -/
inductive Job where
  | dispatchToRuntime (task : TaskRecord) (checkpoint : Option CheckpointPayload)
  | recoverRuntime (runtimeID : String)
deriving DecidableEq, Repr

/-- A compiled step of an execution graph. -/
structure RuntimeTaskStep where
  stepIndex : Nat
  node : GraphNode
deriving DecidableEq, Repr

/-- The result of executing a step. -/
structure StepExecutionResult where
  outputDigest : String
  checkpointRequested : Bool := false
  /-- Metadata for a checkpoint taken after the step. -/
  metadata : String := ""
deriving DecidableEq, Repr

inductive NodeStatus where
  | success
  | failure
  | skipped
  | running
deriving DecidableEq, Repr

/-- What a behavior tree run hands back. -/
structure BehaviorTreeResult where
  status : NodeStatus
  error : Option String := none
  tickCount : Nat := 0
  checkpoint : Option CheckpointPayload := none
deriving DecidableEq, Repr

inductive TaskStatus where
  | completed
  | checkpointed (resumeToken : ResumeToken)
  | failed (reason : String)
deriving DecidableEq, Repr

/-- The body of a runtime's answer to a task request. -/
structure TaskSubmitResponse where
  taskID : Uuid
  stepsCompleted : Nat
  stepsTotal : Nat
  status : TaskStatus
  checkpoint : Option CheckpointPayload := none
  failureDetails : Option TaskFailureDetails := none
  executionEnvelope : Option String := none
  executionReceipt : Option String := none
deriving DecidableEq, Repr

/-- A runtime's answer: a task response, or an HTTP error with its type. -/
inductive RuntimeResponse where
  | response (body : TaskSubmitResponse)
  | error (status : Nat) (errorType : String)
deriving DecidableEq, Repr

/-- Calls outside the task tables that either succeed or report an error.  A call
that the source makes under a condition on fields left out of the model succeeds
when it is not made. -/
inductive Service where
  | saveActionPolicyDecision (decision : ActionPolicyDecision)
  | buildTaskPermissionEnvelope (taskID : Uuid)
  | saveTaskPermissionEnvelope (taskID : Uuid)
  | hydrateTaskPermissionEnvelope (taskID : Uuid)
  | saveRoboticsPolicyDecisions (taskID : Uuid)
  | normalizeTaskRuntimeEndpoint (endpoint : Option String)
  | decodeTaskDefinition (taskID : Uuid)
  | marshalDispatchPayload (taskID : Uuid)
  | buildDispatchRequest (taskID : Uuid)
  | verifyExecutionArtifacts (taskID : Uuid)
  | verifyStepReceipts (taskID : Uuid)
  | allowUnsignedRuntimeCallbacks
  | verifyRuntimeCallback (envelope : CallbackEnvelope)
deriving DecidableEq, Repr

/-- Rewritings of a task definition that can fail. -/
inductive DefinitionService where
  | normalizePublicTaskDefinition
  | protectTaskDefinitionInputs
  | rehydrateTaskDefinitionInputRefs
deriving DecidableEq, Repr

/-- Conditions a task execution tests on its runtime. -/
inductive RuntimeTest where
  | safeIdle
  | permissionEnvelopeRejected
  | localDemoFailureEnabled
  | canceled
  | deadlineExceeded
  | signingKeyMissing
deriving DecidableEq, Repr

/-! ## Actions and answers -/

inductive Action where
  | store (op : StoreOp)
  | getTask (taskID : Uuid) (tenantID : String)
  | getTaskByIdempotencyKey (tenantID idempotencyKey : String)
  | getBoundActionRunByIdempotency (tenantID key : String)
  | getAllCheckpoints (taskID : Uuid)
  | getTenantID (taskID : Uuid)
  | newUUID
  | selectRuntime (tenantID preferredRuntimeID : String)
  | call (service : Service)
  | rewrite (service : DefinitionService) (definition : TaskDefinition)
  | go (job : Job)
  | post (request : RuntimeTaskRequest)
  | awaitResponse (request : RuntimeTaskRequest)
  | test (condition : RuntimeTest)
  | submissionRecord (tenantID idempotencyKey : String) (hashed : HashedRequest)
  | persistTaskRecord (tenantID idempotencyKey : String) (hashed : HashedRequest)
      (response : TaskSubmitResponse)
  | permissionFailureForStep (step : RuntimeTaskStep)
  | walCommittedState (taskID : Uuid)
  | walValidateExternal (token : ResumeToken) (cp : CheckpointPayload)
  | walImportEntries (taskID : Uuid) (entries : List WalEntry)
  | walWriteIntent (taskID : Uuid) (step : RuntimeTaskStep)
  | walWriteCommitted (intent : WalEntry) (outputDigest : String)
  | walComputeDigest (taskID : Uuid)
  | executeStep (request : RuntimeTaskRequest) (step : RuntimeTaskStep)
  | executeBehaviorTree (request : RuntimeTaskRequest)
  | buildExecutionArtifacts (step : RuntimeTaskStep)
  | sendCallback (callback : RuntimeCallback)

/-- What an action is answered with. -/
@[reducible]
def Answer : Action → Type
  | .store _ => StoreAnswer
  | .getTask _ _ => Except ReadError TaskRecord
  | .getTaskByIdempotencyKey _ _ => Except ReadError TaskRecord
  | .getBoundActionRunByIdempotency _ _ => Except ReadError BoundActionRunIdentity
  | .getAllCheckpoints _ => Except ReadError (List CheckpointPayload)
  | .getTenantID _ => Except ReadError String
  | .newUUID => Uuid
  | .selectRuntime _ _ => Except String RuntimeInfo
  | .call _ => Except String Unit
  | .rewrite _ _ => Except String TaskDefinition
  | .go _ => Unit
  | .post _ => Nat
  | .awaitResponse _ => DispatchResponse
  | .test _ => Bool
  | .submissionRecord _ _ _ => Option RuntimeResponse
  | .persistTaskRecord _ _ _ _ => Except String Unit
  | .permissionFailureForStep _ => Option TaskFailureDetails
  | .walCommittedState _ => Except String (Option Nat × String)
  | .walValidateExternal _ _ => Except String Unit
  | .walImportEntries _ _ => Except String Unit
  | .walWriteIntent _ _ => Except String WalEntry
  | .walWriteCommitted _ _ => Except String WalEntry
  | .walComputeDigest _ => Except String String
  | .executeStep _ _ => Except String StepExecutionResult
  | .executeBehaviorTree _ => Except String BehaviorTreeResult
  | .buildExecutionArtifacts _ => Except String (Option String × Option String)
  | .sendCallback _ => CallbackFate

/-- Actions that change no table and start nothing. -/
def Action.quiet : Action → Bool
  | .store _ | .go _ | .post _ | .sendCallback _ | .executeStep _ _ => false
  | _ => true

/-! ## State and semantics -/

/-- The tables, and the requests that were posted to runtimes. -/
structure State where
  store : Store
  posted : List RuntimeTaskRequest

/-- A read returns what is stored, or is refused by the database. -/
def readAnswer {α : Type} [DecidableEq α] (stored answer : Except ReadError α) : Bool :=
  decide (answer = .error .database) || decide (answer = stored)

theorem readAnswer_ok {α : Type} [DecidableEq α] {stored : Except ReadError α} {value : α} :
    readAnswer stored (.ok value) = true ↔ stored = .ok value := by
  simp only [readAnswer, reduceCtorEq, decide_false, Bool.false_or, decide_eq_true_eq]
  exact eq_comm

/-- The log returns entries for the step it was asked to record. -/
def intentMatches (taskID : Uuid) (step : RuntimeTaskStep) : Except String WalEntry → Bool
  | .error _ => true
  | .ok entry => decide (entry.taskID = taskID) && decide (entry.stepIndex = step.stepIndex) &&
      decide (entry.entryID ≠ Uuid.nil)

def commitMatches (intent : WalEntry) : Except String WalEntry → Bool
  | .error _ => true
  | .ok entry => decide (entry.taskID = intent.taskID) &&
      decide (entry.stepIndex = intent.stepIndex) && decide (entry.entryID = intent.entryID) &&
      entry.committed

/-- Perform an action that received an answer; {lit}`none` if it cannot be answered
that way. -/
@[grind =]
def perform (jsonb : TaskDefinition → TaskDefinition) : Semantics Action Answer State
  | .store op, answer, s =>
      (op.perform jsonb answer s.store).map fun store => { s with store := store }
  | .getTask taskID tenantID, answer, s =>
      if readAnswer (s.store.taskOfTenant taskID tenantID) answer then some s else none
  | .getTaskByIdempotencyKey tenantID key, answer, s =>
      if readAnswer (s.store.taskByIdempotencyKey tenantID key) answer then some s else none
  | .getBoundActionRunByIdempotency tenantID key, answer, s =>
      if readAnswer (s.store.boundRunByIdempotency tenantID key) answer then some s else none
  | .getAllCheckpoints taskID, answer, s =>
      if readAnswer (.ok (s.store.allCheckpoints taskID)) answer then some s else none
  | .getTenantID taskID, answer, s =>
      if readAnswer (s.store.tenantOf taskID) answer then some s else none
  | .newUUID, (answer : Uuid), s => if answer = Uuid.nil then none else some s
  | .post request, (answer : Nat), s =>
      if answer = s.posted.length then some { s with posted := s.posted ++ [request] } else none
  | .walWriteIntent taskID step, answer, s => if intentMatches taskID step answer then some s else none
  | .walWriteCommitted intent _, answer, s => if commitMatches intent answer then some s else none
  | _, _, s => some s

/-! ## Actions as programs -/

/-- Code of the coordinator and of the runtimes. -/
abbrev Program := Prog Action Answer

namespace Program

abbrev store (op : StoreOp) : Program StoreAnswer :=
  Prog.issue (Action.store op)

abbrev getTask (taskID : Uuid) (tenantID : String) : Program (Except ReadError TaskRecord) :=
  Prog.issue (Action.getTask taskID tenantID)

abbrev getTaskByIdempotencyKey (tenantID idempotencyKey : String) :
    Program (Except ReadError TaskRecord) :=
  Prog.issue (Action.getTaskByIdempotencyKey tenantID idempotencyKey)

abbrev getBoundActionRunByIdempotency (tenantID key : String) :
    Program (Except ReadError BoundActionRunIdentity) :=
  Prog.issue (Action.getBoundActionRunByIdempotency tenantID key)

abbrev getAllCheckpoints (taskID : Uuid) : Program (Except ReadError (List CheckpointPayload)) :=
  Prog.issue (Action.getAllCheckpoints taskID)

abbrev getTenantID (taskID : Uuid) : Program (Except ReadError String) :=
  Prog.issue (Action.getTenantID taskID)

abbrev newUUID : Program Uuid :=
  Prog.issue Action.newUUID

abbrev selectRuntime (tenantID preferredRuntimeID : String) : Program (Except String RuntimeInfo) :=
  Prog.issue (Action.selectRuntime tenantID preferredRuntimeID)

abbrev call (service : Service) : Program (Except String Unit) :=
  Prog.issue (Action.call service)

abbrev rewrite (service : DefinitionService) (definition : TaskDefinition) :
    Program (Except String TaskDefinition) :=
  Prog.issue (Action.rewrite service definition)

abbrev go (job : Job) : Program Unit :=
  Prog.issue (Action.go job)

abbrev post (request : RuntimeTaskRequest) : Program Nat :=
  Prog.issue (Action.post request)

abbrev awaitResponse (request : RuntimeTaskRequest) : Program DispatchResponse :=
  Prog.issue (Action.awaitResponse request)

abbrev test (condition : RuntimeTest) : Program Bool :=
  Prog.issue (Action.test condition)

abbrev submissionRecord (tenantID idempotencyKey : String) (hashed : HashedRequest) :
    Program (Option RuntimeResponse) :=
  Prog.issue (Action.submissionRecord tenantID idempotencyKey hashed)

abbrev persistTaskRecord (tenantID idempotencyKey : String) (hashed : HashedRequest)
    (response : TaskSubmitResponse) : Program (Except String Unit) :=
  Prog.issue (Action.persistTaskRecord tenantID idempotencyKey hashed response)

abbrev permissionFailureForStep (step : RuntimeTaskStep) : Program (Option TaskFailureDetails) :=
  Prog.issue (Action.permissionFailureForStep step)

abbrev walCommittedState (taskID : Uuid) : Program (Except String (Option Nat × String)) :=
  Prog.issue (Action.walCommittedState taskID)

abbrev walValidateExternal (token : ResumeToken) (cp : CheckpointPayload) :
    Program (Except String Unit) :=
  Prog.issue (Action.walValidateExternal token cp)

abbrev walImportEntries (taskID : Uuid) (entries : List WalEntry) : Program (Except String Unit) :=
  Prog.issue (Action.walImportEntries taskID entries)

abbrev walWriteIntent (taskID : Uuid) (step : RuntimeTaskStep) : Program (Except String WalEntry) :=
  Prog.issue (Action.walWriteIntent taskID step)

abbrev walWriteCommitted (intent : WalEntry) (outputDigest : String) :
    Program (Except String WalEntry) :=
  Prog.issue (Action.walWriteCommitted intent outputDigest)

abbrev walComputeDigest (taskID : Uuid) : Program (Except String String) :=
  Prog.issue (Action.walComputeDigest taskID)

abbrev executeStep (request : RuntimeTaskRequest) (step : RuntimeTaskStep) :
    Program (Except String StepExecutionResult) :=
  Prog.issue (Action.executeStep request step)

abbrev executeBehaviorTree (request : RuntimeTaskRequest) :
    Program (Except String BehaviorTreeResult) :=
  Prog.issue (Action.executeBehaviorTree request)

abbrev buildExecutionArtifacts (step : RuntimeTaskStep) :
    Program (Except String (Option String × Option String)) :=
  Prog.issue (Action.buildExecutionArtifacts step)

abbrev sendCallback (callback : RuntimeCallback) : Program CallbackFate :=
  Prog.issue (Action.sendCallback callback)

end Program

end Igris
