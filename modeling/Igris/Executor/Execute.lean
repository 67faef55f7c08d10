import Igris.Executor.Steps

/-!
# Executing a task on a runtime

The handler of a task request: it verifies the point to resume from, walks through
the remaining steps, and reports checkpoints, completion or failure to the
coordinator.
-/

namespace Igris
namespace Executor

open Concurrency Program

/-- What stays fixed during the step loop. -/
structure StepContext where
  runtimeID : String
  req : RuntimeTaskRequest
  startStep : Nat
  stepsTotal : Nat

/-- The variables of the step loop. -/
structure LoopState where
  stepsCompleted : Nat
  checkpoint : Option CheckpointPayload := none
  checkpointMetadata : Option String := none
  entriesSinceCheckpoint : List WalEntry := []
  lastEnvelope : Option String := none
  lastReceipt : Option String := none
deriving DecidableEq, Repr

def runtimeExecutionFailureDetails (rejectionType message : String) : TaskFailureDetails where
  source := "runtime"
  operation := "execution"
  rejectionType := rejectionType
  message := message

def taskCancellationReason (taskID : Uuid) : String :=
  "task " ++ taskID.string ++ " canceled"

/-! ## Callbacks -/

/-- Callbacks are signed with the identity of the runtime.  Without a configured
address nothing is sent and the call succeeds. -/
def sendRuntimeCallback (runtimeID : String) (req : RuntimeTaskRequest) (body : CallbackBody) :
    Program (Except String Unit) := do
  let fate ← sendCallback {
    sender := runtimeID
    taskID := req.taskID
    tenantID := req.tenantID
    body := body
    envelope := some { tenantID := req.tenantID, taskID := req.taskID, runtimeID := runtimeID } }
  pure fate.result

/-- Send a checkpoint, if there is one. -/
def sendCheckpointCallback (runtimeID : String) (req : RuntimeTaskRequest) :
    Option CheckpointPayload → Program (Except String Unit)
  | none => pure (.ok ())
  | some cp => sendRuntimeCallback runtimeID req (.checkpoint cp)

def sendLifecycleCallbacksForResponse (runtimeID : String) (req : RuntimeTaskRequest)
    (response : TaskSubmitResponse) : Program (Except String Unit) := do
  match response.status with
  | .completed =>
      match ← sendCheckpointCallback runtimeID req response.checkpoint with
      | .error err => pure (.error err)
      | .ok _ => sendRuntimeCallback runtimeID req .complete
  | .checkpointed _ => sendCheckpointCallback runtimeID req response.checkpoint
  | .failed reason =>
      sendRuntimeCallback runtimeID req (.failed reason response.failureDetails)

/-- Keep the response for later requests with the same key; a failure is ignored. -/
def persistRecord (req : RuntimeTaskRequest) (response : TaskSubmitResponse) : Program Unit := do
  let _ ← persistTaskRecord req.tenantID req.idempotencyKey req.hashed response

/-- Record a response, report it to the coordinator, then return it. -/
def respond (runtimeID : String) (req : RuntimeTaskRequest) (response : TaskSubmitResponse) :
    Program RuntimeResponse := do
  persistRecord req response
  match ← sendLifecycleCallbacksForResponse runtimeID req response with
  | .error _ => pure (.error 502 "runtime_callback_failed")
  | .ok _ => pure (.response response)

/-! ## Responses of the step loop -/

/-- The response in the current state of the loop. -/
def currentResponse (ctx : StepContext) (st : LoopState) (status : TaskStatus) :
    TaskSubmitResponse where
  taskID := ctx.req.taskID
  stepsCompleted := st.stepsCompleted
  stepsTotal := ctx.stepsTotal
  status := status
  checkpoint := st.checkpoint
  executionEnvelope := st.lastEnvelope
  executionReceipt := st.lastReceipt

def buildCheckpoint (ctx : StepContext) (lastCommittedStep : Nat) (entries : List WalEntry)
    (metadata : Option String) : Program (Except String CheckpointPayload) := do
  match ← walComputeDigest ctx.req.taskID with
  | .error err => pure (.error err)
  | .ok digest =>
      pure (.ok {
        taskID := ctx.req.taskID
        resumeToken := {
          lastCommittedStep := lastCommittedStep
          checkpointDigest := digest
          runtimeID := ctx.runtimeID }
        walEntries := entries
        metadata := metadata })

/-- Stop with a failure. -/
def respondFailed (ctx : StepContext) (st : LoopState) (reason : String)
    (details : TaskFailureDetails) : Program RuntimeResponse :=
  respond ctx.runtimeID ctx.req
    { currentResponse ctx st (.failed reason) with failureDetails := some details }

/-- Stop with a failure of a step; its artifacts replace the last ones if they can be
built. -/
def respondStepFailed (ctx : StepContext) (st : LoopState) (step : RuntimeTaskStep)
    (reason : String) (details : TaskFailureDetails) : Program RuntimeResponse := do
  match ← buildExecutionArtifacts step with
  | .error _ => respondFailed ctx st reason details
  | .ok (envelope, receipt) =>
      respondFailed ctx { st with lastEnvelope := envelope, lastReceipt := receipt } reason details

/-- Stop at the last completed step, with a checkpoint over the entries collected. -/
def respondCheckpointed (ctx : StepContext) (st : LoopState) : Program RuntimeResponse := do
  match ← buildCheckpoint ctx (st.stepsCompleted - 1) st.entriesSinceCheckpoint
      st.checkpointMetadata with
  | .error _ => pure (.error 500 "wal_error")
  | .ok payload =>
      respond ctx.runtimeID ctx.req
        { currentResponse ctx st (.checkpointed payload.resumeToken) with
          checkpoint := some payload }

/-! ## The step loop -/

/-- Reasons to stop before a step is executed. -/
def beforeStep (ctx : StepContext) (step : RuntimeTaskStep) (st : LoopState) :
    Program (Option RuntimeResponse) := do
  let enabled ← test .localDemoFailureEnabled
  match localDemoFailureReason enabled ctx.req.taskDefinition st.stepsCompleted with
  | some reason =>
      let response ← respondFailed ctx st reason
        (runtimeExecutionFailureDetails "local_demo_deterministic_failure" reason)
      pure (some response)
  | none =>
      match ← permissionFailureForStep step with
      | some details =>
          let response ← respondStepFailed ctx st step details.message details
          pure (some response)
      | none =>
          if ← test .canceled then
            let reason := taskCancellationReason ctx.req.taskID
            let response ← respondFailed ctx st reason
              (runtimeExecutionFailureDetails "task_canceled" reason)
            pure (some response)
          else if ← test .deadlineExceeded then
            let response ← respondCheckpointed ctx st
            pure (some response)
          else pure none

/-- The step was executed: record its artifacts and commit it to the log. -/
def commitStep (step : RuntimeTaskStep) (st : LoopState) (intent : WalEntry)
    (result : Igris.StepExecutionResult) : Program (Except RuntimeResponse LoopState) := do
  match ← buildExecutionArtifacts step with
  | .error _ => pure (.error (.error 500 "artifact_error"))
  | .ok (envelope, receipt) =>
      if ← test .signingKeyMissing then pure (.error (.error 500 "missing_signing_key"))
      else
        match ← walWriteCommitted intent result.outputDigest with
        | .error _ => pure (.error (.error 500 "wal_error"))
        | .ok committedEntry =>
            pure (.ok { st with
              entriesSinceCheckpoint := st.entriesSinceCheckpoint ++ [committedEntry]
              stepsCompleted := (step.stepIndex + 1) % u32Bound
              checkpointMetadata := some result.metadata
              lastEnvelope := envelope
              lastReceipt := receipt })

/-- Execute a step and commit it; the error is the response to stop with. -/
def executeAndCommit (ctx : StepContext) (step : RuntimeTaskStep) (st : LoopState) :
    Program (Except RuntimeResponse LoopState) := do
  match ← walWriteIntent ctx.req.taskID step with
  | .error _ => pure (.error (.error 500 "wal_error"))
  | .ok intent =>
      match ← executeStep ctx.req step with
      | .error err =>
          let reason := "Step " ++ toString step.stepIndex ++ " failed: " ++ err
          let response ← respondStepFailed ctx st step reason
            (runtimeExecutionFailureDetails "step_failed" err)
          pure (.error response)
      | .ok result =>
          if ← test .canceled then
            let reason := taskCancellationReason ctx.req.taskID
            let response ← respondFailed ctx st reason
              (runtimeExecutionFailureDetails "task_canceled" reason)
            pure (.error response)
          else if result.checkpointRequested then
            let response ← respondCheckpointed ctx
              { st with checkpointMetadata := some result.metadata }
            pure (.error response)
          else commitStep step st intent result

/-- After a committed step: a checkpoint that the definition asks for, or the one
taken every five steps, which stays on the runtime. -/
def afterStep (ctx : StepContext) (step : RuntimeTaskStep) (st : LoopState) :
    Program (Except RuntimeResponse LoopState) := do
  if shouldCheckpointAfterSteps ctx.req.taskDefinition ctx.startStep st.stepsCompleted
      ctx.stepsTotal then
    match ← buildCheckpoint ctx step.stepIndex st.entriesSinceCheckpoint st.checkpointMetadata with
    | .error _ => pure (.error (.error 500 "wal_error"))
    | .ok payload =>
        if continueAfterCheckpoint ctx.req.taskDefinition then
          match ← sendRuntimeCallback ctx.runtimeID ctx.req (.checkpoint payload) with
          | .error _ => pure (.error (.error 502 "runtime_callback_failed"))
          | .ok _ =>
              pure (.ok { st with checkpoint := some payload, entriesSinceCheckpoint := [] })
        else
          let response := { currentResponse ctx st (.checkpointed payload.resumeToken) with
            checkpoint := some payload }
          persistRecord ctx.req response
          pure (.error (.response response))
  else if 0 < st.stepsCompleted ∧ st.stepsCompleted % 5 = 0 then
    match ← buildCheckpoint ctx step.stepIndex st.entriesSinceCheckpoint st.checkpointMetadata with
    | .error _ => pure (.ok st)
    | .ok payload => pure (.ok { st with checkpoint := some payload })
  else pure (.ok st)

/-- No step is left. -/
def completeTask (ctx : StepContext) (st : LoopState) : Program RuntimeResponse := do
  if st.entriesSinceCheckpoint = [] then
    respond ctx.runtimeID ctx.req (currentResponse ctx st .completed)
  else
    match ← buildCheckpoint ctx (st.stepsCompleted - 1) st.entriesSinceCheckpoint
        st.checkpointMetadata with
    | .error _ => pure (.error 500 "wal_error")
    | .ok payload =>
        respond ctx.runtimeID ctx.req
          { currentResponse ctx st .completed with checkpoint := some payload }

/-- The step loop. -/
def runSteps (ctx : StepContext) : List RuntimeTaskStep → LoopState → Program RuntimeResponse
  | [], st => completeTask ctx st
  | step :: steps, st => do
      match ← beforeStep ctx step st with
      | some response => pure response
      | none =>
          match ← executeAndCommit ctx step st with
          | .error response => pure response
          | .ok st =>
              match ← afterStep ctx step st with
              | .error response => pure response
              | .ok st => runSteps ctx steps st

/-! ## Entering the loop -/

/-- The log does not confirm the token. -/
def checkpointMismatch (req : RuntimeTaskRequest) : Program (Except RuntimeResponse Nat) := do
  match ← walCommittedState req.taskID with
  | .error _ => pure (.error (.error 500 "wal_error"))
  | .ok _ => pure (.error (.error 409 "checkpoint_mismatch"))

/-- Seed an empty log from the checkpoint that was sent along. -/
def resumeFromCheckpoint (req : RuntimeTaskRequest) (token : ResumeToken)
    (cp : CheckpointPayload) : Program (Except RuntimeResponse Nat) := do
  if !externalCheckpointMatches req.taskID token cp then
    pure (.error (.error 409 "checkpoint_mismatch"))
  else
    match ← walValidateExternal token cp with
    | .error _ => pure (.error (.error 409 "checkpoint_mismatch"))
    | .ok _ =>
        match ← walImportEntries req.taskID cp.walEntries with
        | .error _ => pure (.error (.error 409 "checkpoint_mismatch"))
        | .ok _ =>
            match ← walCommittedState req.taskID with
            | .error _ => pure (.error (.error 409 "checkpoint_mismatch"))
            | .ok (seededLastStep, seededDigest) =>
                match verifiedResumeStartStep token seededLastStep seededDigest with
                | some startStep => pure (.ok startStep)
                | none => checkpointMismatch req

/-- The step to start from, verified against the local log or the checkpoint. -/
def verifiedStart (req : RuntimeTaskRequest) : Program (Except RuntimeResponse Nat) := do
  match req.resumeFrom with
  | none => pure (.ok 0)
  | some token =>
      match ← walCommittedState req.taskID with
      | .error _ => pure (.error (.error 409 "checkpoint_mismatch"))
      | .ok (localLastStep, localDigest) =>
          match verifiedResumeStartStep token localLastStep localDigest with
          | some startStep => pure (.ok startStep)
          | none =>
              match localLastStep, req.resumeCheckpoint with
              | none, some cp => resumeFromCheckpoint req token cp
              | _, _ => checkpointMismatch req

/-- Status, step count and failure details for the outcome of a behavior tree. -/
def behaviorTreeStatus (bt : BehaviorTreeResult) :
    TaskStatus × Nat × Option TaskFailureDetails :=
  match bt.status with
  | .success => (.completed, 1, none)
  | .failure | .skipped =>
      let reason := bt.error.getD "behavior tree returned Failure"
      (.failed reason, 0, some (runtimeExecutionFailureDetails "behavior_tree_failed" reason))
  | .running =>
      match bt.checkpoint with
      | some cp => (.checkpointed cp.resumeToken, bt.tickCount % u32Bound, none)
      | none =>
          let reason := "execution interrupted without checkpoint"
          (.failed reason, 0,
            some (runtimeExecutionFailureDetails "execution_interrupted_without_checkpoint" reason))

/-- A behavior tree that could not be executed. -/
def behaviorTreeError (runtimeID : String) (req : RuntimeTaskRequest) (err : String) :
    Program RuntimeResponse := do
  if "invalid behavior tree:".toList.isPrefixOf err.toList then pure (.error 400 "invalid_tree")
  else
    let response : TaskSubmitResponse := {
      taskID := req.taskID
      stepsCompleted := 0
      stepsTotal := 1
      status := .failed ("Execution error: " ++ err)
      failureDetails := some (runtimeExecutionFailureDetails "behavior_tree_execution_error" err) }
    persistRecord req response
    match ← sendRuntimeCallback runtimeID req (.failed "behavior tree execution error" none) with
    | .error _ => pure (.error 502 "runtime_callback_failed")
    | .ok _ => pure (.response response)

/-- Behavior trees run outside the step loop.  Their failure callbacks carry no details. -/
def runBehaviorTree (runtimeID : String) (req : RuntimeTaskRequest) : Program RuntimeResponse := do
  if ← test .signingKeyMissing then pure (.error 400 "missing_signing_key")
  else
    match ← executeBehaviorTree req with
    | .error err => behaviorTreeError runtimeID req err
    | .ok bt =>
        let (status, stepsCompleted, failureDetails) := behaviorTreeStatus bt
        let response : TaskSubmitResponse := {
          taskID := req.taskID
          stepsCompleted := stepsCompleted
          stepsTotal := 1
          status := status
          checkpoint := bt.checkpoint
          failureDetails := failureDetails }
        persistRecord req response
        match ← sendLifecycleCallbacksForResponse runtimeID req
            { response with failureDetails := none } with
        | .error _ => pure (.error 502 "runtime_callback_failed")
        | .ok _ => pure (.response response)

def stepContext (runtimeID : String) (req : RuntimeTaskRequest) (startStep : Nat)
    (steps : List RuntimeTaskStep) : StepContext where
  runtimeID := runtimeID
  req := req
  startStep := startStep
  stepsTotal := steps.length % u32Bound

/-- Execute the steps from the verified start on. -/
def executeTask (runtimeID : String) (req : RuntimeTaskRequest) (startStep : Nat) :
    Program RuntimeResponse :=
  match materializeExecutionGraph req.taskDefinition with
  | none => runBehaviorTree runtimeID req
  | some nodes =>
      runSteps (stepContext runtimeID req startStep (compileExecutionGraphToSteps nodes))
        ((compileExecutionGraphToSteps nodes).filter fun step => decide (startStep ≤ step.stepIndex))
        { stepsCompleted := startStep }

/-- A new request: check it, find the step to start from and execute the rest. -/
def acceptRequest (runtimeID : String) (req : RuntimeTaskRequest) : Program RuntimeResponse := do
  if req.taskDefinition.taskType = .singleInference ∧ req.taskDefinition.stream = true then
    pure (.error 400 "unsupported_streaming_mode")
  else if ← test .permissionEnvelopeRejected then
    pure (.error 403 "permission_envelope_rejected")
  else
    match ← verifiedStart req with
    | .error response => pure response
    | .ok startStep => executeTask runtimeID req startStep

/-- The handler of a task request. -/
def handleTaskSubmit (runtimeID : String) (req : RuntimeTaskRequest) :
    Program RuntimeResponse := do
  if !requestDecodes req then pure (.error 422 "invalid_request")
  else if ← test .safeIdle then pure (.error 503 "safe_idle_active")
  else
    match ← submissionRecord req.tenantID req.idempotencyKey req.hashed with
    | some recorded => pure recorded
    | none => acceptRequest runtimeID req

/-! ## What an execution can do -/

section Guards

variable {K : (a : Action) → Answer a → Prop} {runtimeID : String} {req : RuntimeTaskRequest}
  {ctx : StepContext} {st : LoopState} {step : RuntimeTaskStep}

/-- A callback of the runtime about the task of a request. -/
def callbackOf (runtimeID : String) (req : RuntimeTaskRequest) (body : CallbackBody) :
    RuntimeCallback where
  sender := runtimeID
  taskID := req.taskID
  tenantID := req.tenantID
  body := body
  envelope := some { tenantID := req.tenantID, taskID := req.taskID, runtimeID := runtimeID }

/-- Submission records are read and written under the tenant and the key of the request. -/
def OwnRecord (req : RuntimeTaskRequest) : Action → Prop
  | .submissionRecord tenantID key _ | .persistTaskRecord tenantID key _ _ =>
      tenantID = req.tenantID ∧ key = req.idempotencyKey
  | _ => True

/-- Actions of an execution: it executes steps from the resume point on, sends callbacks
about its task and keeps to its own submission record. -/
inductive ExecutionIssues (runtimeID : String) (req : RuntimeTaskRequest) : Action → Prop where
  | quiet {a : Action} (hown : OwnRecord req a) (h : a.quiet = true) :
      ExecutionIssues runtimeID req a
  | step {step : RuntimeTaskStep} (h : resumePoint req ≤ step.stepIndex) :
      ExecutionIssues runtimeID req (.executeStep req step)
  | callback (body : CallbackBody) :
      ExecutionIssues runtimeID req (.sendCallback (callbackOf runtimeID req body))

theorem ExecutionIssues.own {a : Action} (h : ExecutionIssues runtimeID req a) : OwnRecord req a := by
  cases h with
  | quiet hown => exact hown
  | step | callback => trivial

/-- What an action executes: a step, or a behavior tree as a whole. -/
def executedUnit : Action → Option (Option RuntimeTaskStep)
  | .executeStep _ step => some (some step)
  | .executeBehaviorTree _ => some none
  | _ => none

/-- Actions of the parts of an execution that execute nothing. -/
structure Reports (runtimeID : String) (req : RuntimeTaskRequest) (a : Action) : Prop where
  issues : ExecutionIssues runtimeID req a
  unexecuted : executedUnit a = none

theorem Reports.quiet {a : Action} (h : a.quiet = true) (hunit : executedUnit a = none)
    (hown : OwnRecord req a) : Reports runtimeID req a :=
  ⟨.quiet hown h, hunit⟩

/-- The program issues actions of an execution, and executes these units at most. -/
abbrev Executes {α : Type} (K : (a : Action) → Answer a → Prop) (runtimeID : String)
    (req : RuntimeTaskRequest) (units : List (Option RuntimeTaskStep)) (p : Program α)
    (post : α → Prop) : Prop :=
  p.Along K (ExecutionIssues runtimeID req) executedUnit post units

theorem executes_of_reports {α : Type} {p : Program α} {post : α → Prop}
    (h : p.Guarded K (Reports runtimeID req) post) : Executes K runtimeID req [] p post :=
  h.along fun _ hreports => ⟨hreports.issues, hreports.unexecuted⟩

/-- A part that executes nothing may be followed by one that returns its value. -/
theorem executes_map {α β : Type} {p : Program α} {f : α → β}
    (h : p.Issues K (Reports runtimeID req)) :
    Executes K runtimeID req [] (p.bind fun value => .ret (f value)) fun _ => True := by
  apply executes_of_reports
  exact h.bind fun _ _ => trivial

theorem sendRuntimeCallback_guarded (body : CallbackBody) :
    (sendRuntimeCallback runtimeID req body).Issues K (Reports runtimeID req) :=
  ⟨⟨.callback body, rfl⟩, fun _ _ => trivial⟩

theorem sendCheckpointCallback_guarded (cp : Option CheckpointPayload) :
    (sendCheckpointCallback runtimeID req cp).Issues K (Reports runtimeID req) := by
  cases cp with
  | none => trivial
  | some cp => exact sendRuntimeCallback_guarded _

theorem sendLifecycleCallbacks_guarded (response : TaskSubmitResponse) :
    (sendLifecycleCallbacksForResponse runtimeID req response).Issues K
      (Reports runtimeID req) := by
  unfold sendLifecycleCallbacksForResponse
  split
  · apply (sendCheckpointCallback_guarded _).bind
    intro sent _
    cases sent with
    | error err => trivial
    | ok _ => exact sendRuntimeCallback_guarded _
  · exact sendCheckpointCallback_guarded _
  · exact sendRuntimeCallback_guarded _

theorem persistRecord_guarded (response : TaskSubmitResponse) :
    (persistRecord req response).Issues K (Reports runtimeID req) :=
  ⟨.quiet rfl rfl ⟨rfl, rfl⟩, fun _ _ => trivial⟩

theorem respond_guarded (response : TaskSubmitResponse) :
    (respond runtimeID req response).Issues K (Reports runtimeID req) := by
  apply (persistRecord_guarded response).bind
  intro _ _
  apply (sendLifecycleCallbacks_guarded response).bind
  intro sent _
  cases sent <;> trivial

theorem buildCheckpoint_guarded (n : Nat) (entries : List WalEntry) (metadata : Option String) :
    (buildCheckpoint ctx n entries metadata).Issues K (Reports runtimeID req) := by
  refine ⟨.quiet rfl rfl trivial, ?_⟩
  intro digest _
  cases digest <;> trivial

theorem respondStepFailed_guarded (reason : String) (details : TaskFailureDetails) :
    (respondStepFailed ctx st step reason details).Issues K
      (Reports ctx.runtimeID ctx.req) := by
  refine ⟨.quiet rfl rfl trivial, ?_⟩
  intro artifacts _
  cases artifacts with
  | error err => exact respond_guarded _
  | ok pair => exact respond_guarded _

theorem respondCheckpointed_guarded :
    (respondCheckpointed ctx st).Issues K (Reports ctx.runtimeID ctx.req) := by
  apply (buildCheckpoint_guarded _ _ _).bind
  intro built _
  cases built with
  | error err => trivial
  | ok payload => exact respond_guarded _

theorem beforeStep_guarded :
    (beforeStep ctx step st).Issues K (Reports ctx.runtimeID ctx.req) := by
  refine ⟨.quiet rfl rfl trivial, ?_⟩
  intro enabled _
  simp only [Prog.bind_ret]
  split
  · exact (respond_guarded _).bind fun _ _ => trivial
  · refine ⟨.quiet rfl rfl trivial, ?_⟩
    intro failure _
    cases failure with
    | some details => exact (respondStepFailed_guarded _ _).bind fun _ _ => trivial
    | none =>
        refine ⟨.quiet rfl rfl trivial, ?_⟩
        intro canceled _
        simp only [Prog.bind_ret]
        split
        · exact (respond_guarded _).bind fun _ _ => trivial
        · refine ⟨.quiet rfl rfl trivial, ?_⟩
          intro exceeded _
          simp only [Prog.bind_ret]
          split
          · exact respondCheckpointed_guarded.bind fun _ _ => trivial
          · trivial

theorem commitStep_guarded (intent : WalEntry) (result : Igris.StepExecutionResult) :
    (commitStep step st intent result).Issues K (Reports runtimeID req) := by
  refine ⟨.quiet rfl rfl trivial, ?_⟩
  intro artifacts _
  cases artifacts with
  | error err => trivial
  | ok pair =>
      refine ⟨.quiet rfl rfl trivial, ?_⟩
      intro missing _
      simp only [Prog.bind_ret]
      split
      · trivial
      · refine ⟨.quiet rfl rfl trivial, ?_⟩
        intro committed _
        cases committed <;> trivial

theorem executeAndCommit_executes (hstep : resumePoint ctx.req ≤ step.stepIndex) :
    Executes K ctx.runtimeID ctx.req [some step] (executeAndCommit ctx step st) fun _ => True := by
  apply Prog.along_act_of_none (.quiet trivial rfl) rfl
  intro intent _
  cases intent with
  | error err => trivial
  | ok intent =>
      have hunit : executedUnit (.executeStep ctx.req step) = some (some step) := rfl
      apply Prog.along_act_of_some (.step hstep) hunit
      intro result _
      cases result with
      | error err => exact executes_map (respondStepFailed_guarded _ _)
      | ok result =>
          apply Prog.along_act_of_none (.quiet trivial rfl) rfl
          intro canceled _
          simp only [Prog.bind_ret]
          split
          · exact executes_map (respond_guarded _)
          · split
            · exact executes_map respondCheckpointed_guarded
            · exact executes_of_reports (commitStep_guarded intent result)

theorem afterStep_guarded :
    (afterStep ctx step st).Issues K (Reports ctx.runtimeID ctx.req) := by
  unfold afterStep
  split
  · apply (buildCheckpoint_guarded _ _ _).bind
    intro built _
    cases built with
    | error err => trivial
    | ok payload =>
        dsimp only
        split
        · apply (sendRuntimeCallback_guarded _).bind
          intro sent _
          cases sent <;> trivial
        · exact (persistRecord_guarded _).bind fun _ _ => trivial
  · split
    · apply (buildCheckpoint_guarded _ _ _).bind
      intro built _
      cases built <;> trivial
    · trivial

theorem completeTask_guarded :
    (completeTask ctx st).Issues K (Reports ctx.runtimeID ctx.req) := by
  unfold completeTask
  split
  · exact respond_guarded _
  · apply (buildCheckpoint_guarded _ _ _).bind
    intro built _
    cases built with
    | error err => trivial
    | ok payload => exact respond_guarded _

theorem runSteps_executes (ctx : StepContext) (steps : List RuntimeTaskStep) (st : LoopState)
    (hsteps : ∀ step ∈ steps, resumePoint ctx.req ≤ step.stepIndex) :
    Executes K ctx.runtimeID ctx.req (steps.map some) (runSteps ctx steps st) fun _ => True := by
  induction steps generalizing st with
  | nil => exact executes_of_reports completeTask_guarded
  | cons step steps ih =>
      refine Prog.Along.bind (executes_of_reports beforeStep_guarded) ?_
      intro stopped _
      cases stopped with
      | some response => trivial
      | none =>
          rw [List.forall_mem_cons] at hsteps
          rw [← List.singleton_append]
          refine Prog.Along.bind (executeAndCommit_executes hsteps.1) ?_
          intro executed _
          cases executed with
          | error response => trivial
          | ok st₁ =>
              refine Prog.Along.bind (executes_of_reports afterStep_guarded) ?_
              intro continued _
              cases continued with
              | error response => trivial
              | ok st₂ => exact ih st₂ hsteps.2

/-- The actions of the search for the start step. -/
def searches : Action → Bool
  | .walCommittedState _ | .walValidateExternal _ _ | .walImportEntries _ _ => true
  | _ => false

theorem Reports.of_searches {a : Action} (h : searches a = true) : Reports runtimeID req a := by
  cases a with
  | walCommittedState | walValidateExternal | walImportEntries => exact .quiet rfl rfl trivial
  | _ => cases h

/-- An execution starts at the resume point of its request, if it starts at all. -/
def StartsAt (req : RuntimeTaskRequest) : Except RuntimeResponse Nat → Prop
  | .ok startStep => startStep = resumePoint req
  | .error response => ∃ status errorType, response = .error status errorType

theorem startsAt_of_verified {token : ResumeToken} {last : Option Nat} {digest : String}
    {startStep : Nat} (htoken : req.resumeFrom = some token)
    (h : verifiedResumeStartStep token last digest = some startStep) :
    StartsAt req (.ok startStep) := by
  unfold verifiedResumeStartStep at h
  split at h
  · cases h
  · split at h
    · cases h
    · cases h
      simp [StartsAt, resumePoint, htoken]

theorem checkpointMismatch_guarded :
    (checkpointMismatch req).Guarded K (searches · = true) (StartsAt req) := by
  refine ⟨rfl, ?_⟩
  intro state _
  cases state <;> exact ⟨_, _, rfl⟩

theorem resumeFromCheckpoint_guarded {token : ResumeToken} (htoken : req.resumeFrom = some token)
    (cp : CheckpointPayload) :
    (resumeFromCheckpoint req token cp).Guarded K (searches · = true) (StartsAt req) := by
  unfold resumeFromCheckpoint
  split
  · exact ⟨_, _, rfl⟩
  · refine ⟨rfl, ?_⟩
    intro validated _
    cases validated with
    | error err => exact ⟨_, _, rfl⟩
    | ok _ =>
        refine ⟨rfl, ?_⟩
        intro imported _
        cases imported with
        | error err => exact ⟨_, _, rfl⟩
        | ok _ =>
            refine ⟨rfl, ?_⟩
            intro seeded _
            cases seeded with
            | error err => exact ⟨_, _, rfl⟩
            | ok pair =>
                simp only [Prog.bind_ret]
                split
                · exact startsAt_of_verified htoken ‹_›
                · exact checkpointMismatch_guarded

theorem verifiedStart_guarded :
    (verifiedStart req).Guarded K (searches · = true) (StartsAt req) := by
  unfold verifiedStart
  split <;> rename_i htoken
  · simp [StartsAt, resumePoint, htoken]
  · refine ⟨rfl, ?_⟩
    intro state _
    cases state with
    | error err => exact ⟨_, _, rfl⟩
    | ok pair =>
        simp only [Prog.bind_ret]
        split
        · exact startsAt_of_verified htoken ‹_›
        · split
          · exact resumeFromCheckpoint_guarded htoken _
          · exact checkpointMismatch_guarded

theorem runBehaviorTree_executes :
    Executes K runtimeID req [none] (runBehaviorTree runtimeID req) fun _ => True := by
  apply Prog.along_act_of_none (.quiet trivial rfl) rfl
  intro missing _
  simp only [Prog.bind_ret]
  split
  · trivial
  · have hunit : executedUnit (.executeBehaviorTree req) = some none := rfl
    apply Prog.along_act_of_some (.quiet trivial rfl) hunit
    intro bt _
    apply executes_of_reports
    cases bt with
    | error err =>
        simp only [Prog.bind_ret]
        unfold behaviorTreeError
        split
        · trivial
        · apply (persistRecord_guarded _).bind
          intro _ _
          apply (sendRuntimeCallback_guarded _).bind
          intro sent _
          cases sent <;> trivial
    | ok bt =>
        apply (persistRecord_guarded _).bind
        intro _ _
        apply (sendLifecycleCallbacks_guarded _).bind
        intro sent _
        cases sent <;> trivial

/-- Everything there is to execute for a request. -/
def taskUnits (req : RuntimeTaskRequest) : List (Option RuntimeTaskStep) :=
  match materializeExecutionGraph req.taskDefinition with
  | none => [none]
  | some nodes => (compileExecutionGraphToSteps nodes).map some

theorem executeTask_executes :
    Executes K runtimeID req (taskUnits req) (executeTask runtimeID req (resumePoint req))
      fun _ => True := by
  unfold executeTask taskUnits
  cases materializeExecutionGraph req.taskDefinition with
  | none => exact runBehaviorTree_executes
  | some nodes =>
      have hsteps : ∀ step ∈ (compileExecutionGraphToSteps nodes).filter
          (fun step => decide (resumePoint req ≤ step.stepIndex)),
          resumePoint req ≤ step.stepIndex := by
        intro step hstep
        simpa using (List.mem_filter.mp hstep).2
      exact (runSteps_executes (stepContext runtimeID req _ _) _ _ hsteps).mono
        (List.filter_sublist.map some)

theorem handleTaskSubmit_executes (K : (a : Action) → Answer a → Prop) (runtimeID : String)
    (req : RuntimeTaskRequest) :
    Executes K runtimeID req (taskUnits req) (handleTaskSubmit runtimeID req) fun _ => True := by
  unfold handleTaskSubmit
  split
  · trivial
  · apply Prog.along_act_of_none (.quiet trivial rfl) rfl
    intro idle _
    simp only [Prog.bind_ret]
    split
    · trivial
    · apply Prog.along_act_of_none (.quiet ⟨rfl, rfl⟩ rfl) rfl
      intro recorded _
      cases recorded with
      | some response => trivial
      | none =>
          simp only [Prog.bind_ret]
          unfold acceptRequest
          split
          · trivial
          · apply Prog.along_act_of_none (.quiet trivial rfl) rfl
            intro rejected _
            simp only [Prog.bind_ret]
            split
            · trivial
            · have hstart : Executes K runtimeID req [] (verifiedStart req) (StartsAt req) :=
                executes_of_reports (verifiedStart_guarded.mono (fun _ _ => id)
                  (fun _ => Reports.of_searches) fun _ => id)
              refine Prog.Along.bind hstart ?_
              intro start hstart
              cases start with
              | error response => trivial
              | ok startStep =>
                  obtain rfl : startStep = resumePoint req := hstart
                  exact executeTask_executes

/-- Everything an execution can do. -/
theorem handleTaskSubmit_guarded (K : (a : Action) → Answer a → Prop) (runtimeID : String)
    (req : RuntimeTaskRequest) :
    (handleTaskSubmit runtimeID req).Issues K (ExecutionIssues runtimeID req) :=
  (handleTaskSubmit_executes K runtimeID req).guarded

/-- One submission executes each step at most once, in order. -/
theorem handleTaskSubmit_walks (runtimeID : String) (req : RuntimeTaskRequest) :
    (handleTaskSubmit runtimeID req).Walks executedUnit (taskUnits req) :=
  (handleTaskSubmit_executes _ runtimeID req).walks

end Guards

end Executor
end Igris
