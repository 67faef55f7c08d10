import Igris.Coordinator.Submit

/-!
# Dispatch and recovery

The background work of the coordinator: sending a task to its runtime and
processing the answer, and reassigning the tasks of a runtime that went silent or
failed a dispatch.
-/

namespace Igris
namespace Coordinator

open Concurrency Program

/-! ## Dispatch -/

/-- The key under which a runtime remembers a dispatch; a resumed dispatch has a key
of its own. -/
def runtimeDispatchIdempotencyKey (task : TaskRecord) (checkpoint : Option CheckpointPayload) :
    String :=
  match checkpoint with
  | none => task.idempotencyKey
  | some cp =>
      let digest := Text.trimSpace cp.resumeToken.checkpointDigest
      let digest := if digest.length > 16 then String.ofList (digest.toList.take 16) else digest
      task.idempotencyKey ++ ":resume:" ++ toString cp.resumeToken.lastCommittedStep ++ ":" ++ digest

/-- The request a task is sent with. -/
def runtimePayload (task : TaskRecord) (checkpoint : Option CheckpointPayload) :
    RuntimeTaskRequest where
  taskID := task.taskID
  tenantID := task.tenantID
  endpoint := task.runtimeEndpoint.getD ""
  taskDefinition := task.taskDefinition
  idempotencyKey := runtimeDispatchIdempotencyKey task checkpoint
  resumeFrom := checkpoint.map CheckpointPayload.resumeToken
  resumeCheckpoint := checkpoint

/-- A failed dispatch counts as a failure of the whole runtime. -/
def handleDispatchFailure (task : TaskRecord) : Program Unit :=
  match task.runtimeID with
  | none => pure ()
  | some runtimeID => go (.recoverRuntime runtimeID)

/-- Verify and store the artifacts of a result; {lit}`false` if the task was failed
instead. -/
def recordArtifacts (task : TaskRecord) (result : TaskSubmitResult) : Program Bool := do
  if result.executionEnvelope.isNone && result.executionReceipt.isNone then pure true
  else
    match ← call (.verifyExecutionArtifacts task.taskID) with
    | .error message =>
        failTask task.taskID ("runtime artifact verification failed: " ++ message) "dispatch"
          "runtime_artifact_verification_failed" message
        pure false
    | .ok _ =>
        match ← call (.verifyStepReceipts task.taskID) with
        | .error message =>
            failTask task.taskID ("runtime step receipt verification failed: " ++ message)
              "dispatch" "runtime_step_receipt_verification_failed" message
            pure false
        | .ok _ =>
            let _ ← store (.saveExecutionArtifacts task.taskID result.executionEnvelope
              result.executionReceipt)
            pure true

/-- Act on the final status a runtime reported. -/
def finishResult (task : TaskRecord) (result : TaskSubmitResult) : Program Unit := do
  let failureReason :=
    if result.failureReason = "" then result.statusReason else result.failureReason
  if result.statusName = "completed" then
    let _ ← store (.markCompleted task.taskID)
  else if result.statusName = "failed" then
    let _ ← store (.markFailedWithDetails task.taskID failureReason result.failureDetails)

/-- Store the checkpoint of a result, if it has one; the outcome is only logged. -/
def saveResultCheckpoint : Option CheckpointPayload → Program Unit
  | none => pure ()
  | some cp => do
      let _ ← store (.saveCheckpoint cp)

/-- Process the decoded answer of a runtime. -/
def processResult (task : TaskRecord) (result : TaskSubmitResult) : Program Unit := do
  saveResultCheckpoint result.checkpoint
  if ← recordArtifacts task result then
    finishResult task result

/-- What becomes of a dispatch once the runtime answered or could not be reached. -/
def processResponse (task : TaskRecord) : DispatchResponse → Program Unit
  | .unreachable => handleDispatchFailure task
  | .serverError _ => handleDispatchFailure task
  | .rejected _ reason details => do
      let _ ← store (.markFailedWithDetails task.taskID reason (some details))
  | .undecodable => pure ()
  | .accepted result => processResult task result

/-- Make a call and go on; if it fails, do something else. -/
def callOr (service : Service) (failed : String → Program Unit) (rest : Program Unit) :
    Program Unit := do
  match ← call service with
  | .error err => failed err
  | .ok _ => rest

/-- Send the request and process the answer. -/
def sendToRuntime (task : TaskRecord) (checkpoint : Option CheckpointPayload) : Program Unit := do
  let _ ← post (runtimePayload task checkpoint)
  let response ← awaitResponse (runtimePayload task checkpoint)
  processResponse task response

/-- Send a task to its runtime, from a checkpoint or from the start. -/
def dispatchToRuntime (task : TaskRecord) (checkpoint : Option CheckpointPayload) : Program Unit :=
  callOr (.normalizeTaskRuntimeEndpoint task.runtimeEndpoint)
    (fun _ => failTask task.taskID "invalid runtime endpoint" "dispatch"
      "invalid_runtime_endpoint" "invalid runtime endpoint") <|
  callOr (.decodeTaskDefinition task.taskID)
    (fun _ => failTask task.taskID "invalid task definition" "dispatch"
      "invalid_task_definition" "invalid task definition") <|
  callOr (.buildTaskPermissionEnvelope task.taskID)
    (fun err => failTask task.taskID "task capability policy denied" "dispatch"
      "capability_policy_denied" err) <|
  callOr (.saveTaskPermissionEnvelope task.taskID)
    (fun err => failTask task.taskID "task permission audit persistence failed" "dispatch"
      "permission_audit_persistence_failed" err) <|
  callOr (.saveRoboticsPolicyDecisions task.taskID)
    (fun err => failTask task.taskID "robotics policy audit persistence failed" "dispatch"
      "policy_audit_persistence_failed" err) <|
  callOr (.marshalDispatchPayload task.taskID)
    (fun _ => failTask task.taskID "internal marshal error" "dispatch"
      "internal_marshal_error" "internal marshal error") <|
  callOr (.buildDispatchRequest task.taskID)
    (fun err => failTask task.taskID err "dispatch" "request_build_failed" err) <|
  sendToRuntime task checkpoint

section Guards

variable {K : (a : Action) → Answer a → Prop} {task : TaskRecord}
  {checkpoint : Option CheckpointPayload}

/-- Actions of a dispatch: it sends one request, writes the task it was started for,
and stores the checkpoint that the answer carries, whatever task that one names. -/
inductive DispatchIssues (K : (a : Action) → Answer a → Prop) (task : TaskRecord)
    (checkpoint : Option CheckpointPayload) : Action → Prop where
  | quiet {a : Action} (h : a.quiet = true) : DispatchIssues K task checkpoint a
  | post : DispatchIssues K task checkpoint (.post (runtimePayload task checkpoint))
  | fail (reason : String) (details : Option TaskFailureDetails) :
      DispatchIssues K task checkpoint (.store (.markFailedWithDetails task.taskID reason details))
  | saveCheckpoint {result : TaskSubmitResult} {cp : CheckpointPayload}
      (hanswer : K (.awaitResponse (runtimePayload task checkpoint)) (.accepted result))
      (hcp : result.checkpoint = some cp) :
      DispatchIssues K task checkpoint (.store (.saveCheckpoint cp))
  | saveExecutionArtifacts (envelope receipt : Option String) :
      DispatchIssues K task checkpoint
        (.store (.saveExecutionArtifacts task.taskID envelope receipt))
  | complete : DispatchIssues K task checkpoint (.store (.markCompleted task.taskID))
  | recover {runtimeID : String} (hassigned : task.runtimeID = some runtimeID) :
      DispatchIssues K task checkpoint (.go (.recoverRuntime runtimeID))

theorem failTask_dispatch (reason operation rejectionType message : String) :
    (failTask task.taskID reason operation rejectionType message).Issues K
      (DispatchIssues K task checkpoint) :=
  ⟨.fail _ _, fun _ _ => trivial⟩

theorem callOr_guarded {service : Service} {failed : String → Program Unit} {rest : Program Unit}
    (hfailed : ∀ err, (failed err).Issues K (DispatchIssues K task checkpoint))
    (hrest : rest.Issues K (DispatchIssues K task checkpoint)) :
    (callOr service failed rest).Issues K (DispatchIssues K task checkpoint) := by
  refine ⟨.quiet rfl, ?_⟩
  intro answer _
  cases answer with
  | error err => exact hfailed err
  | ok _ => exact hrest

theorem handleDispatchFailure_guarded :
    (handleDispatchFailure task).Issues K (DispatchIssues K task checkpoint) := by
  unfold handleDispatchFailure
  split
  · trivial
  · rename_i runtimeID hassigned
    exact ⟨.recover hassigned, fun _ _ => trivial⟩

theorem recordArtifacts_guarded (result : TaskSubmitResult) :
    (recordArtifacts task result).Issues K (DispatchIssues K task checkpoint) := by
  unfold recordArtifacts
  split
  · trivial
  · refine ⟨.quiet rfl, ?_⟩
    intro verified _
    cases verified with
    | error message => exact ⟨.fail _ _, fun _ _ => trivial⟩
    | ok _ =>
        refine ⟨.quiet rfl, ?_⟩
        intro receipts _
        cases receipts with
        | error message => exact ⟨.fail _ _, fun _ _ => trivial⟩
        | ok _ => exact ⟨.saveExecutionArtifacts _ _, fun _ _ => trivial⟩

theorem finishResult_guarded (result : TaskSubmitResult) :
    (finishResult task result).Issues K (DispatchIssues K task checkpoint) := by
  unfold finishResult
  dsimp only
  split
  · exact ⟨.complete, fun _ _ => trivial⟩
  · split
    · exact ⟨.fail _ _, fun _ _ => trivial⟩
    · trivial

theorem processResult_guarded {result : TaskSubmitResult}
    (hanswer : K (.awaitResponse (runtimePayload task checkpoint)) (.accepted result)) :
    (processResult task result).Issues K (DispatchIssues K task checkpoint) := by
  have hsave : (saveResultCheckpoint result.checkpoint).Issues K
      (DispatchIssues K task checkpoint) := by
    cases hcp : result.checkpoint with
    | none => trivial
    | some cp => exact ⟨.saveCheckpoint hanswer hcp, fun _ _ => trivial⟩
  apply hsave.bind
  intro _ _
  apply (recordArtifacts_guarded result).bind
  intro goOn _
  split
  · exact finishResult_guarded result
  · trivial

/-- Everything a dispatch can do. -/
theorem dispatchToRuntime_guarded (K : (a : Action) → Answer a → Prop) (task : TaskRecord)
    (checkpoint : Option CheckpointPayload) :
    (dispatchToRuntime task checkpoint).Issues K (DispatchIssues K task checkpoint) := by
  have hsend : (sendToRuntime task checkpoint).Issues K (DispatchIssues K task checkpoint) := by
    refine ⟨.post, ?_⟩
    intro number _
    refine ⟨.quiet rfl, ?_⟩
    intro response hresponse
    cases response with
    | unreachable | serverError => exact handleDispatchFailure_guarded
    | rejected status reason details => exact ⟨.fail _ _, fun _ _ => trivial⟩
    | undecodable => trivial
    | accepted result => exact processResult_guarded hresponse
  unfold dispatchToRuntime
  repeat' apply callOr_guarded
  all_goals first
    | exact fun _ => failTask_dispatch _ _ _ _
    | exact hsend

end Guards

/-! ## Recovery -/

/-- Why there is no checkpoint to recover from. -/
inductive RecoveryCheckpointError where
  /-- The checkpoints could not be read. -/
  | read
  /-- The checkpoints do not form a usable prefix. -/
  | invalid (err : CumulativeError)
deriving DecidableEq, Repr

def getCumulativeRecoveryCheckpoint (taskID : Uuid) :
    Program (Except RecoveryCheckpointError (Option CheckpointPayload)) := do
  match ← getAllCheckpoints taskID with
  | .error _ => pure (.error .read)
  | .ok checkpoints =>
      match buildCumulativeRecoveryCheckpoint taskID (checkpoints.map some) with
      | .error err => pure (.error (.invalid err))
      | .ok cp => pure (.ok cp)

/-- The checkpoint to resume from: the reconstructed one, extended by the record's
own checkpoint if that one is further, and checked once more. -/
def recoveryCheckpoint (taskID : Uuid)
    (loaded : Except RecoveryCheckpointError (Option CheckpointPayload)) (task : TaskRecord) :
    Except RecoveryCheckpointError (Option CheckpointPayload) :=
  match loaded with
  | .error err => .error err
  | .ok cp =>
      let merged :=
        if task.lastCheckpoint.isSome && taskCheckpointAdvances cp task.lastCheckpoint then
          buildCumulativeRecoveryCheckpoint taskID [cp, task.lastCheckpoint]
        else .ok cp
      match merged with
      | .error err => .error (.invalid err)
      | .ok cp =>
          if cp.isSome && !taskRecoveryCheckpointUsable taskID cp then
            .error (.invalid .latestNotUsable)
          else .ok cp

/-- A task that is skipped stays as it is, except a stream that cannot be resumed. -/
def handleRecoverySkip (taskID : Uuid) (task : TaskRecord) (skipReason : String) :
    Program Unit :=
  if skipReason = "streaming_resume_unsupported" ∧ task.status = .recovering then
    failTask taskID taskFailureReasonStreamingResumeUnsupported "recovery"
      "streaming_resume_unsupported" taskFailureReasonStreamingResumeUnsupported
  else pure ()

/-- The task was assigned to a new runtime: read it again and send it off. -/
def redispatch (taskID : Uuid) (tenantID : String) (newRuntime : RuntimeInfo)
    (cp : Option CheckpointPayload) : Program Unit := do
  match ← getTask taskID tenantID with
  | .error _ => pure ()
  | .ok task =>
      match ← call (.hydrateTaskPermissionEnvelope taskID) with
      | .error _ => pure ()
      | .ok _ =>
          match ← rewrite .rehydrateTaskDefinitionInputRefs task.taskDefinition with
          | .error message =>
              failTask taskID "encrypted input unavailable for recovery" "recovery"
                "encrypted_input_unavailable" message
          | .ok rehydratedDefinition =>
              let runtimeTask := { task with
                runtimeEndpoint := some newRuntime.endpoint
                taskDefinition := rehydratedDefinition }
              go (.dispatchToRuntime runtimeTask cp)

/-- Policy input of a recovery attempt. -/
def recoveryPolicyInput (task : TaskRecord) (newRuntime : RuntimeInfo)
    (cp : Option CheckpointPayload) : ActionPolicyInput where
  tenantID := task.tenantID
  taskID := task.taskID
  runtimeID := newRuntime.runtimeID
  taskDefinition := task.taskDefinition
  checkpoint := cp
  recoveryAttempt := true

/-- Choose a new runtime, ask the policy and assign the task. -/
def handOff (taskID : Uuid) (tenantID : String) (task : TaskRecord)
    (cp : Option CheckpointPayload) : Program Unit := do
  match ← selectRuntime tenantID "" with
  | .error _ =>
      failTask taskID "no runtime available for recovery" "recovery" "no_runtime_available"
        "no runtime available for recovery"
  | .ok newRuntime =>
      let decision := evaluateActionPolicy (recoveryPolicyInput task newRuntime cp)
      match ← call (.saveActionPolicyDecision decision) with
      | .error message =>
          failTask taskID "recovery action policy decision persistence failed" "recovery"
            "policy_decision_persistence_failed" message
      | .ok _ =>
          let handoff := recoveryHandoffAllowed task cp newRuntime.runtimeID decision
          if !handoff.1 then
            failTask taskID handoff.2 "recovery" "runtime_handoff_denied" handoff.2
          else
            match ← store (.markDispatched taskID newRuntime.runtimeID newRuntime.endpoint) with
            | .error _ => pure ()
            | .ok _ => redispatch taskID tenantID newRuntime cp

/-- One round of the recovery loop. -/
def recoverTask (taskID : Uuid) : Program Unit := do
  let loaded ← getCumulativeRecoveryCheckpoint taskID
  let tenant ← getTenantID taskID
  -- a failed lookup leaves the tenant empty
  let tenantID := match tenant with
    | .ok tenantID => tenantID
    | .error _ => ""
  match ← getTask taskID tenantID with
  | .error _ => pure ()
  | .ok task =>
      match ← call (.hydrateTaskPermissionEnvelope taskID) with
      | .error _ => pure ()
      | .ok _ =>
          match taskRecoverySkipReason task with
          | some skipReason => handleRecoverySkip taskID task skipReason
          | none =>
              match recoveryCheckpoint taskID loaded task with
              | .error .read => pure ()
              | .error (.invalid _) =>
                  failTask taskID taskFailureReasonInvalidRecoveryCheckpoint "recovery"
                    "invalid_recovery_checkpoint" taskFailureReasonInvalidRecoveryCheckpoint
              | .ok cp => handOff taskID tenantID task cp

def recoverTasks : List Uuid → Program Unit
  | [] => pure ()
  | taskID :: taskIDs => do
      recoverTask taskID
      recoverTasks taskIDs

/-- Reassign the tasks of a runtime. -/
def recoverRuntime (runtimeID : String) : Program Unit := do
  match ← store (.markRecovering runtimeID) with
  | .error _ => pure ()
  | .ok taskIDs => recoverTasks taskIDs

section Guards

variable {K : (a : Action) → Answer a → Prop} {runtimeID : String} {taskID : Uuid}

/-- The pass learned that it moved the task to recovering. -/
def Recovering (K : (a : Action) → Answer a → Prop) (runtimeID : String) (taskID : Uuid) : Prop :=
  ∃ ids, K (.store (.markRecovering runtimeID)) (.ok ids) ∧ taskID ∈ ids

/-- Actions of a recovery pass. -/
inductive RecoverIssues (K : (a : Action) → Answer a → Prop) (runtimeID : String) :
    Action → Prop where
  | quiet {a : Action} (h : a.quiet = true) : RecoverIssues K runtimeID a
  | mark : RecoverIssues K runtimeID (.store (.markRecovering runtimeID))
  | fail {taskID : Uuid} (h : Recovering K runtimeID taskID) (reason : String)
      (details : Option TaskFailureDetails) :
      RecoverIssues K runtimeID (.store (.markFailedWithDetails taskID reason details))
  | dispatch {taskID : Uuid} (h : Recovering K runtimeID taskID) (newRuntimeID endpoint : String) :
      RecoverIssues K runtimeID (.store (.markDispatched taskID newRuntimeID endpoint))
  | go {taskID : Uuid} {tenantID : String} {task runtimeTask : TaskRecord}
      (h : Recovering K runtimeID taskID) (hread : K (.getTask taskID tenantID) (.ok task))
      (hid : runtimeTask.taskID = task.taskID) (cp : Option CheckpointPayload) :
      RecoverIssues K runtimeID (.go (.dispatchToRuntime runtimeTask cp))

/-- The action is about the task, or it is a statement that may be. -/
def concerns (id : Uuid) : Action → Bool
  | .getTask id' _ => decide (id' = id)
  | .getAllCheckpoints id' => decide (id' = id)
  | .call (.hydrateTaskPermissionEnvelope id') => decide (id' = id)
  | .awaitResponse request => decide (request.taskID = id)
  | .store (.markFailedWithDetails id' _ _) => decide (id' = id)
  | .store (.markDispatched id' _ _) => decide (id' = id)
  | .store _ => true
  | _ => false

/-- The action moves tasks to recovering. -/
def marksRecovering : Action → Bool
  | .store (.markRecovering _) => true
  | _ => false

/-- Actions of the round of one task. -/
inductive RoundIssues (K : (a : Action) → Answer a → Prop) (taskID : Uuid) : Action → Prop where
  | quiet {a : Action} (h : a.quiet = true) (hown : ∀ id ≠ taskID, concerns id a = false) :
      RoundIssues K taskID a
  | fail (reason : String) (details : Option TaskFailureDetails) :
      RoundIssues K taskID (.store (.markFailedWithDetails taskID reason details))
  | dispatch (runtimeID endpoint : String) :
      RoundIssues K taskID (.store (.markDispatched taskID runtimeID endpoint))
  | go {tenantID : String} {task runtimeTask : TaskRecord}
      (hread : K (.getTask taskID tenantID) (.ok task)) (hid : runtimeTask.taskID = task.taskID)
      (cp : Option CheckpointPayload) :
      RoundIssues K taskID (.go (.dispatchToRuntime runtimeTask cp))

namespace RoundIssues

variable {a : Action}

theorem recover (h : RoundIssues K taskID a) (hrecovering : Recovering K runtimeID taskID) :
    RecoverIssues K runtimeID a := by
  cases h with
  | quiet h => exact .quiet h
  | fail reason details => exact .fail hrecovering reason details
  | dispatch runtimeID endpoint => exact .dispatch hrecovering runtimeID endpoint
  | go hread hid cp => exact .go hrecovering hread hid cp

theorem unconcerned {id : Uuid} (h : RoundIssues K taskID a) (hne : taskID ≠ id) :
    ¬concerns id a = true := by
  cases h with
  | quiet _ hown => simp [hown id hne.symm]
  | fail | dispatch => simpa [concerns] using hne
  | go => nofun

theorem not_marks (h : RoundIssues K taskID a) : ¬marksRecovering a = true := by
  cases h with
  | quiet h =>
      cases a with
      | store op => cases h
      | _ => nofun
  | fail | dispatch | go => nofun

end RoundIssues

theorem failTask_round (reason operation rejectionType message : String) :
    (failTask taskID reason operation rejectionType message).Issues K (RoundIssues K taskID) :=
  ⟨.fail _ _, fun _ _ => trivial⟩

theorem redispatch_guarded (tenantID : String) (newRuntime : RuntimeInfo)
    (cp : Option CheckpointPayload) :
    (redispatch taskID tenantID newRuntime cp).Issues K (RoundIssues K taskID) := by
  refine ⟨.quiet rfl fun _ hne => decide_eq_false hne.symm, ?_⟩
  intro found hfound
  cases found with
  | error err => trivial
  | ok task =>
      refine ⟨.quiet rfl fun _ hne => decide_eq_false hne.symm, ?_⟩
      intro hydrated _
      cases hydrated with
      | error err => trivial
      | ok _ =>
          refine ⟨.quiet rfl fun _ _ => rfl, ?_⟩
          intro rehydrated _
          cases rehydrated with
          | error message => exact failTask_round _ _ _ _
          | ok definition => exact ⟨.go hfound (by rfl) cp, fun _ _ => trivial⟩

theorem handOff_guarded (tenantID : String) (task : TaskRecord) (cp : Option CheckpointPayload) :
    (handOff taskID tenantID task cp).Issues K (RoundIssues K taskID) := by
  refine ⟨.quiet rfl fun _ _ => rfl, ?_⟩
  intro selected _
  cases selected with
  | error err => exact failTask_round _ _ _ _
  | ok newRuntime =>
      refine ⟨.quiet rfl fun _ _ => rfl, ?_⟩
      intro saved _
      cases saved with
      | error message => exact failTask_round _ _ _ _
      | ok _ =>
          simp only [Prog.bind_ret]
          split
          · exact failTask_round _ _ _ _
          · refine ⟨.dispatch _ _, ?_⟩
            intro dispatched _
            cases dispatched with
            | error err => trivial
            | ok ids => exact redispatch_guarded _ _ _

/-- Everything the round of one task can do. -/
theorem recoverTask_guarded : (recoverTask taskID).Issues K (RoundIssues K taskID) := by
  have hload : (getCumulativeRecoveryCheckpoint taskID).Issues K (RoundIssues K taskID) := by
    refine ⟨.quiet rfl fun _ hne => decide_eq_false hne.symm, ?_⟩
    intro checkpoints _
    cases checkpoints with
    | error err => trivial
    | ok checkpoints =>
        simp only [Prog.bind_ret]
        split <;> trivial
  apply hload.bind
  intro loaded _
  refine ⟨.quiet rfl fun _ _ => rfl, ?_⟩
  intro tenant _
  refine ⟨.quiet rfl fun _ hne => decide_eq_false hne.symm, ?_⟩
  intro found _
  cases found with
  | error err => trivial
  | ok task =>
      refine ⟨.quiet rfl fun _ hne => decide_eq_false hne.symm, ?_⟩
      intro hydrated _
      cases hydrated with
      | error err => trivial
      | ok _ =>
          simp only [Prog.bind_ret]
          split
          · unfold handleRecoverySkip
            split
            · exact failTask_round _ _ _ _
            · trivial
          · split
            · trivial
            · exact failTask_round _ _ _ _
            · exact handOff_guarded _ _ _

theorem recoverTasks_guarded {ids : List Uuid} (h : ∀ id ∈ ids, Recovering K runtimeID id) :
    (recoverTasks ids).Issues K (RecoverIssues K runtimeID) := by
  induction ids with
  | nil => trivial
  | cons id ids ih =>
      have hround : (recoverTask id).Issues K (RecoverIssues K runtimeID) :=
        recoverTask_guarded.widen fun _ ha => ha.recover (h id List.mem_cons_self)
      apply hround.bind
      intro _ _
      exact ih fun id' hid' => h id' (List.mem_cons_of_mem _ hid')

/-- Everything a recovery pass can do. -/
theorem recoverRuntime_guarded (K : (a : Action) → Answer a → Prop) (runtimeID : String) :
    (recoverRuntime runtimeID).Issues K (RecoverIssues K runtimeID) := by
  refine ⟨.mark, ?_⟩
  intro marked hmarked
  cases marked with
  | error err => trivial
  | ok ids => exact recoverTasks_guarded fun id hid => ⟨ids, hmarked, hid⟩

end Guards

end Coordinator
end Igris
