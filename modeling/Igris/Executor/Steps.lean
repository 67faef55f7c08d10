import Igris.System.Action

/-!
# Steps of a task

A runtime compiles a task definition into a list of steps and walks through it.
This file has the compilation and the rules that decide when a checkpoint is due.
Counters are 32-bit.
-/

namespace Igris
namespace Executor

/-- Number of values of a {lit}`u32`. -/
def u32Bound : Nat := 2 ^ 32

/-- The numbers of a definition fit their fields. -/
def definitionDecodes (definition : TaskDefinition) : Bool :=
  (definition.graphNodes ++ definition.steps).all
      (fun node => node.stepIndex.all fun i => decide (i < u32Bound)) &&
    definition.checkpointAfterSteps.all (fun n => decide (n < u32Bound)) &&
    definition.localDemoFailure.all fun failure => decide (failure.afterSteps < u32Bound)

/-- The request decodes: every number fits its field. -/
def requestDecodes (req : RuntimeTaskRequest) : Bool :=
  definitionDecodes req.taskDefinition &&
    req.resumeFrom.all fun token => decide (token.lastCommittedStep < u32Bound)

/-- The nodes of a task; {lit}`none` for behavior trees, which have no step loop. -/
def materializeExecutionGraph (definition : TaskDefinition) : Option (List GraphNode) :=
  match definition.taskType with
  | .executionGraph => some definition.graphNodes
  | .agentWorkflow => some definition.steps
  | .roboticsWorkflow => some definition.steps
  | .singleInference => some [{
      kind := .reason, nodeID := "reason-0", stepIndex := some 0, text := definition.text }]
  | .behaviorTree => none

/-- Reasoning and robotics nodes may name their own step; all others take their position. -/
def nodeStepIndex (node : GraphNode) (position : Nat) : Nat :=
  match node.kind with
  | .reason | .robotics => node.stepIndex.getD (position % u32Bound)
  | _ => position % u32Bound

def compileExecutionGraphToSteps (nodes : List GraphNode) : List RuntimeTaskStep :=
  nodes.zipIdx.map fun p => ⟨nodeStepIndex p.1 p.2, p.1⟩

def shouldCheckpointAfterSteps (definition : TaskDefinition)
    (startStep stepsCompleted stepsTotal : Nat) : Bool :=
  match definition.taskType, definition.checkpointAfterSteps with
  | .agentWorkflow, some n | .executionGraph, some n =>
      if n = 0 then false
      else if stepsCompleted ≤ startStep ∨ stepsTotal ≤ stepsCompleted then false
      else if startStep < n ∧ n ≤ stepsCompleted then true
      else decide (1 < n) && decide (stepsCompleted % n = 0)
  | _, _ => false

def continueAfterCheckpoint (definition : TaskDefinition) : Bool :=
  decide (definition.taskType = .executionGraph) && definition.continueAfterCheckpoint

/-- The reason of a demo failure that is due. -/
def localDemoFailureReason (enabled : Bool) (definition : TaskDefinition) (stepsCompleted : Nat) :
    Option String :=
  if !enabled then none
  else
    match definition.taskType, definition.localDemoFailure with
    | .executionGraph, some failure =>
        if stepsCompleted < failure.afterSteps then none
        else
          let reason := Text.trimSpace (failure.reason.getD "")
          some (if reason = "" then "local demo deterministic failure" else reason)
    | _, _ => none

/-! ## Resuming -/

/-- The step at which a request asks to start. -/
def resumePoint (req : RuntimeTaskRequest) : Nat :=
  match req.resumeFrom with
  | none => 0
  | some token => (token.lastCommittedStep + 1) % u32Bound

def verifiedResumeStartStep (token : ResumeToken) (localLastCommittedStep : Option Nat)
    (localCheckpointDigest : String) : Option Nat :=
  if localCheckpointDigest ≠ token.checkpointDigest then none
  else if localLastCommittedStep.getD 0 ≠ token.lastCommittedStep then none
  else some ((token.lastCommittedStep + 1) % u32Bound)

/-- The fields of a checkpoint sent along agree with the token.  The digest over the
entries is checked by {lit}`walValidateExternal`. -/
def externalCheckpointMatches (taskID : Uuid) (token : ResumeToken) (cp : CheckpointPayload) :
    Bool :=
  let committed := cp.walEntries.filter WalEntry.committed
  decide (cp.taskID = taskID) &&
    decide (cp.resumeToken.lastCommittedStep = token.lastCommittedStep) &&
    decide (cp.resumeToken.checkpointDigest = token.checkpointDigest) &&
    !cp.walEntries.isEmpty &&
    committed.all (fun entry => decide (entry.taskID = taskID)) &&
    decide (((committed.filter fun entry => entry.outputDigest.isSome).map
      WalEntry.stepIndex).max? = some token.lastCommittedStep)

end Executor
end Igris
