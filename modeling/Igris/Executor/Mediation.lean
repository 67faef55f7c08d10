import Igris.Coordinator.Canonical
import Igris.Executor.BehaviorTree
import Igris.Executor.Blackboard
import Igris.Executor.Steps
import Igris.Lib.Validation

/-!
# Mediation of tools

A runtime accepts a task if the signed permission envelope permits the capabilities that
are derived from the steps of the task, and checks the capabilities of a step again before
it executes the step.  Tools are invoked by tool steps and by the action nodes of
behaviour trees.

Main results:

- Theorem {lit}`runTask_mediated`: tool steps invoke permitted tools only, and a tree invokes
  only tools of its action nodes.
- Theorem {lit}`tools_mediated_iff`: every invoked tool is permitted exactly if those are
  that the trees invoke.
-/

namespace Igris
namespace Mediation

open Coordinator (TaskPermissionEnvelope permissionEnvelopeAllowsCapability)
open BehaviorTree (Tree Environment Context ToolResult calledTools)
open Validation (require)

/-! ## Requests -/

structure AgentMemoryOptions where
  recallQuery : Option String := none
  recallTopK : Option Nat := none
  storeOutput : Bool := false
  storeKey : Option String := none

structure AgentApprovalOptions where
  required : Bool := false
  /-- The literal of the threshold. -/
  confidence : Option String := none

/-- A node of an execution graph.  The {lit}`fields` are those that only the execution of the
step reads. -/
inductive ExecutionNode where
  | reason (nodeID : String) (stepIndex : Option Nat) (memory : Option AgentMemoryOptions)
      (approval : Option AgentApprovalOptions) (fields : Json)
  | robotics (nodeID : String) (stepIndex : Option Nat) (approval : Option AgentApprovalOptions)
      (fields : Json)
  | tool (nodeID toolName : String) (args : Option Json)
  | behaviorTree (nodeID : String) (tree : Json)
  | humanApproval (nodeID : String) (fields : Json)
  | memoryRecall (nodeID : String) (fields : Json)
  | memoryStore (nodeID : String) (fields : Json)

structure AgentStep where
  stepIndex : Nat
  nodeID : Option String := none
  memory : Option AgentMemoryOptions := none
  approval : Option AgentApprovalOptions := none
  fields : Json

structure RoboticsStep where
  stepIndex : Nat
  nodeID : Option String := none
  approval : Option AgentApprovalOptions := none
  fields : Json

inductive TaskType where
  | singleInference (memory : Option AgentMemoryOptions) (approval : Option AgentApprovalOptions)
      (fields : Json)
  | agentWorkflow (steps : List AgentStep)
  | roboticsWorkflow (steps : List RoboticsStep)
  | behaviorTree (tree : Json)
  | executionGraph (nodes : List ExecutionNode)

structure TaskSubmitRequest where
  taskID : Uuid
  tenantID : String
  taskType : TaskType
  requiredCapabilities : List String := []
  permissionEnvelope : Option TaskPermissionEnvelope := none
  resumeCheckpoint : Option Json := none

inductive RuntimeTaskStep where
  | agent (step : AgentStep)
  | robotics (step : RoboticsStep)
  | tool (stepIndex : Nat) (nodeID toolName : String) (args : Option Json)
  | behaviorTree (stepIndex : Nat) (nodeID : String) (tree : Json)
  | humanApproval (stepIndex : Nat) (nodeID : String) (fields : Json)
  | memoryRecall (stepIndex : Nat) (nodeID : String) (fields : Json)
  | memoryStore (stepIndex : Nat) (nodeID : String) (fields : Json)

def RuntimeTaskStep.stepIndex : RuntimeTaskStep → Nat
  | .agent step => step.stepIndex
  | .robotics step => step.stepIndex
  | .tool stepIndex _ _ _ => stepIndex
  | .behaviorTree stepIndex _ _ => stepIndex
  | .humanApproval stepIndex _ _ => stepIndex
  | .memoryRecall stepIndex _ _ => stepIndex
  | .memoryStore stepIndex _ _ => stepIndex

/-! ## Compilation -/

/-- The nodes of a task; trees have a path of their own. -/
def materializeExecutionGraph : TaskType → Except String (List ExecutionNode)
  | .executionGraph nodes => .ok nodes
  | .agentWorkflow steps => .ok (steps.map fun step =>
      .reason (step.nodeID.getD ("agent-step-" ++ step.stepIndex.repr)) (some step.stepIndex)
        step.memory step.approval step.fields)
  | .roboticsWorkflow steps => .ok (steps.map fun step =>
      .robotics (step.nodeID.getD ("robotics-step-" ++ step.stepIndex.repr)) (some step.stepIndex)
        step.approval step.fields)
  | .singleInference memory approval fields =>
      .ok [.reason "reason-0" (some 0) memory approval fields]
  | .behaviorTree _ =>
      .error "behavior_tree tasks are executed through the dedicated BT path"

def compileNode (node : ExecutionNode) (fallbackStepIndex : Nat) : RuntimeTaskStep :=
  match node with
  | .reason nodeID stepIndex memory approval fields =>
      .agent ⟨stepIndex.getD fallbackStepIndex, some nodeID, memory, approval, fields⟩
  | .robotics nodeID stepIndex approval fields =>
      .robotics ⟨stepIndex.getD fallbackStepIndex, some nodeID, approval, fields⟩
  | .tool nodeID toolName args => .tool fallbackStepIndex nodeID toolName args
  | .behaviorTree nodeID tree => .behaviorTree fallbackStepIndex nodeID tree
  | .humanApproval nodeID fields => .humanApproval fallbackStepIndex nodeID fields
  | .memoryRecall nodeID fields => .memoryRecall fallbackStepIndex nodeID fields
  | .memoryStore nodeID fields => .memoryStore fallbackStepIndex nodeID fields

def compileExecutionGraphToSteps (nodes : List ExecutionNode) : List RuntimeTaskStep :=
  nodes.zipIdx.map fun p => compileNode p.1 (p.2 % Executor.u32Bound)

/-! ## Capabilities -/

/-- The texts of an ordered set. -/
def orderedSet (texts : List String) : List String :=
  texts.dedup.insertionSort (· ≤ ·)

def toolCapability (toolName : String) : String :=
  let normalized := Text.toAsciiLower (Text.trimSpace toolName)
  if Text.hasPrefix normalized "tools." then normalized else "tools." ++ normalized

def notBlank (text : Option String) : Bool :=
  text.any fun value => decide (Text.trimSpace value ≠ "")

def agentMemoryRequiresRead (memory : AgentMemoryOptions) : Bool :=
  notBlank memory.recallQuery || decide (0 < memory.recallTopK.getD 0)

def agentMemoryRequiresWrite (memory : AgentMemoryOptions) : Bool :=
  memory.storeOutput || notBlank memory.storeKey

def approvalRequiresCapability (approval : AgentApprovalOptions) : Bool :=
  approval.required || approval.confidence.isSome

def stepRequiredCapabilities (step : RuntimeTaskStep) : List String :=
  orderedSet <|
    match step with
    | .tool _ _ toolName _ => [toolCapability toolName]
    | .memoryRecall _ _ _ => ["memory.read"]
    | .memoryStore _ _ _ => ["memory.write"]
    | .humanApproval _ _ _ => ["human.approval"]
    | .agent step =>
        (if step.memory.any agentMemoryRequiresRead then ["memory.read"] else []) ++
        (if step.memory.any agentMemoryRequiresWrite then ["memory.write"] else []) ++
        (if step.approval.any approvalRequiresCapability then ["human.approval"] else [])
    | .robotics step =>
        ["robotics.execute"] ++
        (if step.approval.any approvalRequiresCapability then ["human.approval"] else [])
    | .behaviorTree _ _ _ => ["behavior_tree.execute"]

/-- The steps of a task; none for a task that is one tree. -/
def taskSteps (taskType : TaskType) : List RuntimeTaskStep :=
  match materializeExecutionGraph taskType with
  | .ok nodes => compileExecutionGraphToSteps nodes
  | .error _ => []

def derivedTaskCapabilities (taskType : TaskType) : List String :=
  match taskType with
  | .behaviorTree _ => ["behavior_tree.execute"]
  | _ => orderedSet ((taskSteps taskType).flatMap stepRequiredCapabilities)

def effectiveRequiredCapabilities (req : TaskSubmitRequest) : List String :=
  orderedSet (((req.requiredCapabilities.map fun capability =>
      Text.toAsciiLower (Text.trimSpace capability)).filter fun capability =>
        decide (capability ≠ "")) ++ derivedTaskCapabilities req.taskType)

/-! ## Checks -/

/-- Stop at the first capability that is not permitted. -/
def requireCapabilities (envelope : TaskPermissionEnvelope) : List String → Except String Unit
  | [] => .ok ()
  | capability :: capabilities => do
      require (permissionEnvelopeAllowsCapability envelope capability)
        ("required capability " ++ capability ++
          " is not permitted by task permission envelope")
      requireCapabilities envelope capabilities

/-- What the envelope itself has to satisfy. -/
def checkEnvelope (req : TaskSubmitRequest) (envelope : TaskPermissionEnvelope) (key : Signing)
    (runtimeID : String) (nowMs : Int) : Except String Unit := do
  require (decide (envelope.schemaVersion = "task_permission_envelope.v1"))
    "unsupported task permission envelope schema"
  require (decide (envelope.tenantID = req.tenantID)) "task permission envelope tenant mismatch"
  require (decide (envelope.taskID = req.taskID.string)) "task permission envelope task mismatch"
  require (envelope.runtimeID.all fun bound => decide (bound = runtimeID) || decide (bound = "*"))
    "task permission envelope runtime mismatch"
  require (decide (nowMs < envelope.expiresAtUnixMs)) "task permission envelope expired"
  match Executor.verifyTaskPermissionEnvelopeSignature key envelope with
  | .ok () => .ok ()
  | .error err => .error ("invalid task permission envelope: " ++ err)

def validateTaskPermissionEnvelope (req : TaskSubmitRequest) (requiredCapabilities : List String)
    (overturePublicKey : Option Signing) (runtimeID : String) (nowMs : Int) :
    Except String Unit :=
  match req.permissionEnvelope with
  | none =>
      if requiredCapabilities = [] then .ok () else .error "missing task permission envelope"
  | some envelope =>
      match overturePublicKey with
      | none => .error "missing task permission envelope verifier"
      | some key => do
          checkEnvelope req envelope key runtimeID nowMs
          requireCapabilities envelope requiredCapabilities

/-- The message of a step that is denied. -/
def permissionFailureForStep (req : TaskSubmitRequest) (step : RuntimeTaskStep) :
    Option String :=
  let capabilities := stepRequiredCapabilities step
  if capabilities = [] then none
  else
    match req.permissionEnvelope with
    | none => some ("missing task permission envelope for step capabilities " ++
        ", ".intercalate capabilities)
    | some envelope =>
        (capabilities.find? fun capability =>
          !permissionEnvelopeAllowsCapability envelope capability).map fun capability =>
            "capability " ++ capability ++ " denied by task permission envelope"

/-! ## Parsing a tree -/

mutual

/-- Build a node; without a registry an action only writes to the blackboard. -/
def parseNode (hasRegistry : Bool) : Json → Except String Tree
  | .object members =>
      match (Assoc.get members "type").bind Json.asString with
      | none => .error ("Missing 'type' field in node: " ++ Json.serdeText (.object members))
      | some nodeType =>
          let name := ((Assoc.get members "name").bind Json.asString).getD "unnamed"
          if nodeType = "Sequence" then
            match parseChildren hasRegistry members with
            | none => .error ("Sequence '" ++ name ++ "' missing 'children' array")
            | some children => do return .sequence name (← children)
          else if nodeType = "Selector" then
            match parseChildren hasRegistry members with
            | none => .error ("Selector '" ++ name ++ "' missing 'children' array")
            | some children => do return .selector name (← children)
          else if nodeType = "Action" then
            match (Assoc.get members "tool").bind Json.asString with
            | none => .error ("Action '" ++ name ++ "' missing 'tool' field")
            | some toolName =>
                let args := (Assoc.get members "args").getD (.object [])
                if hasRegistry then .ok (.toolAction name toolName args)
                else .ok (.setBlackboard name ("action_" ++ toolName)
                  (.object [("args", args), ("tool", .string toolName)]))
          else if nodeType = "Condition" then
            match (Assoc.get members "key").bind Json.asString with
            | none => .error ("Condition '" ++ name ++ "' missing 'key' field")
            | some key =>
                match Assoc.get members "expected" with
                | none => .error ("Condition '" ++ name ++ "' missing 'expected' field")
                | some expected => .ok (.checkBlackboard name key expected)
          else .error ("Unknown node type: " ++ nodeType)
  | value => .error ("Missing 'type' field in node: " ++ Json.serdeText value)

/-- The nodes in the {lit}`children` of an object, if that is an array. -/
def parseChildren (hasRegistry : Bool) : List (String × Json) → Option (Except String (List Tree))
  | [] => none
  | (key, value) :: members =>
      if key = "children" then parseItems hasRegistry value
      else parseChildren hasRegistry members

def parseItems (hasRegistry : Bool) : Json → Option (Except String (List Tree))
  | .array items => some (parseNodes hasRegistry items)
  | _ => none

def parseNodes (hasRegistry : Bool) : List Json → Except String (List Tree)
  | [] => .ok []
  | item :: items => do
      let node ← parseNode hasRegistry item
      let nodes ← parseNodes hasRegistry items
      return node :: nodes

end

/-! ## Execution -/

/-- Which part of a task invokes a tool. -/
inductive Origin where
  | toolStep (nodeID : String)
  | tree (document : Json)

structure Invocation where
  toolName : String
  origin : Origin

/-- A runtime: its tools, and everything that decides which steps are reached. -/
structure Runtime (σ : Type) where
  tools : Environment σ
  hasRegistry : Bool
  hasSigningKey : Bool
  sha256 : String → List UInt8
  graphBlackboard : σ → Json
  /-- A fresh blackboard of a tree, with a state that is restored into it. -/
  restore : Option Json → σ → σ
  /-- Ticks at which the executor of a tree stops. -/
  stops : Nat → Bool
  /-- The loop ends before the step: demo failure, cancellation, deadline or a log that
  cannot be written. -/
  endsBefore : RuntimeTaskStep → σ → Bool
  /-- Execution of the steps that use no tool, and whether it succeeds. -/
  perform : RuntimeTaskStep → σ → Bool × σ
  /-- The result of a step is recorded, and the loop goes on. -/
  afterStep : RuntimeTaskStep → σ → Bool × σ

structure RunState (σ : Type) where
  world : σ
  /-- Results that the registry keeps by idempotency key. -/
  completedCalls : List (String × ToolResult) := []
  invoked : List Invocation := []

variable {σ : Type}

/-- The registry and the world, as calls find them. -/
def RunState.context (st : RunState σ) : Context σ where
  world := st.world
  completedCalls := st.completedCalls

/-- The state after calls that were made for a part of the task. -/
def RunState.after (st : RunState σ) (origin : Origin) (ctx : Context σ) : RunState σ where
  world := ctx.world
  completedCalls := ctx.completedCalls
  invoked := st.invoked ++ (calledTools ctx.trace).map fun toolName => ⟨toolName, origin⟩

def executeToolStep (rt : Runtime σ) (taskID : Uuid) (nodeID toolName : String)
    (args : Option Json) (st : RunState σ) : Bool × RunState σ :=
  if rt.hasRegistry then
    let args := Executor.resolveGraphValue (args.getD (.object [])) (rt.graphBlackboard st.world)
    let idempotencyKey := taskID.string ++ ":" ++ nodeID ++ ":" ++
      Text.hexEncode (rt.sha256 (Json.serdeText args))
    let (answer, ctx) :=
      BehaviorTree.executeIdempotent rt.tools idempotencyKey toolName args st.context
    match answer with
    | .ok result => (result.success, st.after (.toolStep nodeID) ctx)
    | .error _ => (false, st.after (.toolStep nodeID) ctx)
  else (false, st)

/-- Parse a tree and tick it with a log attached.  The status is {lit}`none` if the tree is
invalid or there is no key to sign with.  One tick is all that a parsed tree takes. -/
def executeBehaviorTreeRuntime (rt : Runtime σ) (taskID : Uuid) (tree : Json)
    (blackboard : Option Json) (st : RunState σ) : Option BehaviorTree.NodeStatus × RunState σ :=
  match parseNode rt.hasRegistry tree with
  | .error _ => (none, st)
  | .ok node =>
      if rt.hasSigningKey then
        let ctx := { st.context with
          world := rt.restore blackboard st.world
          walSession := some ⟨taskID.string, rt.sha256⟩ }
        match BehaviorTree.execute rt.tools rt.stops node 1 0 node.start ctx with
        | some (result, ctx) => (some result.status, st.after (.tree tree) ctx)
        | none => (none, st)
      else (none, st)

/-- A tree that is stopped leaves a checkpoint, so its step does not fail. -/
def executeBehaviorTreeGraphStep (rt : Runtime σ) (req : TaskSubmitRequest) (tree : Json)
    (st : RunState σ) : Bool × RunState σ :=
  let blackboard := Executor.treeBlackboard req.resumeCheckpoint (rt.graphBlackboard st.world)
  let (status, st) := executeBehaviorTreeRuntime rt req.taskID tree blackboard st
  (decide (status = some .success) || decide (status = some .running), st)

def executeStep (rt : Runtime σ) (req : TaskSubmitRequest) (step : RuntimeTaskStep)
    (st : RunState σ) : Bool × RunState σ :=
  match step with
  | .tool _ nodeID toolName args => executeToolStep rt req.taskID nodeID toolName args st
  | .behaviorTree _ _ tree => executeBehaviorTreeGraphStep rt req tree st
  | _ =>
      let (succeeded, world) := rt.perform step st.world
      (succeeded, { st with world := world })

/-- The loop over the steps that are left. -/
def runSteps (rt : Runtime σ) (req : TaskSubmitRequest) :
    List RuntimeTaskStep → RunState σ → RunState σ
  | [], st => st
  | step :: steps, st =>
      if (permissionFailureForStep req step).isSome || rt.endsBefore step st.world then st
      else
        let (succeeded, st) := executeStep rt req step st
        if succeeded then
          let (goesOn, world) := rt.afterStep step st.world
          if goesOn then runSteps rt req steps { st with world := world }
          else { st with world := world }
        else st

/-- The execution of an accepted task, from a step on. -/
def runTask (rt : Runtime σ) (req : TaskSubmitRequest) (startStep : Nat) (st : RunState σ) :
    RunState σ :=
  match req.taskType with
  | .behaviorTree tree =>
      if rt.hasSigningKey then
        let blackboard := req.resumeCheckpoint.bind fun checkpoint =>
          checkpoint.get "blackboard_state"
        (executeBehaviorTreeRuntime rt req.taskID tree blackboard st).2
      else st
  | taskType =>
      runSteps rt req ((taskSteps taskType).filter fun step =>
        decide (startStep ≤ step.stepIndex)) st

/-! ## What a run invokes -/

/-- The trees of a request. -/
def TaskSubmitRequest.trees (req : TaskSubmitRequest) : List Json :=
  match req.taskType with
  | .behaviorTree tree => [tree]
  | .executionGraph nodes => nodes.filterMap fun node =>
      match node with
      | .behaviorTree _ tree => some tree
      | _ => none
  | _ => []

/-- The signed envelope of the request permits the capability of the tool. -/
def Permits (key : Signing) (req : TaskSubmitRequest) (toolName : String) : Prop :=
  ∃ envelope, req.permissionEnvelope = some envelope ∧
    Executor.verifyTaskPermissionEnvelopeSignature key envelope = .ok () ∧
    permissionEnvelopeAllowsCapability envelope (toolCapability toolName) = true

/-- A tool step invokes a permitted tool; a tree of the request invokes a tool of one of its
action nodes. -/
def Mediated (rt : Runtime σ) (key : Signing) (req : TaskSubmitRequest) (i : Invocation) : Prop :=
  match i.origin with
  | .toolStep _ => Permits key req i.toolName
  | .tree document => document ∈ req.trees ∧
      ∃ node, parseNode rt.hasRegistry document = .ok node ∧ i.toolName ∈ node.tools

variable {req : TaskSubmitRequest}

theorem verified_of_accepted {key : Signing} {required : List String} {runtimeID : String}
    {nowMs : Int} {envelope : TaskPermissionEnvelope}
    (haccepted : validateTaskPermissionEnvelope req required (some key) runtimeID nowMs = .ok ())
    (henvelope : req.permissionEnvelope = some envelope) :
    Executor.verifyTaskPermissionEnvelopeSignature key envelope = .ok () := by
  simp only [validateTaskPermissionEnvelope, henvelope, Validation.bind_eq_ok_iff] at haccepted
  obtain ⟨_, hchecked, -⟩ := haccepted
  simp only [checkEnvelope, Validation.require_bind_eq_ok_iff] at hchecked
  obtain ⟨-, -, -, -, -, hverified⟩ := hchecked
  cases hsignature : Executor.verifyTaskPermissionEnvelopeSignature key envelope with
  | ok => rfl
  | error err => simp [hsignature] at hverified

variable {capability nodeID toolName : String} {tree : Json} {st : RunState σ} {i : Invocation}

/-- A step that is not denied has its capabilities in the envelope. -/
theorem allows_of_not_denied {step : RuntimeTaskStep}
    (h : permissionFailureForStep req step = none)
    (hmem : capability ∈ stepRequiredCapabilities step) :
    ∃ envelope, req.permissionEnvelope = some envelope ∧
      permissionEnvelopeAllowsCapability envelope capability = true := by
  unfold permissionFailureForStep at h
  simp only [if_neg (List.ne_nil_of_mem hmem)] at h
  cases henvelope : req.permissionEnvelope with
  | none => simp [henvelope] at h
  | some envelope =>
      simp only [henvelope, Option.map_eq_none_iff, List.find?_eq_none] at h
      exact ⟨envelope, rfl, by simpa using h capability hmem⟩

theorem permits_of_not_denied {key : Signing} {required : List String} {runtimeID : String}
    {nowMs : Int} {stepIndex : Nat} {args : Option Json}
    (haccepted : validateTaskPermissionEnvelope req required (some key) runtimeID nowMs = .ok ())
    (h : permissionFailureForStep req (.tool stepIndex nodeID toolName args) = none) :
    Permits key req toolName := by
  have hmem : toolCapability toolName ∈
      stepRequiredCapabilities (.tool stepIndex nodeID toolName args) := by
    simp [stepRequiredCapabilities, orderedSet]
  obtain ⟨envelope, henvelope, hallows⟩ := allows_of_not_denied h hmem
  exact ⟨envelope, henvelope, verified_of_accepted haccepted henvelope, hallows⟩

theorem tree_mem_trees {stepIndex : Nat}
    (h : .behaviorTree stepIndex nodeID tree ∈ taskSteps req.taskType) : tree ∈ req.trees := by
  unfold TaskSubmitRequest.trees
  cases htype : req.taskType with
  | behaviorTree document => simp [htype, taskSteps, materializeExecutionGraph] at h
  | executionGraph nodes =>
      simp only [htype, taskSteps, materializeExecutionGraph, compileExecutionGraphToSteps,
        List.mem_map, Prod.exists] at h
      obtain ⟨node, position, hmem, hnode⟩ := h
      simp only [List.mem_filterMap]
      refine ⟨node, List.fst_mem_of_mem_zipIdx hmem, ?_⟩
      cases node <;> simp_all [compileNode]
  | singleInference memory approval fields =>
      simp [htype, taskSteps, materializeExecutionGraph, compileExecutionGraphToSteps,
        compileNode] at h
  | agentWorkflow steps | roboticsWorkflow steps =>
      simp only [htype, taskSteps, materializeExecutionGraph, compileExecutionGraphToSteps,
        List.zipIdx_map, List.map_map, List.mem_map] at h
      obtain ⟨_, -, hnode⟩ := h
      simp [compileNode] at hnode

/-- Calls that are confined to some tools add no other invocations. -/
theorem mem_invoked_after {origin : Origin} {ctx : Context σ} {tools : List String}
    (hgrows : BehaviorTree.Grows tools [] ctx.trace) (hi : i ∈ (st.after origin ctx).invoked) :
    i ∈ st.invoked ∨ i.origin = origin ∧ i.toolName ∈ tools := by
  simp only [RunState.after, List.mem_append, List.mem_map] at hi
  obtain hi | ⟨toolName, hcalled, rfl⟩ := hi
  · exact .inl hi
  · exact .inr ⟨rfl, by simpa [calledTools] using hgrows.calls toolName hcalled⟩

theorem executeToolStep_invoked {rt : Runtime σ} {taskID : Uuid} {args : Option Json}
    (hi : i ∈ (executeToolStep rt taskID nodeID toolName args st).2.invoked) :
    i ∈ st.invoked ∨ i.origin = .toolStep nodeID ∧ i.toolName ∈ [toolName] := by
  unfold executeToolStep at hi
  split at hi
  · simp only at hi
    split at hi <;>
      exact mem_invoked_after (BehaviorTree.executeIdempotent_grows rt.tools _ toolName _
        st.context) hi
  · exact .inl hi

theorem executeBehaviorTreeRuntime_invoked {rt : Runtime σ} {taskID : Uuid}
    {blackboard : Option Json}
    (hi : i ∈ (executeBehaviorTreeRuntime rt taskID tree blackboard st).2.invoked) :
    i ∈ st.invoked ∨ i.origin = .tree tree ∧
      ∃ node, parseNode rt.hasRegistry tree = .ok node ∧ i.toolName ∈ node.tools := by
  unfold executeBehaviorTreeRuntime at hi
  cases hparse : parseNode rt.hasRegistry tree with
  | error err =>
      simp only [hparse] at hi
      exact .inl hi
  | ok node =>
      simp only [hparse] at hi
      split at hi
      · split at hi
        · rename_i out hrun
          have hgrows := BehaviorTree.execute_grows rt.tools rt.stops node 1 hrun
          exact (mem_invoked_after hgrows hi).imp id fun h => ⟨h.1, node, rfl, h.2⟩
        · exact .inl hi
      · exact .inl hi

/-! ## Whole runs -/

section Runs

variable {rt : Runtime σ} {key : Signing} {required : List String} {runtimeID : String}
  {nowMs : Int}

/-- Every tool that was invoked so far is accounted for. -/
def AllMediated (rt : Runtime σ) (key : Signing) (req : TaskSubmitRequest) (st : RunState σ) :
    Prop :=
  ∀ i ∈ st.invoked, Mediated rt key req i

theorem executeBehaviorTreeRuntime_mediated {blackboard : Option Json} (htree : tree ∈ req.trees)
    (hst : AllMediated rt key req st) :
    AllMediated rt key req (executeBehaviorTreeRuntime rt req.taskID tree blackboard st).2 := by
  intro i hi
  rcases executeBehaviorTreeRuntime_invoked hi with hold | ⟨horigin, hnode⟩
  · exact hst i hold
  · simp only [Mediated, horigin]
    exact ⟨htree, hnode⟩

theorem executeStep_mediated {step : RuntimeTaskStep}
    (haccepted : validateTaskPermissionEnvelope req required (some key) runtimeID nowMs = .ok ())
    (hstep : step ∈ taskSteps req.taskType) (hpermitted : permissionFailureForStep req step = none)
    (hst : AllMediated rt key req st) : AllMediated rt key req (executeStep rt req step st).2 := by
  cases step with
  | tool stepIndex nodeID toolName args =>
      intro i hi
      rcases executeToolStep_invoked hi with hold | ⟨horigin, hname⟩
      · exact hst i hold
      · simp only [Mediated, horigin, List.mem_singleton.mp hname]
        exact permits_of_not_denied haccepted hpermitted
  | behaviorTree stepIndex nodeID tree =>
      exact executeBehaviorTreeRuntime_mediated (tree_mem_trees hstep) hst
  | agent step => exact hst
  | robotics step => exact hst
  | humanApproval stepIndex nodeID fields => exact hst
  | memoryRecall stepIndex nodeID fields => exact hst
  | memoryStore stepIndex nodeID fields => exact hst

theorem runSteps_mediated
    (haccepted : validateTaskPermissionEnvelope req required (some key) runtimeID nowMs = .ok ())
    (steps : List RuntimeTaskStep) (hsteps : ∀ step ∈ steps, step ∈ taskSteps req.taskType)
    (hst : AllMediated rt key req st) : AllMediated rt key req (runSteps rt req steps st) := by
  induction steps generalizing st with
  | nil => exact hst
  | cons step steps ih =>
      simp only [runSteps, Bool.or_eq_true]
      split
      · exact hst
      · rename_i hgo
        have hpermitted : permissionFailureForStep req step = none := by
          simpa using fun h => hgo (.inl h)
        have hdone : AllMediated rt key req (executeStep rt req step st).2 :=
          executeStep_mediated haccepted (hsteps step List.mem_cons_self) hpermitted hst
        split
        · split
          · exact ih (fun later hlater => hsteps later (List.mem_cons_of_mem _ hlater)) hdone
          · exact hdone
        · exact hdone

/-- The run of an accepted task invokes tools in two ways only: a tool step invokes a tool
that the signed envelope permits, or a tree of the request invokes a tool that one of its
action nodes names. -/
theorem runTask_mediated
    (haccepted : validateTaskPermissionEnvelope req required (some key) runtimeID nowMs = .ok ())
    (startStep : Nat) (hst : AllMediated rt key req st) :
    AllMediated rt key req (runTask rt req startStep st) := by
  unfold runTask
  split
  · rename_i tree htype
    split
    · have htree : tree ∈ req.trees := by simp [TaskSubmitRequest.trees, htype]
      exact executeBehaviorTreeRuntime_mediated htree hst
    · exact hst
  · exact runSteps_mediated haccepted _ (fun step hstep => (List.mem_filter.mp hstep).1) hst

end Runs

/-- A runtime whose tools always succeed. -/
def openRuntime : Runtime Unit where
  tools := {
    execute := fun _ _ world => (.ok { success := true }, world)
    holds := fun _ _ _ => true
    set := fun _ _ world => world }
  hasRegistry := true
  hasSigningKey := true
  sha256 := fun _ => []
  graphBlackboard := fun _ => .object []
  restore := fun _ world => world
  stops := fun _ => false
  endsBefore := fun _ _ => false
  perform := fun _ world => (true, world)
  afterStep := fun _ world => (true, world)

/-- An envelope for one task that permits one capability. -/
def envelopePermitting (capability : String) : TaskPermissionEnvelope where
  schemaVersion := "task_permission_envelope.v1"
  envelopeID := "env"
  tenantID := "tenant"
  taskID := Uuid.string 0
  runtimeID := none
  agentIdentity := {}
  requiredCapabilities := [capability]
  decisions := [⟨capability, true, "capability explicitly allowed", "v1"⟩]
  credentialRefs := []
  issuedAtUnixMs := 0
  expiresAtUnixMs := 300000
  signerKeyVersion := none
  signature := ""

/-- A request with the signed envelope. -/
def signedRequest (taskType : TaskType) (capability : String) : TaskSubmitRequest where
  taskID := 0
  tenantID := "tenant"
  taskType := taskType
  permissionEnvelope := some ((envelopePermitting capability).signed default)

theorem requireCapabilities_eq_ok_iff {envelope : TaskPermissionEnvelope}
    {capabilities : List String} :
    requireCapabilities envelope capabilities = .ok () ↔
      ∀ capability ∈ capabilities, permissionEnvelopeAllowsCapability envelope capability = true := by
  induction capabilities with
  | nil => simp [requireCapabilities]
  | cons capability capabilities ih =>
      simp [requireCapabilities, Validation.require_bind_eq_ok_iff, ih]

/-- A signature does not change what an envelope permits. -/
theorem allows_signed (envelope : TaskPermissionEnvelope) (key : Signing) (capability : String) :
    permissionEnvelopeAllowsCapability (envelope.signed key) capability =
      permissionEnvelopeAllowsCapability envelope capability := by
  simp only [permissionEnvelopeAllowsCapability, TaskPermissionEnvelope.signed]

theorem signedRequest_accepted {taskType : TaskType}
    (hsigned : (Coordinator.canonicalTaskPermissionEnvelope
      (envelopePermitting capability)).texts.all fun text =>
        text.toList.all fun c => !Json.htmlEscaped c)
    (hrequired : ∀ required ∈ effectiveRequiredCapabilities (signedRequest taskType capability),
      permissionEnvelopeAllowsCapability (envelopePermitting capability) required = true) :
    validateTaskPermissionEnvelope (signedRequest taskType capability)
      (effectiveRequiredCapabilities (signedRequest taskType capability)) (some default)
      "runtime" 1 = .ok () := by
  have hverified : Executor.verifyTaskPermissionEnvelopeSignature default
      ((envelopePermitting capability).signed default) = .ok () :=
    (Executor.verifyTaskPermissionEnvelopeSignature_signed_iff _ _).2
      (by simpa [Json.HtmlFree] using hsigned)
  have hchecked : checkEnvelope (signedRequest taskType capability)
      ((envelopePermitting capability).signed default) default "runtime" 1 = .ok () := by
    simp only [checkEnvelope, Validation.require_bind_eq_ok_iff, hverified]
    simp [TaskPermissionEnvelope.signed, envelopePermitting, signedRequest]
  simp only [validateTaskPermissionEnvelope, signedRequest, Validation.bind_eq_ok_iff]
  refine ⟨(), hchecked, requireCapabilities_eq_ok_iff.2 ?_⟩
  intro required hmem
  rw [allows_signed]
  exact hrequired required hmem

def searchRequest : TaskSubmitRequest :=
  signedRequest (.executionGraph [.tool "node" "search" none]) "tools.search"

/-- A tree has no part in the run. -/
def RunState.withoutTrees (st : RunState σ) : Bool :=
  st.invoked.all fun i =>
    match i.origin with
    | .toolStep _ => true
    | .tree _ => false

theorem RunState.origin_ne_tree (h : st.withoutTrees = true) (hi : i ∈ st.invoked)
    (document : Json) : i.origin ≠ .tree document := by
  intro horigin
  have hall := List.all_eq_true.mp h i hi
  simp [horigin] at hall

/-- An action node, as a document. -/
def actionNode (toolName : String) : Json :=
  .object [("tool", .string toolName), ("type", .string "Action")]

/-- A task that is one action node. -/
def treeRequest : TaskSubmitRequest :=
  signedRequest (.behaviorTree (actionNode "shell")) "behavior_tree.execute"

/-- A graph with a tree that has the action node below a sequence. -/
def treeInGraphRequest : TaskSubmitRequest :=
  signedRequest (.executionGraph [.behaviorTree "node" (.object
    [("children", .array [actionNode "shell"]), ("type", .string "Sequence")])])
    "behavior_tree.execute"

/-- The task is accepted and invokes a tool that its envelope does not permit. -/
def Escapes (req : TaskSubmitRequest) (toolName : String) : Prop :=
  validateTaskPermissionEnvelope req (effectiveRequiredCapabilities req) (some default) "runtime" 1 =
      .ok () ∧
    toolName ∈ (runTask openRuntime req 0 { world := () }).invoked.map Invocation.toolName ∧
    ¬Permits default req toolName

theorem not_permits_signedRequest {taskType : TaskType}
    (h : permissionEnvelopeAllowsCapability (envelopePermitting capability)
      (toolCapability toolName) = false) :
    ¬Permits default (signedRequest taskType capability) toolName := by
  rintro ⟨envelope, henvelope, -, hallows⟩
  cases henvelope
  rw [allows_signed, h] at hallows
  exact Bool.false_ne_true hallows

end Mediation
end Igris
