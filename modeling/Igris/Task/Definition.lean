import Igris.Lib.Text

/-!
# Task definitions

A task definition is a JSON document.  The coordinator classifies it partly by
searching its text and partly by decoding it, and the runtime decodes it into an
execution graph, so the model keeps the text next to the decoded fields.
-/

namespace Igris

/-- Task, entry and binding identifiers. -/
abbrev Uuid := BitVec 128

/-- The all-zero identifier that stands for "not set". -/
def Uuid.nil : Uuid := 0

/-- The identifier as text: five groups of hexadecimal digits. -/
def Uuid.string (id : Uuid) : String :=
  let bytes := (List.range 16).reverse.map fun i => UInt8.ofNat (id.toNat / 256 ^ i)
  let digits := (Text.hexEncode bytes).toList
  String.ofList (digits.take 8 ++ ['-'] ++ (digits.drop 8).take 4 ++ ['-'] ++
    (digits.drop 12).take 4 ++ ['-'] ++ (digits.drop 16).take 4 ++ ['-'] ++ digits.drop 20)

example : Uuid.string 0x123e4567e89b12d3a456426614174000 = "123e4567-e89b-12d3-a456-426614174000" := by
  decide +kernel

/-- The {lit}`type` field of a task definition. -/
inductive TaskType where
  | singleInference
  | agentWorkflow
  | roboticsWorkflow
  | behaviorTree
  | executionGraph
deriving DecidableEq, Repr

/-- The {lit}`kind` field of an execution-graph node. -/
inductive NodeKind where
  | reason
  | robotics
  | tool
  | behaviorTree
  | humanApproval
  | memoryRecall
  | memoryStore
deriving DecidableEq, Repr

/-- The metadata fields of a node that the coordinator's policy reads.  A field
that is absent or has another JSON type decodes to the empty string or
{lit}`false`. -/
structure NodeMetadata where
  approvalRequired : Bool := false
  contractHash : String := ""
  contractBindingID : String := ""
  contractRisk : String := ""
  replayClass : String := ""
deriving DecidableEq, Repr

/-- One node of an execution graph, or one step of a workflow. -/
structure GraphNode where
  kind : NodeKind
  nodeID : String
  /-- {lit}`step_index`, which only reasoning and robotics nodes have. -/
  stepIndex : Option Nat := none
  toolName : String := ""
  action : String := ""
  metadata : NodeMetadata := {}
  /-- The node's own JSON text. -/
  text : String
deriving DecidableEq, Repr

/-- A demo-only trigger that fails a graph after some steps. -/
structure LocalDemoFailure where
  afterSteps : Nat
  reason : Option String
deriving DecidableEq, Repr

/-- A task definition: its text and the fields decoded from it. -/
structure TaskDefinition where
  text : String
  taskType : TaskType
  stream : Bool := false
  /-- {lit}`graph.nodes`; empty when the document has no graph. -/
  graphNodes : List GraphNode := []
  /-- {lit}`steps` of an agent or robotics workflow. -/
  steps : List GraphNode := []
  /-- Decoding {lit}`graph.nodes` as a list of raw documents succeeds. -/
  nodesDecode : Bool := true
  /-- Decoding the metadata of every node as an object succeeds. -/
  metadataDecode : Bool := true
  checkpointAfterSteps : Option Nat := none
  continueAfterCheckpoint : Bool := false
  localDemoFailure : Option LocalDemoFailure := none
deriving DecidableEq, Repr

/-- Whether a lower-cased JSON fragment names an action whose side effect cannot
be undone. -/
def containsIrreversibleActionToken (lower : String) : Bool :=
  Text.contains lower "\"irreversible\":true" ||
    Text.contains lower "\"db_write\"" ||
    Text.contains lower "\"database_write\"" ||
    Text.contains lower "\"publish_velocity\"" ||
    Text.contains lower "\"navigate_to_pose\""

/-- The whole definition names an irreversible action. -/
def taskHasIrreversibleAction (definition : TaskDefinition) : Bool :=
  containsIrreversibleActionToken (Text.toLower definition.text)

/-- The node on its own is classified irreversible. -/
def GraphNode.irreversible (node : GraphNode) : Bool :=
  containsIrreversibleActionToken (Text.toLower node.text)

/-- Indexes of the irreversible nodes of the graph, by position. -/
def irreversibleStepIndexes (definition : TaskDefinition) : List Nat :=
  if definition.nodesDecode then
    (definition.graphNodes.zipIdx.filter fun p => p.1.irreversible).map Prod.snd
  else []

/-- A human has to approve the task before it runs.  The text search finds the
{lit}`approval` objects of workflow steps; registered actions carry the flag in
their node metadata instead. -/
def taskRequiresHumanApproval (definition : TaskDefinition) : Bool :=
  let lower := Text.toLower definition.text
  if Text.contains lower "\"approval\"" &&
      (Text.contains lower "\"required\":true" || Text.contains lower "\"human_approval\"") then
    true
  else if definition.metadataDecode then
    definition.graphNodes.any fun node => node.metadata.approvalRequired
  else false

end Igris
