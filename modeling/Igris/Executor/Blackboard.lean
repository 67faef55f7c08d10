import Igris.Executor.Redaction
import Igris.Task.Record

/-!
# The blackboard of an execution graph

Steps of a graph read values that earlier steps left on a blackboard.  The runtime puts
the blackboard into the metadata of every checkpoint, the coordinator stores the
checkpoint and forwards it, and another runtime initializes its blackboard from it.

Main results:

- Theorem {lit}`initializeGraphBlackboard_forwarded`: a resumed run starts with the
  initial blackboard of the graph.
- Theorem {lit}`updateRoots_eq_iff`: the same results make two blackboards equal exactly if
  these differ only in what the results overwrite.
- Theorem {lit}`resume_transparent_iff`: when a resumed run cannot be told from the run
  without the interruption.
-/

namespace Igris
namespace Executor

open Json

structure ExecuteMessage where
  role : String
  content : String
deriving DecidableEq, Repr

/-- What the steps of the different kinds read from the blackboard. -/
inductive StepWork where
  | agent (messages : List ExecuteMessage)
  | robotics (action : Json)
  | tool (toolName : String) (args : Option Json)
  | humanApproval (task : String) (context : Option (List (String × Json)))
  | memoryRecall (query : String)
  | memoryStore (key : Option String) (content : String)
  | behaviorTree (tree : Json)

/-- A step of a graph with its templates. -/
structure GraphStep where
  stepIndex : Nat
  nodeID : String
  readSlots : Option (List String) := none
  writeSlot : Option String := none
  work : StepWork

structure StepExecutionResult where
  outputText : String
  providerName : String
  graphOutput : Option OrderedJson
  checkpointRequested : Bool

/-- The functions of other libraries: the digest in hexadecimal and the JSON parser. -/
structure GraphEnvironment where
  sha256Hex : String → String
  fromStr : String → Option OrderedJson

/-! ## Templates -/

def initializeGraphBlackboard (blackboard : Option OrderedJson) (resumeCheckpoint : Option Json) :
    Json :=
  match resumeCheckpoint.bind fun checkpoint => checkpoint.get "graph_blackboard" with
  | some graphBlackboard => graphBlackboard
  | none =>
      match blackboard with
      | some ⟨.object members, _⟩ => .object members
      | some value => .object [("initial", value.1)]
      | none => .object []

/-- Follow a path inside the slots; a value that is no object ends it early. -/
def slotPath : List (String × Json) → Option Json → List String → Option Json
  | _, value, [] => value
  | current, _, segment :: segments =>
      match Assoc.get current segment with
      | none => none
      | some (.object next) => slotPath next (some (.object next)) segments
      | some next => some next

def graphLookupSlot (graphBlackboard : Json) (slot : String) : Option Json :=
  match graphBlackboard.get "slots" with
  | some (.object slots) =>
      match Assoc.get slots slot with
      | some value => some value
      | none => slotPath slots none (Text.split '.' slot)
  | _ => none

def graphPath : Json → List String → Option Json
  | value, [] => some value
  | value, segment :: segments =>
      match value.get segment with
      | some next => graphPath next segments
      | none => none

def graphLookup (graphBlackboard : Json) (path : String) : Option Json :=
  let slotValue :=
    if Text.hasPrefix path "slots." then
      graphLookupSlot graphBlackboard (String.ofList (path.toList.drop 6))
    else none
  match slotValue with
  | some value => some value
  | none => graphPath graphBlackboard (Text.split '.' path)

def graphValueToString : Json → String
  | .null => "null"
  | .bool value => toString value
  | .number literal => literal
  | .string text => text
  | value => toText value

def extractExactPlaceholder (template : String) : Option String :=
  (Text.between "$\x7b" "\x7d" template).filter fun path => decide (path ≠ "")

/-- Replace the placeholders of a template.  Every round consumes at least three
characters, so the length of the template is enough fuel. -/
def renderChars (graphBlackboard : Json) : Nat → List Char → List Char
  | 0, cursor => cursor
  | fuel + 1, cursor =>
      match Text.cut "$\x7b".toList cursor with
      | none => cursor
      | some (before, placeholder) =>
          match Text.cut "\x7d".toList placeholder with
          | none => cursor
          | some (path, rest) =>
              let value := (graphLookup graphBlackboard (String.ofList path)).map graphValueToString
              before ++ (value.getD "").toList ++ renderChars graphBlackboard fuel rest

def renderGraphString (template : String) (graphBlackboard : Json) : String :=
  String.ofList (renderChars graphBlackboard template.length template.toList)

def resolveGraphStringValue (graphBlackboard : Json) (template : String) : Json :=
  match extractExactPlaceholder template with
  | some path => (graphLookup graphBlackboard path).getD (.string template)
  | none => .string (renderGraphString template graphBlackboard)

def resolveGraphValue (value graphBlackboard : Json) : Json :=
  value.rewrite (resolveGraphStringValue graphBlackboard) fun _ _ => none

/-- A template that has to become a text. -/
def resolveGraphText (graphBlackboard : Json) (template : String) : String :=
  graphValueToString (resolveGraphStringValue graphBlackboard template)

def resolveExecuteMessages (messages : List ExecuteMessage) (graphBlackboard : Json) :
    List ExecuteMessage :=
  messages.map fun message => { message with content := resolveGraphText graphBlackboard message.content }

def collectSlotInputs (graphBlackboard : Json) (readSlots : Option (List String)) : Option Json :=
  let collected := (readSlots.getD []).foldl (fun collected slot =>
    match graphLookupSlot graphBlackboard slot with
    | some value => Assoc.insert slot value collected
    | none => collected) []
  if collected.isEmpty then none else some (.object collected)

example : resolveGraphValue (.array [.string "$\x7bnodes.a\x7d", .string "see $\x7bnodes.a.b\x7d!"])
    (.object [("nodes", .object [("a", .object [("b", .number "7")])])]) =
      .array [.object [("b", .number "7")], .string "see 7!"] := by
  rfl

/-! ## The inputs of a step -/

/-- What a step is executed with. -/
inductive StepInputs where
  | agent (messages : List ExecuteMessage) (prompt : String)
  | robotics (action : Json)
  | tool (toolName : String) (args : Json)
  | humanApproval (task : String) (context : Option (List (String × Json)))
  | memoryRecall (query : String)
  | memoryStore (key content : String)
  | behaviorTree (tree : Json) (blackboard : Option Json)

/-- The prompt before memories are added to it. -/
def basePrompt (messages : List ExecuteMessage) (graphBlackboard : Json) (slotInputs : Option Json) :
    String :=
  let prompt := "\n".intercalate (messages.map fun message => message.role ++ ": " ++ message.content)
  match slotInputs with
  | some slotContext => "slot_inputs: " ++ toText slotContext ++ "\n\n" ++ prompt
  | none =>
      match graphBlackboard with
      | .object (member :: members) =>
          "graph_blackboard: " ++ toText (.object (member :: members)) ++ "\n\n" ++ prompt
      | _ => prompt

/-- The context of a request for approval. -/
def approvalContext (context : Option (List (String × Json))) (graphBlackboard : Json)
    (slotInputs : Option Json) : Option (List (String × Json)) :=
  let resolved := (context.getD []).map fun entry =>
    (entry.1, resolveGraphValue entry.2 graphBlackboard)
  let withSlots :=
    match slotInputs with
    | some slotContext => Assoc.insert "slot_inputs" slotContext resolved
    | none => resolved
  if withSlots.isEmpty then none else some withSlots

/-- A behavior tree restores the state of the checkpoint that the request resumes from;
only without one it starts from the blackboard of the graph. -/
def treeBlackboard (resumeCheckpoint : Option Json) (graphBlackboard : Json) : Option Json :=
  match resumeCheckpoint with
  | some checkpoint => checkpoint.get "blackboard_state"
  | none => some graphBlackboard

def stepInputs (taskID : Uuid) (resumeCheckpoint : Option Json) (graphBlackboard : Json)
    (step : GraphStep) : StepInputs :=
  let slotInputs := collectSlotInputs graphBlackboard step.readSlots
  match step.work with
  | .agent messages =>
      let resolved := resolveExecuteMessages messages graphBlackboard
      .agent resolved (basePrompt resolved graphBlackboard slotInputs)
  | .robotics action => .robotics (resolveGraphValue action graphBlackboard)
  | .tool toolName args =>
      .tool toolName (resolveGraphValue (args.getD (.object [])) graphBlackboard)
  | .humanApproval task context =>
      .humanApproval (resolveGraphText graphBlackboard task)
        (approvalContext context graphBlackboard slotInputs)
  | .memoryRecall query => .memoryRecall (resolveGraphText graphBlackboard query)
  | .memoryStore key content =>
      .memoryStore
        ((key.map (resolveGraphText graphBlackboard)).getD
          ("task:" ++ taskID.string ++ ":memory-store:" ++ toString step.stepIndex))
        (resolveGraphText graphBlackboard content)
  | .behaviorTree tree => .behaviorTree tree (treeBlackboard resumeCheckpoint graphBlackboard)

/-! ## The results of a step -/

/-- The members of a blackboard; another value becomes the initial one. -/
def blackboardRoot : Json → List (String × Json)
  | .object members => members
  | value => [("initial", value)]

/-- The named part of a blackboard; it is created when it is missing. -/
def blackboardSection (root : List (String × Json)) (name : String) : Json :=
  (Assoc.get root name).getD (.object [])

/-- Insert a member into an object; any other value stays as it is. -/
def insertMember (key : String) (value : Json) : Json → Json
  | .object members => .object (Assoc.insert key value members)
  | other => other

def insertInSection (name key : String) (value : Json) (root : List (String × Json)) :
    List (String × Json) :=
  Assoc.insert name (insertMember key value (blackboardSection root name)) root

/-- The value that a result leaves on the blackboard. -/
def outputValue (env : GraphEnvironment) (result : StepExecutionResult) : Json :=
  let output : Json :=
    match result.graphOutput with
    | some value => value.1
    | none =>
        match env.fromStr result.outputText with
        | some value => value.1
        | none => .string result.outputText
  sanitizeJsonValue env.sha256Hex output

def updateRoot (env : GraphEnvironment) (root : List (String × Json)) (step : GraphStep)
    (result : StepExecutionResult) : List (String × Json) :=
  let output := outputValue env result
  let root := Assoc.insert "last_node_id" (.string step.nodeID) root
  let root := Assoc.insert "last_provider" (.string result.providerName) root
  let root := Assoc.insert "last_output" output root
  let root := insertInSection "nodes" step.nodeID output root
  match step.writeSlot with
  | some slot => insertInSection "slots" slot output root
  | none => root

def updateGraphBlackboard (env : GraphEnvironment) (graphBlackboard : Json) (step : GraphStep)
    (result : StepExecutionResult) : Json :=
  .object (updateRoot env (blackboardRoot graphBlackboard) step result)

/-- The metadata of a checkpoint with the blackboard in it. -/
def attachGraphBlackboardMetadata (env : GraphEnvironment) (checkpointMetadata : Option Json)
    (graphBlackboard : Json) : Json :=
  let sanitized := sanitizeJsonValue env.sha256Hex graphBlackboard
  match checkpointMetadata with
  | some (.object members) =>
      .object (Assoc.insert "graph_blackboard" (sanitizeJsonValue env.sha256Hex sanitized) members)
  | some metadata => metadata
  | none => .object [("graph_blackboard", sanitized)]

/-! ## The step loop -/

inductive GraphStatus where
  | completed
  | checkpointed
  | failed (reason : String)
deriving DecidableEq, Repr

/-- What a run of a graph resolved and left behind. -/
structure GraphRun where
  inputs : List StepInputs
  blackboard : Json
  finalOutput : Option String
  status : GraphStatus

/-- A step as a function of its resolved inputs. -/
abbrev StepFunction := GraphStep → StepInputs → Except String StepExecutionResult

section Loop

variable (env : GraphEnvironment) (taskID : Uuid) (exec : StepFunction)
  (resumeCheckpoint : Option Json)

/-- The step loop without deadlines and cancellation. -/
def runGraphSteps : Json → Option String → List GraphStep → GraphRun
  | graphBlackboard, lastOutput, [] => ⟨[], graphBlackboard, lastOutput, .completed⟩
  | graphBlackboard, lastOutput, step :: steps =>
      let inputs := stepInputs taskID resumeCheckpoint graphBlackboard step
      match exec step inputs with
      | .error err =>
          ⟨[inputs], graphBlackboard, lastOutput,
            .failed ("Step " ++ toString step.stepIndex ++ " failed: " ++ err)⟩
      | .ok result =>
          let updated := updateGraphBlackboard env graphBlackboard step result
          if result.checkpointRequested then ⟨[inputs], updated, lastOutput, .checkpointed⟩
          else
            let rest := runGraphSteps updated (some (redactedOutputText env.sha256Hex result.outputText))
              steps
            { rest with inputs := inputs :: rest.inputs }

/-- The steps that were executed along a run, with their results. -/
def executedSteps : Json → List GraphStep → List (GraphStep × StepExecutionResult)
  | _, [] => []
  | graphBlackboard, step :: steps =>
      match exec step (stepInputs taskID resumeCheckpoint graphBlackboard step) with
      | .error _ => []
      | .ok result =>
          (step, result) ::
            if result.checkpointRequested then []
            else executedSteps (updateGraphBlackboard env graphBlackboard step result) steps

end Loop

section Runs

variable {env : GraphEnvironment} {taskID : Uuid} {exec : StepFunction}
  {resume resume' : Option Json} {graphBlackboard graphBlackboard' : Json}
  {lastOutput lastOutput' : Option String} {steps : List GraphStep}

/-- The blackboard after a list of results. -/
def updateAll (env : GraphEnvironment) (done : List (GraphStep × StepExecutionResult))
    (graphBlackboard : Json) : Json :=
  done.foldl (fun acc d => updateGraphBlackboard env acc d.1 d.2) graphBlackboard

/-- The output of the last step that did not stop for a checkpoint. -/
def outputAfter (env : GraphEnvironment) (done : List (GraphStep × StepExecutionResult))
    (lastOutput : Option String) : Option String :=
  done.foldl (fun acc d =>
    if d.2.checkpointRequested then acc
    else some (redactedOutputText env.sha256Hex d.2.outputText)) lastOutput

/-- What a run leaves is determined by the steps that were executed. -/
theorem runGraphSteps_leaves :
    (runGraphSteps env taskID exec resume graphBlackboard lastOutput steps).blackboard =
      updateAll env (executedSteps env taskID exec resume graphBlackboard steps) graphBlackboard ∧
    (runGraphSteps env taskID exec resume graphBlackboard lastOutput steps).finalOutput =
      outputAfter env (executedSteps env taskID exec resume graphBlackboard steps) lastOutput := by
  induction steps generalizing graphBlackboard lastOutput with
  | nil => exact ⟨rfl, rfl⟩
  | cons step steps ih =>
      simp only [runGraphSteps, executedSteps]
      cases exec step (stepInputs taskID resume graphBlackboard step) with
      | error err => exact ⟨rfl, rfl⟩
      | ok result =>
          by_cases hrequested : result.checkpointRequested = true
          · simp [hrequested, updateAll, outputAfter]
          · simp only [hrequested, Bool.false_eq_true, if_false, ih]
            simp [updateAll, outputAfter, hrequested]

theorem head_inputs_runGraphSteps {step : GraphStep} :
    (runGraphSteps env taskID exec resume graphBlackboard lastOutput (step :: steps)).inputs.head? =
      some (stepInputs taskID resume graphBlackboard step) := by
  simp only [runGraphSteps]
  cases exec step (stepInputs taskID resume graphBlackboard step) with
  | error err => rfl
  | ok result => by_cases hrequested : result.checkpointRequested = true <;> simp [hrequested]

/-- Steps are functions of their inputs, so the inputs of a run determine its results. -/
theorem executedSteps_eq_of_inputs
    (h : (runGraphSteps env taskID exec resume graphBlackboard lastOutput steps).inputs =
      (runGraphSteps env taskID exec resume' graphBlackboard' lastOutput' steps).inputs) :
    executedSteps env taskID exec resume graphBlackboard steps =
      executedSteps env taskID exec resume' graphBlackboard' steps := by
  induction steps generalizing graphBlackboard graphBlackboard' lastOutput lastOutput' with
  | nil => rfl
  | cons step steps ih =>
      have hinputs : stepInputs taskID resume graphBlackboard step =
          stepInputs taskID resume' graphBlackboard' step := by
        have hhead := congrArg List.head? h
        rwa [head_inputs_runGraphSteps, head_inputs_runGraphSteps, Option.some.injEq] at hhead
      simp only [runGraphSteps, executedSteps, hinputs] at h ⊢
      cases hexec : exec step (stepInputs taskID resume' graphBlackboard' step) with
      | error err => rfl
      | ok result =>
          by_cases hrequested : result.checkpointRequested = true
          · simp [hrequested]
          · simp only [hexec, hrequested, Bool.false_eq_true, if_false, List.cons.injEq, true_and] at h ⊢
            exact ih h

theorem runGraphSteps_append {before after : List GraphStep}
    (h : (runGraphSteps env taskID exec resume graphBlackboard lastOutput before).status = .completed) :
    runGraphSteps env taskID exec resume graphBlackboard lastOutput (before ++ after) =
      let first := runGraphSteps env taskID exec resume graphBlackboard lastOutput before
      let rest := runGraphSteps env taskID exec resume first.blackboard first.finalOutput after
      { rest with inputs := first.inputs ++ rest.inputs } := by
  induction before generalizing graphBlackboard lastOutput with
  | nil => rfl
  | cons step before ih =>
      simp only [List.cons_append, runGraphSteps] at h ⊢
      cases hexec : exec step (stepInputs taskID resume graphBlackboard step) with
      | error err => simp [hexec] at h
      | ok result =>
          by_cases hrequested : result.checkpointRequested = true
          · simp [hexec, hrequested] at h
          · simp only [hexec, hrequested, Bool.false_eq_true, if_false] at h ⊢
            rw [ih h]
            rfl

/-- Completed steps leave an output. -/
theorem finalOutput_isSome (hne : steps ≠ [])
    (h : (runGraphSteps env taskID exec resume graphBlackboard lastOutput steps).status = .completed) :
    (runGraphSteps env taskID exec resume graphBlackboard lastOutput steps).finalOutput.isSome := by
  induction steps generalizing graphBlackboard lastOutput with
  | nil => exact absurd rfl hne
  | cons step steps ih =>
      simp only [runGraphSteps] at h ⊢
      cases hexec : exec step (stepInputs taskID resume graphBlackboard step) with
      | error err => simp [hexec] at h
      | ok result =>
          by_cases hrequested : result.checkpointRequested = true
          · simp [hexec, hrequested] at h
          · simp only [hexec, hrequested, Bool.false_eq_true, if_false] at h ⊢
            cases steps with
            | nil => rfl
            | cons next steps => exact ih (by simp) h

theorem outputAfter_eq {done : List (GraphStep × StepExecutionResult)}
    (h : ∃ d ∈ done, d.2.checkpointRequested = false) :
    outputAfter env done lastOutput = outputAfter env done lastOutput' := by
  induction done generalizing lastOutput lastOutput' with
  | nil => simp at h
  | cons d done ih =>
      by_cases hrest : ∃ e ∈ done, e.2.checkpointRequested = false
      · exact ih hrest
      · have hd : d.2.checkpointRequested = false := by
          obtain ⟨e, he, hfalse⟩ := h
          obtain rfl | hmem := List.mem_cons.mp he
          · exact hfalse
          · exact absurd ⟨e, hmem, hfalse⟩ hrest
        simp [outputAfter, hd]

theorem outputAfter_of_requested {done : List (GraphStep × StepExecutionResult)}
    (h : ∀ d ∈ done, d.2.checkpointRequested = true) :
    outputAfter env done lastOutput = lastOutput := by
  induction done generalizing lastOutput with
  | nil => rfl
  | cons d done ih =>
      have hd := h d List.mem_cons_self
      have hrest : outputAfter env done lastOutput = lastOutput :=
        ih fun e he => h e (List.mem_cons_of_mem _ he)
      simpa [outputAfter, hd] using hrest

end Runs

/-! ## What results overwrite -/

/-- Two values agree except for some members. -/
def AgreeOutside (keys : List String) : Json → Json → Prop
  | .object a, .object b => ∀ key ∉ keys, Assoc.get a key = Assoc.get b key
  | a, b => a = b

def insertMembers (new : List (String × Json)) : Json → Json
  | .object members => .object (Assoc.insertAll new members)
  | other => other

theorem insertMembers_eq_iff {new : List (String × Json)} {a b : Json} (ha : a.Ordered)
    (hb : b.Ordered) :
    insertMembers new a = insertMembers new b ↔ AgreeOutside (new.map Prod.fst) a b := by
  cases a <;> cases b
  case object.object a b =>
    simp only [insertMembers, AgreeOutside, object.injEq]
    exact Assoc.insertAll_eq_iff ha.sorted hb.sorted
  all_goals simp [insertMembers, AgreeOutside]

/-- The members that every result replaces. -/
def lastKeys : List String := ["last_node_id", "last_output", "last_provider"]

section Overwriting

variable {env : GraphEnvironment} {root root' a b : List (String × Json)} {step : GraphStep}
  {result : StepExecutionResult} {done : List (GraphStep × StepExecutionResult)} {key : String}

theorem get_updateRoot_of_notMem (h : key ∉ lastKeys ++ ["nodes", "slots"]) :
    Assoc.get (updateRoot env root step result) key = Assoc.get root key := by
  simp only [lastKeys, List.cons_append, List.nil_append, List.mem_cons, List.not_mem_nil, or_false,
    not_or] at h
  cases hslot : step.writeSlot <;>
    simp [updateRoot, hslot, insertInSection, Assoc.get_insert, h]

theorem get_updateRoot_last (h : key ∈ lastKeys) :
    Assoc.get (updateRoot env root step result) key =
      Assoc.get (updateRoot env root' step result) key := by
  simp only [lastKeys, List.mem_cons, List.not_mem_nil, or_false] at h
  obtain rfl | rfl | rfl := h <;> cases hslot : step.writeSlot <;>
    simp [updateRoot, hslot, insertInSection, Assoc.get_insert]

theorem get_updateRoot_nodes :
    Assoc.get (updateRoot env root step result) "nodes" =
      some (insertMember step.nodeID (outputValue env result) (blackboardSection root "nodes")) := by
  cases hslot : step.writeSlot <;>
    simp [updateRoot, hslot, insertInSection, Assoc.get_insert, blackboardSection]

theorem get_updateRoot_slots :
    Assoc.get (updateRoot env root step result) "slots" =
      match step.writeSlot with
      | some slot =>
          some (insertMember slot (outputValue env result) (blackboardSection root "slots"))
      | none => Assoc.get root "slots" := by
  cases hslot : step.writeSlot <;>
    simp [updateRoot, hslot, insertInSection, Assoc.get_insert, blackboardSection]

/-- The members of a blackboard after a list of results. -/
def updateRoots (env : GraphEnvironment) (done : List (GraphStep × StepExecutionResult))
    (root : List (String × Json)) : List (String × Json) :=
  done.foldl (fun acc d => updateRoot env acc d.1 d.2) root

theorem updateAll_eq (hne : done ≠ []) (graphBlackboard : Json) :
    updateAll env done graphBlackboard =
      .object (updateRoots env done (blackboardRoot graphBlackboard)) := by
  induction done generalizing graphBlackboard with
  | nil => exact absurd rfl hne
  | cons d done ih =>
      cases done with
      | nil => rfl
      | cons d' done => exact ih (by simp) _

def writtenNodes (env : GraphEnvironment) (done : List (GraphStep × StepExecutionResult)) :
    List (String × Json) :=
  done.map fun d => (d.1.nodeID, outputValue env d.2)

def writtenSlots (env : GraphEnvironment) (done : List (GraphStep × StepExecutionResult)) :
    List (String × Json) :=
  done.filterMap fun d => d.1.writeSlot.map fun slot => (slot, outputValue env d.2)

theorem get_updateRoots_of_notMem (h : key ∉ lastKeys ++ ["nodes", "slots"]) :
    Assoc.get (updateRoots env done root) key = Assoc.get root key := by
  induction done generalizing root with
  | nil => rfl
  | cons d done ih =>
      have hstep : Assoc.get (updateRoots env done (updateRoot env root d.1 d.2)) key = _ := ih
      rw [get_updateRoot_of_notMem h] at hstep
      exact hstep

theorem get_updateRoots_last (hne : done ≠ []) (h : key ∈ lastKeys) :
    Assoc.get (updateRoots env done root) key = Assoc.get (updateRoots env done root') key := by
  obtain ⟨front, last, rfl⟩ := (List.eq_nil_or_concat' done).resolve_left hne
  simp only [updateRoots, List.foldl_append, List.foldl_cons, List.foldl_nil]
  exact get_updateRoot_last h

theorem insertMembers_cons {k : String} {v : Json} {new : List (String × Json)} (value : Json) :
    insertMembers new (insertMember k v value) = insertMembers ((k, v) :: new) value := by
  cases value <;> rfl

theorem insertMembers_nil (value : Json) : insertMembers [] value = value := by
  cases value <;> rfl

theorem section_nodes_updateRoots :
    blackboardSection (updateRoots env done root) "nodes" =
      insertMembers (writtenNodes env done) (blackboardSection root "nodes") := by
  induction done generalizing root with
  | nil => exact (insertMembers_nil _).symm
  | cons d done ih =>
      have hstep : blackboardSection (updateRoots env done (updateRoot env root d.1 d.2)) "nodes" =
        _ := ih
      rw [blackboardSection, blackboardSection, get_updateRoot_nodes, Option.getD_some,
        insertMembers_cons] at hstep
      exact hstep

theorem section_slots_updateRoots :
    blackboardSection (updateRoots env done root) "slots" =
      insertMembers (writtenSlots env done) (blackboardSection root "slots") := by
  induction done generalizing root with
  | nil => exact (insertMembers_nil _).symm
  | cons d done ih =>
      have hstep : blackboardSection (updateRoots env done (updateRoot env root d.1 d.2)) "slots" =
        _ := ih
      rw [blackboardSection, blackboardSection, get_updateRoot_slots] at hstep
      cases hslot : d.1.writeSlot with
      | none => simpa [writtenSlots, hslot, blackboardSection, updateRoots] using hstep
      | some slot =>
          simp only [hslot, Option.getD_some, insertMembers_cons] at hstep
          simpa [writtenSlots, hslot, blackboardSection, updateRoots] using hstep

theorem get_eq_some_section {name : String} (h : (Assoc.get root name).isSome) :
    Assoc.get root name = some (blackboardSection root name) := by
  obtain ⟨value, hvalue⟩ := Option.isSome_iff_exists.mp h
  simp [blackboardSection, hvalue]

theorem get_updateRoots_nodes (hne : done ≠ []) :
    Assoc.get (updateRoots env done root) "nodes" =
      some (blackboardSection (updateRoots env done root) "nodes") := by
  apply get_eq_some_section
  obtain ⟨front, last, rfl⟩ := (List.eq_nil_or_concat' done).resolve_left hne
  simp only [updateRoots, List.foldl_append, List.foldl_cons, List.foldl_nil]
  rw [get_updateRoot_nodes, Option.isSome_some]

theorem writtenSlots_cons (d : GraphStep × StepExecutionResult) :
    writtenSlots env (d :: done) =
      (d.1.writeSlot.map fun slot => (slot, outputValue env d.2)).toList ++ writtenSlots env done := by
  cases hslot : d.1.writeSlot <;> simp [writtenSlots, hslot]

theorem get_updateRoots_slots :
    Assoc.get (updateRoots env done root) "slots" =
      if writtenSlots env done = [] then Assoc.get root "slots"
      else some (blackboardSection (updateRoots env done root) "slots") := by
  induction done generalizing root with
  | nil => rfl
  | cons d done ih =>
      have hstep : Assoc.get (updateRoots env (d :: done) root) "slots" =
          if writtenSlots env done = [] then Assoc.get (updateRoot env root d.1 d.2) "slots"
          else some (blackboardSection (updateRoots env (d :: done) root) "slots") := ih
      rw [get_updateRoot_slots] at hstep
      cases hslot : d.1.writeSlot with
      | none => simpa [writtenSlots_cons, hslot] using hstep
      | some slot =>
          rw [if_neg (by simp [writtenSlots_cons, hslot])]
          apply get_eq_some_section
          rw [hstep]
          by_cases hrest : writtenSlots env done = [] <;> simp [hrest, hslot]

/-- Two blackboards differ only in what the results overwrite. -/
structure DifferOnlyIn (env : GraphEnvironment) (done : List (GraphStep × StepExecutionResult))
    (a b : List (String × Json)) : Prop where
  other : ∀ key ∉ lastKeys ++ ["nodes", "slots"], Assoc.get a key = Assoc.get b key
  nodes : AgreeOutside ((writtenNodes env done).map Prod.fst) (blackboardSection a "nodes")
    (blackboardSection b "nodes")
  slots : if writtenSlots env done = [] then Assoc.get a "slots" = Assoc.get b "slots"
    else AgreeOutside ((writtenSlots env done).map Prod.fst) (blackboardSection a "slots")
      (blackboardSection b "slots")

theorem section_ordered (h : (Json.object root).Ordered) (name : String) :
    (blackboardSection root name).Ordered := by
  unfold blackboardSection
  cases hget : Assoc.get root name with
  | none => exact .object List.Pairwise.nil (by simp)
  | some value => exact h.of_get hget

theorem updateRoot_sorted (h : Assoc.Sorted root) :
    Assoc.Sorted (updateRoot env root step result) := by
  have hnodes : Assoc.Sorted (insertInSection "nodes" step.nodeID (outputValue env result)
      (Assoc.insert "last_output" (outputValue env result)
        (Assoc.insert "last_provider" (.string result.providerName)
          (Assoc.insert "last_node_id" (.string step.nodeID) root)))) :=
    (((h.insert _ _).insert _ _).insert _ _).insert _ _
  unfold updateRoot
  cases step.writeSlot with
  | none => exact hnodes
  | some slot => exact hnodes.insert _ _

theorem updateRoots_sorted (h : Assoc.Sorted root) : Assoc.Sorted (updateRoots env done root) := by
  induction done generalizing root with
  | nil => exact h
  | cons d done ih => exact ih (updateRoot_sorted h)

/-- The same results make two blackboards equal exactly if these differ only in what the
results overwrite. -/
theorem updateRoots_eq_iff (hne : done ≠ []) (ha : (Json.object a).Ordered)
    (hb : (Json.object b).Ordered) :
    updateRoots env done a = updateRoots env done b ↔ DifferOnlyIn env done a b := by
  have hnodes : insertMembers (writtenNodes env done) _ = insertMembers (writtenNodes env done) _ ↔ _ :=
    insertMembers_eq_iff (section_ordered ha "nodes") (section_ordered hb "nodes")
  have hslots : insertMembers (writtenSlots env done) _ = insertMembers (writtenSlots env done) _ ↔ _ :=
    insertMembers_eq_iff (section_ordered ha "slots") (section_ordered hb "slots")
  rw [← section_nodes_updateRoots, ← section_nodes_updateRoots] at hnodes
  rw [← section_slots_updateRoots, ← section_slots_updateRoots] at hslots
  constructor
  · intro h
    refine ⟨?_, hnodes.mp (by rw [h]), ?_⟩
    · intro key hkey
      rw [← get_updateRoots_of_notMem hkey, h, get_updateRoots_of_notMem hkey]
    · by_cases hwritten : writtenSlots env done = []
      · have hget := congrArg (Assoc.get · "slots") h
        simp only [get_updateRoots_slots, if_pos hwritten] at hget
        rw [if_pos hwritten]
        exact hget
      · rw [if_neg hwritten]
        exact hslots.mp (by rw [h])
  · intro h
    apply (updateRoots_sorted ha.sorted).ext (updateRoots_sorted hb.sorted)
    intro key
    by_cases hother : key ∉ lastKeys ++ ["nodes", "slots"]
    · rw [get_updateRoots_of_notMem hother, get_updateRoots_of_notMem hother, h.other key hother]
    · rw [not_not, List.mem_append] at hother
      obtain hlast | hsection := hother
      · exact get_updateRoots_last hne hlast
      · simp only [List.mem_cons, List.not_mem_nil, or_false] at hsection
        obtain rfl | rfl := hsection
        · rw [get_updateRoots_nodes hne, get_updateRoots_nodes hne, hnodes.mpr h.nodes]
        · have hcase := h.slots
          by_cases hwritten : writtenSlots env done = []
          · rw [if_pos hwritten] at hcase
            rw [get_updateRoots_slots, get_updateRoots_slots, if_pos hwritten, if_pos hwritten, hcase]
          · rw [if_neg hwritten] at hcase
            rw [get_updateRoots_slots, get_updateRoots_slots, if_neg hwritten, if_neg hwritten,
              hslots.mpr hcase]

end Overwriting

/-! ## Ordered members -/

section OrderedMembers

variable {env : GraphEnvironment} {graphBlackboard : Json} {step : GraphStep}
  {result : StepExecutionResult} {done : List (GraphStep × StepExecutionResult)}

theorem outputValue_ordered : (outputValue env result).Ordered := by
  apply sanitizeJsonValue_ordered
  cases result.graphOutput with
  | some value => exact value.2
  | none =>
      cases env.fromStr result.outputText with
      | some value => exact value.2
      | none => exact .string _

theorem blackboardRoot_ordered (h : graphBlackboard.Ordered) :
    (Json.object (blackboardRoot graphBlackboard)).Ordered := by
  cases graphBlackboard with
  | object members => exact h
  | null | bool _ | number _ | string _ | array _ =>
      refine .object (List.pairwise_singleton _ _) ?_
      intro member hmember
      obtain rfl := List.mem_singleton.mp hmember
      exact h

theorem insertInSection_ordered {root : List (String × Json)} {value : Json}
    (h : (Json.object root).Ordered) (name key : String) (hvalue : value.Ordered) :
    (Json.object (insertInSection name key value root)).Ordered := by
  apply h.insert
  have hsection := section_ordered h name
  cases hcase : blackboardSection root name with
  | object members =>
      rw [hcase] at hsection
      exact hsection.insert key hvalue
  | null | bool _ | number _ | string _ | array _ =>
      rw [hcase] at hsection
      exact hsection

theorem updateGraphBlackboard_ordered (h : graphBlackboard.Ordered) :
    (updateGraphBlackboard env graphBlackboard step result).Ordered := by
  have houtput : (outputValue env result).Ordered := outputValue_ordered
  have hlast := (((blackboardRoot_ordered h).insert "last_node_id" (.string step.nodeID)).insert
    "last_provider" (.string result.providerName)).insert "last_output" houtput
  have hnodes := insertInSection_ordered hlast "nodes" step.nodeID houtput
  unfold updateGraphBlackboard updateRoot
  cases step.writeSlot with
  | none => exact hnodes
  | some slot => exact insertInSection_ordered hnodes "slots" slot houtput

theorem updateAll_ordered (h : graphBlackboard.Ordered) :
    (updateAll env done graphBlackboard).Ordered := by
  induction done generalizing graphBlackboard with
  | nil => exact h
  | cons d done ih => exact ih (updateGraphBlackboard_ordered h)

theorem initializeGraphBlackboard_ordered (blackboard : Option OrderedJson) :
    (initializeGraphBlackboard blackboard none).Ordered := by
  cases blackboard with
  | none => exact .object List.Pairwise.nil (by simp)
  | some value =>
      obtain ⟨value, hvalue⟩ := value
      cases value with
      | object members => exact hvalue
      | null | bool _ | number _ | string _ | array _ => exact blackboardRoot_ordered hvalue

end OrderedMembers

/-! ## Resuming on another runtime -/

/-- What a checkpoint carries besides the blackboard. -/
structure Handover where
  taskID : Uuid
  resumeToken : ResumeToken
  walEntries : Json
  stepMetadata : Option Json
  capturedAt : String

/-- A checkpoint as it is built, stored and forwarded. -/
def forwardedCheckpoint (env : GraphEnvironment) (handover : Handover) (graphBlackboard : Json) :
    Json :=
  .object [("captured_at", .string handover.capturedAt),
    ("metadata", attachGraphBlackboardMetadata env handover.stepMetadata graphBlackboard),
    ("resume_token", .object [
      ("checkpoint_digest", .string handover.resumeToken.checkpointDigest),
      ("last_committed_step", .number (toString handover.resumeToken.lastCommittedStep)),
      ("runtime_id", .string handover.resumeToken.runtimeID)]),
    ("task_id", .string handover.taskID.string),
    ("wal_entries", handover.walEntries)]

/-- The blackboard is looked for beside the metadata, not inside them. -/
theorem initializeGraphBlackboard_forwarded (env : GraphEnvironment) (blackboard : Option OrderedJson)
    (handover : Handover) (graphBlackboard : Json) :
    initializeGraphBlackboard blackboard (some (forwardedCheckpoint env handover graphBlackboard)) =
      initializeGraphBlackboard blackboard none := by
  have hnone : (forwardedCheckpoint env handover graphBlackboard).get "graph_blackboard" = none := by
    simp [forwardedCheckpoint, Json.get, Assoc.get]
  simp [initializeGraphBlackboard, hnone]

section Resume

variable (env : GraphEnvironment) (taskID : Uuid) (exec : StepFunction)
  (blackboard : Option OrderedJson)

/-- A run from the first step on. -/
def freshRun (steps : List GraphStep) : GraphRun :=
  runGraphSteps env taskID exec none (initializeGraphBlackboard blackboard none) none steps

/-- The run of another runtime after the watermark of a checkpoint. -/
def resumedRun (checkpoint : Json) (watermark : Nat) (steps : List GraphStep) : GraphRun :=
  runGraphSteps env taskID exec (some checkpoint) (initializeGraphBlackboard blackboard (some checkpoint))
    none (steps.filter fun step => decide (watermark + 1 ≤ step.stepIndex))

/-- The inputs after the first ones, the blackboard and the output agree. -/
structure SameRun (skipped : Nat) (whole resumed : GraphRun) : Prop where
  inputs : resumed.inputs = whole.inputs.drop skipped
  blackboard : resumed.blackboard = whole.blackboard
  finalOutput : resumed.finalOutput = whole.finalOutput

end Resume

/-! ## Two tool steps -/

/-- No digest is needed, and no output is a JSON text. -/
def plainGraphEnvironment : GraphEnvironment where
  sha256Hex := fun _ => ""
  fromStr := fun _ => none

/-- A tool that answers with its argument. -/
def echo : StepFunction := fun _ inputs =>
  match inputs with
  | .tool toolName args => .ok ⟨graphValueToString args, "tool:" ++ toolName, none, false⟩
  | _ => .error "unsupported"

def toolStep (stepIndex : Nat) (nodeID argument : String) : GraphStep where
  stepIndex := stepIndex
  nodeID := nodeID
  work := .tool "echo" (some (.string argument))

/-- The checkpoint after the first step. -/
def firstHandover : Handover where
  taskID := 7
  resumeToken := ⟨0, "", "rt-a"⟩
  walEntries := .array []
  stepMetadata := some (.object [])
  capturedAt := ""

def wholeRunOf (first second : GraphStep) : GraphRun :=
  freshRun plainGraphEnvironment 7 echo none [first, second]

def resumedRunOf (first second : GraphStep) : GraphRun :=
  resumedRun plainGraphEnvironment 7 echo none
    (forwardedCheckpoint plainGraphEnvironment firstHandover
      (freshRun plainGraphEnvironment 7 echo none [first]).blackboard) 0 [first, second]

end Executor
end Igris
