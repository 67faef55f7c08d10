import Igris.Lib.Assoc
import Igris.Task.Checkpoint

/-!
# Action policy

The built-in policy that decides, for a submission or for a recovery attempt,
whether a task may run, has to wait for a human, or is refused; and the check
made again before a task is handed to another runtime.

Main results:

- Theorem {lit}`evaluateActionPolicy_submit`: a submission is never denied, and it
  is paused exactly when the task is gated.
- Theorem {lit}`recoveryHandoffAllowed_usable`: a handoff happens only with a usable
  checkpoint.
- Theorem {lit}`strict_iff_covered`: the decision is as strict as every node demands
  exactly when the first bound node and the text make up for all others.
-/

namespace Igris
namespace Coordinator

inductive ActionDecision where
  | allowed
  | denied
  | approvalRequired
deriving DecidableEq, Repr

inductive ReplayClass where
  | retryable
  | nonRetryable
deriving DecidableEq, Repr

inductive CheckpointPortability where
  | sameRuntime
  | compatibleRuntime
  | anyRuntime
deriving DecidableEq, Repr

/-- The recorded decision. -/
structure ActionPolicyDecision where
  tenantID : String
  taskID : Uuid
  runtimeID : String
  riskLevel : String
  decision : ActionDecision
  replayClass : ReplayClass
  irreversible : Bool
  humanGated : Bool
  policyVersion : String
  policyReason : String
  checkpointPortability : CheckpointPortability
deriving DecidableEq, Repr

structure ActionPolicyInput where
  tenantID : String
  taskID : Uuid
  runtimeID : String
  taskDefinition : TaskDefinition
  checkpoint : Option CheckpointPayload := none
  recoveryAttempt : Bool := false

/-- Policy stamped into a node by a contract binding. -/
structure BoundActionPolicy where
  risk : String
  replayClass : ReplayClass
  approvalRequired : Bool
deriving DecidableEq, Repr

def riskLevelRank (risk : String) : Nat :=
  let level := Text.toLower (Text.trimSpace risk)
  if level = "low" then 1
  else if level = "medium" then 2
  else if level = "high" then 3
  else if level = "critical" then 4
  else 0

/-- The policy of one node, when the node is bound to a contract. -/
def boundPolicyOfNode (node : GraphNode) : Option BoundActionPolicy :=
  if Text.trimSpace node.metadata.contractHash = "" ∨
      Text.trimSpace node.metadata.contractBindingID = "" then none
  else some {
    risk := if riskLevelRank node.metadata.contractRisk = 0 then "low"
      else node.metadata.contractRisk
    replayClass := if node.metadata.replayClass = "non_retryable" then .nonRetryable else .retryable
    approvalRequired := node.metadata.approvalRequired }

/-- The policy of the first bound node. -/
def extractBoundActionPolicy (definition : TaskDefinition) : Option BoundActionPolicy :=
  if definition.metadataDecode then definition.graphNodes.findSome? boundPolicyOfNode else none

/-- Every irreversible node still lies behind the watermark of the checkpoint. -/
def recoveryForwardResumeSafe (taskID : Uuid) (definition : TaskDefinition)
    (cp : Option CheckpointPayload) : Bool :=
  if !taskHasIrreversibleAction definition then true
  else
    match cp with
    | none => false
    | some cp =>
        if !taskRecoveryCheckpointUsable taskID (some cp) then false
        else if irreversibleStepIndexes definition = [] then false
        else (irreversibleStepIndexes definition).all fun idx => !decide (idx ≤ cp.watermark)

/-- The task waits for a human: by its own definition or by the contract it is bound to. -/
def policyHumanGated (definition : TaskDefinition) : Bool :=
  taskRequiresHumanApproval definition ||
    (extractBoundActionPolicy definition).any fun bound => bound.approvalRequired

/-- Resuming from the checkpoint repeats no irreversible node. -/
def forwardResumeSafe (input : ActionPolicyInput) : Bool :=
  input.recoveryAttempt &&
    recoveryForwardResumeSafe input.taskID input.taskDefinition input.checkpoint

/-- Decision and reason.  The source assigns them in the opposite order, each
assignment replacing the one before. -/
def policyVerdict (input : ActionPolicyInput) : ActionDecision × String :=
  if input.recoveryAttempt && taskHasIrreversibleAction input.taskDefinition &&
      !forwardResumeSafe input then
    (.denied, "irreversible action already committed or checkpoint cannot prove safe forward-resume")
  else if input.recoveryAttempt && !taskRecoveryCheckpointUsable input.taskID input.checkpoint then
    (.denied, "recovery checkpoint is missing or invalid")
  else if policyHumanGated input.taskDefinition then
    (.approvalRequired, "human approval required before execution")
  else if (extractBoundActionPolicy input.taskDefinition).isSome then
    (.allowed, "allowed by stricter bound-contract and execution governance policy")
  else (.allowed, "allowed by built-in execution governance")

/-- The highest of the risks the rules assign. -/
def policyRisk (definition : TaskDefinition) : String :=
  let risk := if taskHasIrreversibleAction definition then "high" else "low"
  let risk := match extractBoundActionPolicy definition with
    | some bound => if riskLevelRank bound.risk > riskLevelRank risk then bound.risk else risk
    | none => risk
  if policyHumanGated definition && decide (riskLevelRank "medium" > riskLevelRank risk) then
    "medium"
  else risk

def evaluateActionPolicy (input : ActionPolicyInput) : ActionPolicyDecision where
  tenantID := input.tenantID
  taskID := input.taskID
  runtimeID := input.runtimeID
  riskLevel := policyRisk input.taskDefinition
  decision := (policyVerdict input).1
  replayClass :=
    if taskHasIrreversibleAction input.taskDefinition ||
        (extractBoundActionPolicy input.taskDefinition).any fun bound =>
          decide (bound.replayClass = .nonRetryable) then
      .nonRetryable
    else .retryable
  irreversible := taskHasIrreversibleAction input.taskDefinition
  humanGated := policyHumanGated input.taskDefinition
  policyVersion :=
    if (extractBoundActionPolicy input.taskDefinition).isSome then
      "execution-governance.contract-bound.v1"
    else "execution-governance.builtin.v1"
  policyReason := (policyVerdict input).2
  checkpointPortability :=
    if taskHasIrreversibleAction input.taskDefinition && !forwardResumeSafe input then .sameRuntime
    else .compatibleRuntime

/-- The check at the redispatch point, with the reason that is recorded. -/
def recoveryHandoffAllowed (task : TaskRecord) (checkpoint : Option CheckpointPayload)
    (targetRuntimeID : String) (decision : ActionPolicyDecision) : Bool × String :=
  if decision.decision ≠ .allowed then (false, decision.policyReason)
  else if decision.irreversible &&
      !recoveryForwardResumeSafe task.taskID task.taskDefinition checkpoint then
    (false, "irreversible action already committed or checkpoint cannot prove safe forward-resume")
  else
    match checkpoint with
    | none => (true, "no checkpoint; first safe redispatch")
    | some cp =>
        match decision.checkpointPortability with
        | .anyRuntime | .compatibleRuntime =>
            (true, "checkpoint portability allows compatible runtime handoff")
        | .sameRuntime =>
            if cp.resumeToken.runtimeID = "" ∨ cp.resumeToken.runtimeID = targetRuntimeID then
              (true, "same runtime checkpoint")
            else (false, "checkpoint is same-runtime-only")

/-! ## What the policy guarantees -/

/-- A submission is never denied; it is paused exactly when the task is gated. -/
theorem evaluateActionPolicy_submit (input : ActionPolicyInput) (h : input.recoveryAttempt = false) :
    (evaluateActionPolicy input).decision =
      if policyHumanGated input.taskDefinition then .approvalRequired else .allowed := by
  simp only [evaluateActionPolicy, policyVerdict, h, Bool.false_and, Bool.false_eq_true, if_false]
  split
  · rfl
  · split <;> rfl

/-- A recovery attempt is allowed only with a usable checkpoint, for a task that is
not gated. -/
theorem evaluateActionPolicy_recovery_allowed (input : ActionPolicyInput)
    (hrecovery : input.recoveryAttempt = true)
    (h : (evaluateActionPolicy input).decision = .allowed) :
    taskRecoveryCheckpointUsable input.taskID input.checkpoint = true ∧
      policyHumanGated input.taskDefinition = false := by
  simp only [evaluateActionPolicy, policyVerdict, hrecovery, Bool.true_and] at h
  split at h
  · cases h
  · split at h <;> rename_i husable
    · cases h
    · split at h <;> rename_i hgated
      · cases h
      · exact ⟨by simpa using husable, by simpa using hgated⟩

theorem decision_allowed_of_handoff {task : TaskRecord} {cp : Option CheckpointPayload}
    {target : String} {decision : ActionPolicyDecision}
    (h : (recoveryHandoffAllowed task cp target decision).1 = true) :
    decision.decision = .allowed := by
  by_contra hne
  simp [recoveryHandoffAllowed, hne] at h

/-- A handoff happens only with a usable checkpoint and for a task that is not gated. -/
theorem recoveryHandoffAllowed_usable {task : TaskRecord} {cp : Option CheckpointPayload}
    {target : String} {input : ActionPolicyInput} (hrecovery : input.recoveryAttempt = true)
    (h : (recoveryHandoffAllowed task cp target (evaluateActionPolicy input)).1 = true) :
    taskRecoveryCheckpointUsable input.taskID input.checkpoint = true ∧
      policyHumanGated input.taskDefinition = false :=
  evaluateActionPolicy_recovery_allowed input hrecovery (decision_allowed_of_handoff h)

/-! ## How strict the decision is

The decision looks at the first bound node only, so it is compared with what every
node demands. -/

section Strictness

variable {definition : TaskDefinition} {bound : BoundActionPolicy}

/-- The text of the definition asks for an approval. -/
def namesApproval (definition : TaskDefinition) : Bool :=
  let lower := Text.toLower definition.text
  Text.contains lower "\"approval\"" &&
    (Text.contains lower "\"required\":true" || Text.contains lower "\"human_approval\"")

/-- The decision is at least as strict as the node demands. -/
structure MeetsDemands (decision : ActionPolicyDecision) (node : GraphNode) : Prop where
  risk : ∀ bound, boundPolicyOfNode node = some bound →
    riskLevelRank bound.risk ≤ riskLevelRank decision.riskLevel
  replay : ∀ bound, boundPolicyOfNode node = some bound → bound.replayClass = .nonRetryable →
    decision.replayClass = .nonRetryable
  approval : node.metadata.approvalRequired = true →
    decision.humanGated = true ∧ decision.decision ≠ .allowed

/-- The second decision is not weaker than the first one. -/
structure NotWeaker (decision decision' : ActionPolicyDecision) : Prop where
  risk : riskLevelRank decision.riskLevel ≤ riskLevelRank decision'.riskLevel
  replay : decision.replayClass = .nonRetryable → decision'.replayClass = .nonRetryable
  approval : decision.humanGated = true →
    decision'.humanGated = true ∧ decision'.decision ≠ .allowed

/-- The node demands at least what it demanded before. -/
structure NodeRaised (node node' : GraphNode) : Prop where
  bound : ∀ bound, boundPolicyOfNode node = some bound → ∃ bound',
    boundPolicyOfNode node' = some bound' ∧ riskLevelRank bound.risk ≤ riskLevelRank bound'.risk ∧
      (bound.replayClass = .nonRetryable → bound'.replayClass = .nonRetryable)
  approval : node.metadata.approvalRequired = true → node'.metadata.approvalRequired = true

/-- Nodes were added or their demands raised, and the text still names what it named. -/
structure Raises (definition definition' : TaskDefinition) : Prop where
  nodes : List.SublistForall₂ NodeRaised definition.graphNodes definition'.graphNodes
  irreversible : taskHasIrreversibleAction definition = true →
    taskHasIrreversibleAction definition' = true
  names : namesApproval definition = true → namesApproval definition' = true

/-- What the first bound node and the searches in the text make up for: every demand of
the node is also a demand of theirs. -/
structure Covered (definition : TaskDefinition) (node : GraphNode) : Prop where
  risk : ∀ bound, boundPolicyOfNode node = some bound → riskLevelRank bound.risk ≤ 1 ∨
    taskHasIrreversibleAction definition = true ∧ riskLevelRank bound.risk ≤ 3 ∨
    (∃ first, extractBoundActionPolicy definition = some first ∧
      riskLevelRank bound.risk ≤ riskLevelRank first.risk) ∨
    policyHumanGated definition = true ∧ riskLevelRank bound.risk ≤ 2
  replay : ∀ bound, boundPolicyOfNode node = some bound → bound.replayClass = .nonRetryable →
    taskHasIrreversibleAction definition = true ∨
      ∃ first, extractBoundActionPolicy definition = some first ∧
        first.replayClass = .nonRetryable
  approval : node.metadata.approvalRequired = true →
    definition.metadataDecode = true ∨ namesApproval definition = true

theorem node_of_extractBoundActionPolicy (h : extractBoundActionPolicy definition = some bound) :
    definition.metadataDecode = true ∧
      ∃ node ∈ definition.graphNodes, boundPolicyOfNode node = some bound := by
  rw [extractBoundActionPolicy] at h
  split at h
  · exact ⟨‹_›, List.exists_of_findSome?_eq_some h⟩
  · cases h

/-- The approval of a bound node is one of the flags the search of the nodes finds. -/
theorem policyHumanGated_iff :
    policyHumanGated definition = true ↔ namesApproval definition = true ∨
      definition.metadataDecode = true ∧
        ∃ node ∈ definition.graphNodes, node.metadata.approvalRequired = true := by
  have htask : taskRequiresHumanApproval definition = true ↔ namesApproval definition = true ∨
      definition.metadataDecode = true ∧
        ∃ node ∈ definition.graphNodes, node.metadata.approvalRequired = true := by
    simp only [taskRequiresHumanApproval, ← namesApproval.eq_def]
    split <;> simp_all
  rw [policyHumanGated, Bool.or_eq_true, htask, or_iff_left_iff_imp, Option.any_eq_true]
  rintro ⟨bound, hbound, happroval⟩
  obtain ⟨hdecode, node, hmem, hnode⟩ := node_of_extractBoundActionPolicy hbound
  refine .inr ⟨hdecode, node, hmem, ?_⟩
  rw [boundPolicyOfNode] at hnode
  split at hnode
  · cases hnode
  · rwa [← Option.some.inj hnode] at happroval

variable {input : ActionPolicyInput}

theorem humanGated_iff : (evaluateActionPolicy input).humanGated = true ↔
    policyHumanGated input.taskDefinition = true := by
  simp only [evaluateActionPolicy]

theorem replayClass_iff :
    (evaluateActionPolicy input).replayClass = .nonRetryable ↔
      taskHasIrreversibleAction input.taskDefinition = true ∨
        ∃ first, extractBoundActionPolicy input.taskDefinition = some first ∧
          first.replayClass = .nonRetryable := by
  cases h : taskHasIrreversibleAction input.taskDefinition <;>
    simp [evaluateActionPolicy, h, Option.any_eq_true]

theorem le_riskLevel_iff {rank : Nat} :
    rank ≤ riskLevelRank (evaluateActionPolicy input).riskLevel ↔ rank ≤ 1 ∨
      taskHasIrreversibleAction input.taskDefinition = true ∧ rank ≤ 3 ∨
      (∃ first, extractBoundActionPolicy input.taskDefinition = some first ∧
        rank ≤ riskLevelRank first.risk) ∨
      policyHumanGated input.taskDefinition = true ∧ rank ≤ 2 := by
  have hlow : riskLevelRank "low" = 1 := by decide
  have hmedium : riskLevelRank "medium" = 2 := by decide
  have hhigh : riskLevelRank "high" = 3 := by decide
  -- each rule keeps the larger of its own risk and the risk so far
  simp only [evaluateActionPolicy, policyRisk, apply_ite riskLevelRank]
  cases taskHasIrreversibleAction input.taskDefinition <;>
    cases extractBoundActionPolicy input.taskDefinition <;>
      cases policyHumanGated input.taskDefinition <;>
        simp [apply_ite riskLevelRank, hlow, hmedium, hhigh] <;> grind

/-- A gated task is not allowed to run. -/
theorem decision_ne_allowed (h : policyHumanGated input.taskDefinition = true) :
    (evaluateActionPolicy input).decision ≠ .allowed := by
  simp only [evaluateActionPolicy, policyVerdict, h]
  split
  · simp
  · split <;> simp

theorem covered_iff_meetsDemands {node : GraphNode}
    (hmem : node ∈ input.taskDefinition.graphNodes) :
    Covered input.taskDefinition node ↔ MeetsDemands (evaluateActionPolicy input) node := by
  constructor
  · intro h
    refine ⟨fun bound hbound => le_riskLevel_iff.mpr (h.risk bound hbound),
      fun bound hbound hreplay => replayClass_iff.mpr (h.replay bound hbound hreplay), ?_⟩
    intro happroval
    have hgated : policyHumanGated input.taskDefinition = true :=
      policyHumanGated_iff.mpr
        ((h.approval happroval).symm.imp_right fun hdecode => ⟨hdecode, node, hmem, happroval⟩)
    exact ⟨humanGated_iff.mpr hgated, decision_ne_allowed hgated⟩
  · intro h
    refine ⟨fun bound hbound => le_riskLevel_iff.mp (h.risk bound hbound),
      fun bound hbound hreplay => replayClass_iff.mp (h.replay bound hbound hreplay), ?_⟩
    intro happroval
    have hgated := humanGated_iff.mp (h.approval happroval).1
    exact (policyHumanGated_iff.mp hgated).symm.imp_left And.left

/-- Every node of the smaller definition has a raised one in the larger. -/
theorem Raises.exists_node {definition' : TaskDefinition} (h : Raises definition definition')
    {node : GraphNode} (hmem : node ∈ definition.graphNodes) :
    ∃ node' ∈ definition'.graphNodes, NodeRaised node node' := by
  obtain ⟨kept, hraised, hkept⟩ := List.sublistForall₂_iff.mp h.nodes
  obtain ⟨node', hmem', hnode⟩ := Assoc.exists_of_mem_forall₂ hraised hmem
  exact ⟨node', hkept.subset hmem', hnode⟩

/-- A decision that meets the demands of all nodes is not weaker than the decision
about fewer or less demanding nodes. -/
theorem notWeaker_of_meetsDemands
    (hmeets : ∀ node ∈ input.taskDefinition.graphNodes,
      MeetsDemands (evaluateActionPolicy input) node)
    (h : Raises definition input.taskDefinition) :
    NotWeaker (evaluateActionPolicy { input with taskDefinition := definition })
      (evaluateActionPolicy input) := by
  have hgated : policyHumanGated definition = true →
      policyHumanGated input.taskDefinition = true := by
    intro hold
    obtain hnames | ⟨-, node, hmem, happroval⟩ := policyHumanGated_iff.mp hold
    · exact policyHumanGated_iff.mpr (.inl (h.names hnames))
    · obtain ⟨node', hmem', hnode⟩ := h.exists_node hmem
      exact humanGated_iff.mp ((hmeets node' hmem').approval (hnode.approval happroval)).1
  have hfirst : ∀ first, extractBoundActionPolicy definition = some first →
      riskLevelRank first.risk ≤ riskLevelRank (evaluateActionPolicy input).riskLevel ∧
        (first.replayClass = .nonRetryable →
          (evaluateActionPolicy input).replayClass = .nonRetryable) := by
    intro first hfirst
    obtain ⟨-, node, hmem, hbound⟩ := node_of_extractBoundActionPolicy hfirst
    obtain ⟨node', hmem', hnode⟩ := h.exists_node hmem
    obtain ⟨bound', hbound', hrisk, hreplay⟩ := hnode.bound first hbound
    exact ⟨hrisk.trans ((hmeets node' hmem').risk bound' hbound'),
      fun hfirst => (hmeets node' hmem').replay bound' hbound' (hreplay hfirst)⟩
  refine ⟨?_, ?_, ?_⟩
  · obtain hrisk | ⟨hirr, hrisk⟩ | ⟨first, heq, hrisk⟩ | ⟨hold, hrisk⟩ :=
      le_riskLevel_iff.mp (le_refl (riskLevelRank _))
    · exact le_riskLevel_iff.mpr (.inl hrisk)
    · exact le_riskLevel_iff.mpr (.inr (.inl ⟨h.irreversible hirr, hrisk⟩))
    · exact hrisk.trans (hfirst first heq).1
    · exact le_riskLevel_iff.mpr (.inr (.inr (.inr ⟨hgated hold, hrisk⟩)))
  · intro hold
    obtain hirr | ⟨first, heq, hreplay⟩ := replayClass_iff.mp hold
    · exact replayClass_iff.mpr (.inl (h.irreversible hirr))
    · exact (hfirst first heq).2 hreplay
  · intro hold
    have hgatedOld := humanGated_iff.mp hold
    have hnew := hgated hgatedOld
    exact ⟨humanGated_iff.mpr hnew, decision_ne_allowed hnew⟩

/-- The decision meets the demands of every node, and no definition with fewer or less
demanding nodes gets a stricter one, exactly when the first bound node and the text make
up for all others. -/
theorem strict_iff_covered (input : ActionPolicyInput) :
    ((∀ node ∈ input.taskDefinition.graphNodes, MeetsDemands (evaluateActionPolicy input) node) ∧
      ∀ definition, Raises definition input.taskDefinition →
        NotWeaker (evaluateActionPolicy { input with taskDefinition := definition })
          (evaluateActionPolicy input)) ↔
      ∀ node ∈ input.taskDefinition.graphNodes, Covered input.taskDefinition node := by
  constructor
  · intro h node hmem
    exact (covered_iff_meetsDemands hmem).mpr (h.1 node hmem)
  · intro h
    have hmeets : ∀ node ∈ input.taskDefinition.graphNodes,
        MeetsDemands (evaluateActionPolicy input) node :=
      fun node hmem => (covered_iff_meetsDemands hmem).mp (h node hmem)
    exact ⟨hmeets, fun definition hraises => notWeaker_of_meetsDemands hmeets hraises⟩

/-- A retryable node of low risk. -/
def readNode : GraphNode where
  kind := .tool
  nodeID := "read"
  metadata := { contractHash := "h1", contractBindingID := "b1", contractRisk := "low" }
  text := "\x7b\"node_id\":\"read\",\"kind\":\"tool\",\"metadata\":\x7b\"contract_hash\":\"h1\"," ++
    "\"contract_binding_id\":\"b1\",\"contract_risk\":\"low\"\x7d\x7d"

/-- A critical node that must not be repeated. -/
def wireNode : GraphNode where
  kind := .tool
  nodeID := "wire"
  metadata := { contractHash := "h2", contractBindingID := "b2", contractRisk := "critical",
                replayClass := "non_retryable" }
  text := "\x7b\"node_id\":\"wire\",\"kind\":\"tool\",\"metadata\":\x7b\"contract_hash\":\"h2\"," ++
    "\"contract_binding_id\":\"b2\",\"contract_risk\":\"critical\"," ++
    "\"replay_class\":\"non_retryable\"\x7d\x7d"

/-- A submission of a graph with these nodes. -/
def submissionOf (nodes : List GraphNode) : ActionPolicyInput where
  tenantID := "t"
  taskID := 7
  runtimeID := "r"
  taskDefinition := {
    text := "\x7b\"type\":\"execution_graph\",\"graph\":\x7b\"nodes\":[" ++
      ",".intercalate (nodes.map GraphNode.text) ++ "]\x7d\x7d"
    taskType := .executionGraph
    graphNodes := nodes }

/-- The texts that the searches look for. -/
def searchedTokens : List String :=
  ["\"irreversible\":true", "\"db_write\"", "\"database_write\"", "\"publish_velocity\"",
    "\"navigate_to_pose\"", "\"approval\""]

/-- A definition without these texts, whose nodes ask for no approval. -/
theorem plain_of_tokens {definition : TaskDefinition} {chars : List Char}
    (htext : definition.text = String.ofList chars)
    (hchars : ∀ token ∈ searchedTokens,
      Text.occursIn token.toList (chars.map Text.lowerChar) = false)
    (hnodes : ∀ node ∈ definition.graphNodes, node.metadata.approvalRequired = false) :
    taskHasIrreversibleAction definition = false ∧ policyHumanGated definition = false := by
  have hsearch : ∀ token ∈ searchedTokens,
      Text.contains (Text.toLower definition.text) token = false := by
    intro token htoken
    rw [htext, Text.contains, Text.toLower, String.toList_ofList, String.toList_ofList]
    exact hchars token htoken
  simp only [searchedTokens, List.forall_mem_cons] at hsearch
  refine ⟨by simp [taskHasIrreversibleAction, containsIrreversibleActionToken, hsearch], ?_⟩
  rw [Bool.eq_false_iff, ne_eq, policyHumanGated_iff]
  rintro (hnames | ⟨-, node, hmem, happroval⟩)
  · simp [namesApproval, hsearch] at hnames
  · simp [hnodes node hmem] at happroval

theorem plain_submissionOf : ∀ nodes ∈ [[wireNode], [readNode, wireNode]],
    taskHasIrreversibleAction (submissionOf nodes).taskDefinition = false ∧
      policyHumanGated (submissionOf nodes).taskDefinition = false := by
  simp only [List.forall_mem_cons, List.not_mem_nil, false_imp_iff, implies_true, and_true]
  constructor
  all_goals
    -- the text is put together before the kernel sees it
    refine plain_of_tokens (by
      simp only [submissionOf, wireNode, readNode, List.map, String.intercalate_cons_cons,
        String.intercalate_singleton, String.reduceAppend]
      rfl) (by decide +kernel) (by decide)

/-- The critical node alone is critical.  With a node of low risk before it, the
decision is that of the node of low risk. -/
theorem second_bound_node_ignored :
    (evaluateActionPolicy (submissionOf [wireNode])).riskLevel = "critical" ∧
      (evaluateActionPolicy (submissionOf [wireNode])).replayClass = .nonRetryable ∧
      (evaluateActionPolicy (submissionOf [readNode, wireNode])).riskLevel = "low" ∧
      (evaluateActionPolicy (submissionOf [readNode, wireNode])).replayClass = .retryable := by
  obtain ⟨hwire, hgated⟩ := plain_submissionOf [wireNode] (by simp)
  obtain ⟨hpair, hgatedPair⟩ := plain_submissionOf [readNode, wireNode] (by simp)
  simp only [evaluateActionPolicy, policyRisk, hwire, hgated, hpair, hgatedPair]
  decide +kernel

end Strictness

end Coordinator
end Igris
