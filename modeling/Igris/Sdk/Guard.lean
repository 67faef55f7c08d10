import Igris.Api.EvidenceVerify
import Igris.Sdk.JournalCrash

/-!
# Guarded calls

A guarded function records a decision before it runs and an outcome after it ran.  Calls
may be nested or run at the same time, so that decisions and outcomes interleave.

Main results:

- Theorem {lit}`guardAfter_journal`: the journal of any sequence of guarded calls holds the
  recorded events and verifies.
- Theorem {lit}`honest_of_recorded`: each outcome follows the one decision that it refers to.
-/

namespace Igris
namespace Sdk

open Json

/-! ## Contracts -/

structure ParameterDescriptor where
  name : String
  kind : String
  hasDefault : Bool
  annotation : Option String
deriving DecidableEq, Repr

/-- What is known about the function that is guarded. -/
structure TargetFunction where
  moduleName : Option String
  qualifiedName : Option String
  name : Option String
  /-- Coroutines and generators are refused. -/
  supported : Bool
  parameters : List ParameterDescriptor
  /-- The source without its indentation, if it is available. -/
  source : Option String
deriving DecidableEq, Repr

structure ActionContract where
  actionName : String
  moduleName : String
  qualifiedName : String
  risk : String
  approvalMode : String
  contractHash : String
deriving DecidableEq, Repr

def ActionContract.actionID (contract : ActionContract) : String :=
  contract.moduleName ++ "." ++ contract.qualifiedName

/-- A text that is there and not empty. -/
def orElse (text : Option String) (other : String) : String :=
  match text with
  | none => other
  | some text => if text = "" then other else text

def TargetFunction.module (target : TargetFunction) : String := orElse target.moduleName "unknown"

def TargetFunction.qualname (target : TargetFunction) : String :=
  orElse target.qualifiedName (target.name.getD "unknown")

/-- A name that matches up to a line break at its end, as {lit}`$` does in Python. -/
def matchesActionName (name : String) : Bool :=
  Evidence.isActionName name ||
    (match name.toList.getLast? with
      | some '\n' => Evidence.isActionName (String.ofList name.toList.dropLast)
      | _ => false)

inductive ContractError where
  | unsupportedFunction
  | invalidRisk
  | invalidApproval
  | invalidActionName
deriving DecidableEq, Repr

def descriptorJson (descriptor : ParameterDescriptor) : Json :=
  objectOf [("name", some (.string descriptor.name)), ("kind", some (.string descriptor.kind)),
    ("has_default", some (.bool descriptor.hasDefault)),
    ("annotation", some (previousValue descriptor.annotation))]

/-- The contract without its hash. -/
def unsignedContract (sha256 : String → List UInt8) (target : TargetFunction)
    (actionName risk approval : String) : Json :=
  objectOf [("schema_version", some (.string "1")),
    ("action_name", some (.string actionName)),
    ("module", some (.string target.module)),
    ("qualified_name", some (.string target.qualname)),
    ("risk", some (.string risk)),
    ("approval_mode", some (.string approval)),
    ("execution_mode", some (.string "embedded")),
    ("parameter_descriptors", some (.array (target.parameters.map descriptorJson))),
    ("code_fingerprint", some (previousValue (target.source.map (sha256Hex sha256))))]

def buildContract (sha256 : String → List UInt8) (target : TargetFunction)
    (action : Option String) (risk approval : String) : Except ContractError ActionContract :=
  if !target.supported then .error .unsupportedFunction
  else if risk ∉ ["low", "medium", "high", "critical"] then .error .invalidRisk
  else if approval ∉ ["required", "never"] then .error .invalidApproval
  else if action.any fun name => !matchesActionName name then .error .invalidActionName
  else
    -- a name that is derived is not checked
    let actionName := action.getD (target.module ++ "." ++ target.qualname)
    .ok {
      actionName := actionName
      moduleName := target.module
      qualifiedName := target.qualname
      risk := risk
      approvalMode := approval
      contractHash :=
        sha256Hex sha256 (canonicalText (unsignedContract sha256 target actionName risk approval)) }

/-! ## Calls -/

/-- What is new for each event: its id and the time. -/
structure Stamp where
  eventID : String
  timestampUTC : String
deriving DecidableEq, Repr

/-- A call of a guarded function.  The verdict of the approval provider is {lit}`none` if the
provider fails; then nothing is recorded. -/
structure GuardedCall (py : Interpreter) where
  target : TargetFunction
  action : Option String
  risk : String
  approval : String
  metadata : Option { value : Json // Ordered value ∧ Stable py value }
  redactedInputSummary : String
  inputHash : String
  verdict : Option Bool

/-- A call of a guarded function, or the end of one that was allowed. -/
inductive GuardStep (py : Interpreter) where
  | call (call : GuardedCall py) (stamp : Stamp)
  | finish (position : Nat) (result : OutcomeResult) (stamp : Stamp)

/-- A function that was allowed to run and has not returned. -/
structure PendingCall where
  contract : ActionContract
  decisionEventID : String

structure GuardState where
  file : List UInt8 := []
  pending : List PendingCall := []

variable {py : Interpreter}

def GuardedCall.allowed (call : GuardedCall py) : Option Bool :=
  if call.approval = "never" then some true else call.verdict

def draftOf (contract : ActionContract) (stamp : Stamp) (evidence : Evidence py) :
    EventDraft py where
  eventID := stamp.eventID
  actionID := contract.actionID
  actionName := contract.actionName
  contractHash := contract.contractHash
  timestampUTC := stamp.timestampUTC
  evidence := evidence

def GuardedCall.evidence (call : GuardedCall py) (allowed : Bool) : Evidence py :=
  .decision allowed call.risk call.approval call.redactedInputSummary call.inputHash call.metadata

/-- The draft that a step hands to the journal, if it gets that far. -/
def GuardStep.draft (sha256 : String → List UInt8) (pending : List PendingCall) :
    GuardStep py → Option (EventDraft py)
  | .call guarded stamp =>
      match buildContract sha256 guarded.target guarded.action guarded.risk guarded.approval,
        guarded.allowed with
      | .ok contract, some allowed => some (draftOf contract stamp (guarded.evidence allowed))
      | _, _ => none
  | .finish position result stamp =>
      pending[position]?.map fun running =>
        draftOf running.contract stamp (.outcome result running.decisionEventID)

/-- The calls that are running after a step.  A call runs once its decision is recorded. -/
def GuardStep.pendingAfter (sha256 : String → List UInt8) (pending : List PendingCall)
    (recorded : Bool) : GuardStep py → List PendingCall
  | .call guarded stamp =>
      match buildContract sha256 guarded.target guarded.action guarded.risk guarded.approval,
        guarded.allowed with
      | .ok contract, some true =>
          if recorded then pending ++ [⟨contract, stamp.eventID⟩] else pending
      | _, _ => pending
  | .finish position _ _ => pending.eraseIdx position

def GuardStep.apply (identity : SigningIdentity) (state : GuardState) (step : GuardStep py) :
    GuardState :=
  match step.draft identity.sha256 state.pending with
  | none => ⟨state.file, step.pendingAfter identity.sha256 state.pending false⟩
  | some draft =>
      match appendEvent identity state.file draft with
      | .ok (_, file) => ⟨file, step.pendingAfter identity.sha256 state.pending true⟩
      | .error _ => ⟨state.file, step.pendingAfter identity.sha256 state.pending false⟩

/-- The journal and the running calls after some steps. -/
def guardAfter (identity : SigningIdentity) (steps : List (GuardStep py)) : GuardState :=
  steps.foldl (GuardStep.apply identity) {}

/-! ## What is written -/

/-- The events of some drafts, written one after the other. -/
def written (identity : SigningIdentity) (previous : Option String) :
    List (EventDraft py) → List Json
  | [] => []
  | draft :: drafts =>
      draft.event identity previous ::
        written identity (storedHash (draft.event identity previous)) drafts

variable {identity : SigningIdentity} {previous : Option String}

theorem written_append (a b : List (EventDraft py)) :
    written identity previous (a ++ b) =
      written identity previous a ++
        written identity (HashChain.tip storedHash previous (written identity previous a)) b := by
  induction a generalizing previous with
  | nil => rfl
  | cons draft a ih =>
      rw [List.cons_append, written, written, ih, HashChain.tip_cons, List.cons_append]

variable (drafts : List (EventDraft py))

theorem length_written : (written identity previous drafts).length = drafts.length := by
  induction drafts generalizing previous with
  | nil => rfl
  | cons draft drafts ih => simp [written, ih]

/-- What is written before some events was written from the drafts before theirs. -/
theorem written_eq_append {drafts : List (EventDraft py)} {a b : List Json}
    (h : written identity previous drafts = a ++ b) :
    ∃ before after, drafts = before ++ after ∧ a = written identity previous before ∧
      b = written identity (HashChain.tip storedHash previous a) after := by
  have hsplit : drafts = drafts.take a.length ++ drafts.drop a.length := by simp
  rw [hsplit, written_append] at h
  have hlength : a.length ≤ drafts.length := by
    have htotal := congrArg List.length h
    simp only [List.length_append, length_written] at htotal
    rw [← List.length_append, ← hsplit] at htotal
    omega
  have htake : (written identity previous (drafts.take a.length)).length = a.length := by
    rw [length_written, List.length_take, Nat.min_eq_left hlength]
  obtain ⟨hbefore, hafter⟩ := List.append_inj h htake
  exact ⟨drafts.take a.length, drafts.drop a.length, hsplit, hbefore.symm, by rw [← hafter, hbefore]⟩

theorem lastHash_eq_tip (events : List Json) :
    lastHash events = HashChain.tip storedHash none events := by
  cases h : events.getLast? <;> simp [lastHash, HashChain.tip, h]

theorem complete_written : Complete py identity (written identity none drafts) := by
  induction drafts using List.reverseRecOn with
  | nil => exact .nil
  | append_singleton drafts draft ih =>
      have happend := ih.append draft
      rw [lastHash_eq_tip] at happend
      rw [written_append]
      exact happend

theorem appendEvent_written (draft : EventDraft py) :
    ∃ event, appendEvent identity (journalOf (written identity none drafts)) draft =
      .ok (event, journalOf (written identity none (drafts ++ [draft]))) := by
  rw [(complete_written drafts).appendEvent, lastHash_eq_tip, written_append]
  exact ⟨_, rfl⟩

/-! ## Histories -/

/-- The decision of a draft; {lit}`none` for an outcome. -/
def EventDraft.decided (draft : EventDraft py) : Option Bool :=
  match draft.evidence with
  | .decision allowed .. => some allowed
  | .outcome .. => none

/-- The decision that an outcome refers to; {lit}`none` for a decision. -/
def EventDraft.concluded (draft : EventDraft py) : Option String :=
  match draft.evidence with
  | .decision .. => none
  | .outcome _ decisionEventID => some decisionEventID

/-- Outcomes come after the decision that allowed the call, once for each decision, and
no two events have the same id. -/
structure Honest (drafts : List (EventDraft py)) : Prop where
  ids_nodup : (drafts.map EventDraft.eventID).Nodup
  concluded : ∀ before draft after, drafts = before ++ draft :: after →
    ∀ id, draft.concluded = some id →
      (∃ decision ∈ before, decision.eventID = id ∧ decision.decided = some true) ∧
      ∀ other ∈ before, other.concluded ≠ some id

/-- The drafts that steps hand to the journal, and the calls that are running after them. -/
def recordedFrom (sha256 : String → List UInt8) (pending : List PendingCall) :
    List (GuardStep py) → List (EventDraft py) × List PendingCall
  | [] => ([], pending)
  | step :: steps =>
      let draft := step.draft sha256 pending
      let rest := recordedFrom sha256 (step.pendingAfter sha256 pending draft.isSome) steps
      (draft.toList ++ rest.1, rest.2)

variable {sha256 : String → List UInt8} {pending : List PendingCall}

/-- The journal holds what was recorded. -/
theorem foldl_apply (pending : List PendingCall) (steps : List (GuardStep py)) :
    steps.foldl (GuardStep.apply identity) ⟨journalOf (written identity none drafts), pending⟩ =
      ⟨journalOf (written identity none
          (drafts ++ (recordedFrom identity.sha256 pending steps).1)),
        (recordedFrom identity.sha256 pending steps).2⟩ := by
  induction steps generalizing drafts pending with
  | nil => simp [recordedFrom]
  | cons step steps ih =>
      rw [List.foldl_cons, GuardStep.apply, recordedFrom]
      cases hdraft : step.draft identity.sha256 pending with
      | none => exact ih drafts _
      | some draft =>
          obtain ⟨event, happend⟩ : ∃ event,
              appendEvent identity (journalOf (written identity none drafts)) draft =
                .ok (event, journalOf (written identity none (drafts ++ [draft]))) :=
            appendEvent_written drafts draft
          simp only [happend]
          rw [ih]
          simp

/-- The journal of any sequence of guarded calls verifies. -/
theorem guardAfter_journal (steps : List (GuardStep py)) :
    (guardAfter identity steps).file =
      journalOf (written identity none (recordedFrom identity.sha256 [] steps).1) := by
  have hfold : guardAfter identity steps = _ := foldl_apply [] [] steps
  rw [hfold, List.nil_append]

/-- Calls that were allowed and have no outcome yet. -/
structure Running (drafts : List (EventDraft py)) (pending : List PendingCall) : Prop where
  allowed : ∀ running ∈ pending, ∃ decision ∈ drafts,
    decision.eventID = running.decisionEventID ∧ decision.decided = some true
  open_ : ∀ running ∈ pending, ∀ other ∈ drafts,
    other.concluded ≠ some running.decisionEventID
  nodup : (pending.map PendingCall.decisionEventID).Nodup

variable {draft : EventDraft py}

theorem Honest.append {drafts : List (EventDraft py)} (h : Honest drafts)
    (hfresh : draft.eventID ∉ drafts.map EventDraft.eventID)
    (hconcluded : ∀ id, draft.concluded = some id →
      (∃ decision ∈ drafts, decision.eventID = id ∧ decision.decided = some true) ∧
      ∀ other ∈ drafts, other.concluded ≠ some id) :
    Honest (drafts ++ [draft]) where
  ids_nodup := by
    rw [List.map_append, List.nodup_append]
    exact ⟨h.ids_nodup, by simp, by simpa using hfresh⟩
  concluded := by
    intro before other after heq
    obtain rfl | ⟨after, last, rfl⟩ := after.eq_nil_or_concat'
    · obtain ⟨rfl, hlast⟩ := List.append_inj' heq rfl
      obtain rfl := List.singleton_inj.mp hlast
      exact hconcluded
    · rw [← List.cons_append, ← List.append_assoc] at heq
      exact h.concluded before other after (List.append_inj' heq rfl).1

theorem Honest.nil : Honest ([] : List (EventDraft py)) where
  ids_nodup := List.nodup_nil
  concluded := by simp

theorem Running.nil : Running ([] : List (EventDraft py)) [] where
  allowed := by simp
  open_ := by simp
  nodup := List.nodup_nil

def GuardStep.stamp : GuardStep py → Stamp
  | .call _ stamp => stamp
  | .finish _ _ stamp => stamp

theorem GuardStep.eventID_draft {step : GuardStep py} (h : step.draft sha256 pending = some draft) :
    draft.eventID = step.stamp.eventID := by
  cases step with
  | call guarded stamp =>
      rw [GuardStep.draft] at h
      split at h
      · obtain rfl := Option.some.inj h
        rfl
      · simp at h
  | finish position result stamp =>
      obtain ⟨running, -, rfl⟩ := Option.map_eq_some_iff.mp h
      rfl

section Step

variable {drafts : List (EventDraft py)}

/-- What is recorded keeps to the order of decisions and outcomes. -/
theorem Honest.step (h : Honest drafts) (hrunning : Running drafts pending) {step : GuardStep py}
    (hdraft : step.draft sha256 pending = some draft)
    (hfresh : step.stamp.eventID ∉ drafts.map EventDraft.eventID) : Honest (drafts ++ [draft]) := by
  refine h.append (GuardStep.eventID_draft hdraft ▸ hfresh) ?_
  intro id hid
  cases step with
  | call guarded stamp =>
      rw [GuardStep.draft] at hdraft
      split at hdraft
      · obtain rfl := Option.some.inj hdraft
        simp [EventDraft.concluded, draftOf, GuardedCall.evidence] at hid
      · simp at hdraft
  | finish position result stamp =>
      obtain ⟨running, hget, rfl⟩ := Option.map_eq_some_iff.mp hdraft
      obtain rfl : running.decisionEventID = id := by
        simpa [EventDraft.concluded, draftOf] using hid
      have hmem := List.mem_of_getElem? hget
      exact ⟨hrunning.allowed running hmem, hrunning.open_ running hmem⟩

/-- Nothing was recorded: no call starts. -/
theorem Running.skip (h : Running drafts pending) {step : GuardStep py} :
    Running drafts (step.pendingAfter sha256 pending false) := by
  have hsublist : (step.pendingAfter sha256 pending false).Sublist pending := by
    cases step with
    | call guarded stamp =>
        rw [GuardStep.pendingAfter]
        split <;> simp
    | finish position result stamp => exact List.eraseIdx_sublist _ _
  exact ⟨fun running hmem => h.allowed running (hsublist.subset hmem),
    fun running hmem => h.open_ running (hsublist.subset hmem),
    h.nodup.sublist (hsublist.map _)⟩

/-- A decision is recorded, and possibly a call starts. -/
theorem Running.call (h : Running drafts pending) (hhonest : Honest drafts)
    {guarded : GuardedCall py} {stamp : Stamp}
    (hdraft : (GuardStep.call guarded stamp).draft sha256 pending = some draft)
    (hfresh : stamp.eventID ∉ drafts.map EventDraft.eventID) :
    Running (drafts ++ [draft])
      ((GuardStep.call guarded stamp).pendingAfter sha256 pending true) := by
  rw [GuardStep.draft] at hdraft
  split at hdraft
  case h_2 => simp at hdraft
  case h_1 contract allowed hcontract hallowed =>
    obtain rfl := Option.some.inj hdraft
    -- a decision is no outcome, so the old calls are as they were
    have hold : Running (drafts ++ [draftOf contract stamp (guarded.evidence allowed)]) pending := by
      refine ⟨?_, ?_, h.nodup⟩
      · intro running hmem
        obtain ⟨decision, hdecision, hid⟩ := h.allowed running hmem
        exact ⟨decision, List.mem_append_left _ hdecision, hid⟩
      · intro running hmem other hother
        obtain hbefore | hnew := List.mem_append.mp hother
        · exact h.open_ running hmem other hbefore
        · obtain rfl := List.mem_singleton.mp hnew
          simp [EventDraft.concluded, draftOf, GuardedCall.evidence]
    cases allowed with
    | false => simpa [GuardStep.pendingAfter, hcontract, hallowed] using hold
    | true =>
        simp only [GuardStep.pendingAfter, hcontract, hallowed, if_true]
        refine ⟨?_, ?_, ?_⟩
        · rw [List.forall_mem_append, List.forall_mem_singleton]
          exact ⟨hold.allowed, _, List.mem_append_right _ List.mem_cons_self, rfl, rfl⟩
        · rw [List.forall_mem_append, List.forall_mem_singleton]
          refine ⟨hold.open_, ?_⟩
          intro other hother hconcluded
          obtain hbefore | hnew := List.mem_append.mp hother
          · -- an earlier outcome would refer to an earlier decision with the new id
            obtain ⟨before, after, rfl⟩ := List.append_of_mem hbefore
            obtain ⟨⟨decision, hdecision, hid, -⟩, -⟩ :=
              hhonest.concluded before other after rfl _ hconcluded
            exact hfresh (List.mem_map.mpr ⟨decision, List.mem_append_left _ hdecision, hid⟩)
          · obtain rfl := List.mem_singleton.mp hnew
            simp [EventDraft.concluded, draftOf, GuardedCall.evidence] at hconcluded
        · rw [List.map_append, List.nodup_append]
          refine ⟨h.nodup, by simp, ?_⟩
          intro id hid other hother
          obtain ⟨running, hmem, rfl⟩ := List.mem_map.mp hid
          obtain ⟨decision, hdecision, hsame, -⟩ := h.allowed running hmem
          obtain rfl : other = stamp.eventID := by simpa using hother
          intro heq
          exact hfresh (heq ▸ hsame ▸ List.mem_map_of_mem hdecision)

/-- An outcome is recorded, and the call has ended. -/
theorem Running.finish (h : Running drafts pending) {position : Nat} {result : OutcomeResult}
    {stamp : Stamp}
    (hdraft : (GuardStep.finish position result stamp).draft sha256 pending = some draft) :
    Running (drafts ++ [draft]) (pending.eraseIdx position) := by
  obtain ⟨ended, hended, rfl⟩ := Option.map_eq_some_iff.mp hdraft
  have hsublist : (pending.eraseIdx position).Sublist pending := List.eraseIdx_sublist _ _
  refine ⟨?_, ?_, h.nodup.sublist (hsublist.map _)⟩
  · intro running hmem
    obtain ⟨decision, hdecision, hid⟩ := h.allowed running (hsublist.subset hmem)
    exact ⟨decision, List.mem_append_left _ hdecision, hid⟩
  · intro running hmem other hother
    obtain hbefore | hnew := List.mem_append.mp hother
    · exact h.open_ running (hsublist.subset hmem) other hbefore
    · obtain rfl := List.mem_singleton.mp hnew
      intro heq
      have hid : ended.decisionEventID = running.decisionEventID := by
        simpa [EventDraft.concluded, draftOf] using heq
      -- the two calls stand at different places
      obtain ⟨i, hi, hrunning⟩ := List.mem_eraseIdx_iff_getElem?.mp hmem
      have hlt : i < (pending.map PendingCall.decisionEventID).length := by
        obtain ⟨hlt, -⟩ := List.getElem?_eq_some_iff.mp hrunning
        simpa using hlt
      apply hi
      apply (List.getElem?_inj hlt h.nodup).mp
      rw [List.getElem?_map, List.getElem?_map, hrunning, hended]
      simp [hid]

end Step

/-- Whatever guarded calls record keeps to the order of decisions and outcomes. -/
theorem honest_of_recorded {drafts : List (EventDraft py)} (h : Honest drafts)
    (hrunning : Running drafts pending) {steps : List (GuardStep py)}
    (hids : (drafts.map EventDraft.eventID ++ steps.map fun step => step.stamp.eventID).Nodup) :
    Honest (drafts ++ (recordedFrom sha256 pending steps).1) := by
  induction steps generalizing drafts pending with
  | nil => simpa [recordedFrom] using h
  | cons step steps ih =>
      have hfresh : step.stamp.eventID ∉ drafts.map EventDraft.eventID := by
        intro hmem
        exact (List.nodup_append.mp hids).2.2 _ hmem _ (by simp) rfl
      rw [recordedFrom]
      cases hdraft : step.draft sha256 pending with
      | none =>
          refine ih h hrunning.skip (hids.sublist ?_)
          exact (List.Sublist.refl _).append (List.sublist_cons_self _ _)
      | some draft =>
          have hnext : Running (drafts ++ [draft]) (step.pendingAfter sha256 pending true) := by
            cases step with
            | call guarded stamp => exact hrunning.call h hdraft hfresh
            | finish position result stamp => exact hrunning.finish hdraft
          have hrest := ih (h.step hrunning hdraft hfresh) hnext (by
            simpa [GuardStep.eventID_draft hdraft] using hids)
          simpa using hrest

end Sdk
end Igris
