import Igris.Coordinator.Envelope
import Igris.Lib.Record
import Igris.Lib.Signature

/-!
# Signed artifacts

The coordinator signs permission envelopes and policy decisions over a canonical map, and
sends them to the runtime as JSON.  The runtime reads them back and computes the canonical
map again.

Main results:

- Theorems {lit}`TaskPermissionEnvelope.ofJson_toJson` and
  {lit}`GovernedAction.ofJson_toJson`: the runtime reads what the coordinator sent.
- Theorem {lit}`artifacts_verify_iff`: a signature verifies exactly if no text of the
  artifact has a character that only the Go library escapes.
-/

namespace Igris
namespace Coordinator

open Json

/-- An action of a robot that needs a decision. -/
structure GovernedAction where
  schemaVersion : String
  domain : String
  actionType : String
  actionName : String
  nodeID : String
  stepIndex : UInt32
  target : Option String
  requiresPolicy : Bool
  safetyModeRequired : Bool
deriving DecidableEq, Repr

structure SignedGovernedPolicyDecision where
  schemaVersion : String
  decisionID : String
  tenantID : String
  taskID : String
  runtimeID : Option String
  action : GovernedAction
  permit : Bool
  reason : String
  policyVersion : String
  runtimePermitted : Bool
  tenantPermitted : Bool
  policyPermitted : Bool
  robotModePermitted : Bool
  issuedAtUnixMs : Int
  expiresAtUnixMs : Int
  signerKeyVersion : Option String
  signature : String
deriving DecidableEq, Repr

/-! ## Canonical maps of the coordinator -/

def canonicalAgentIdentity (identity : AgentIdentity) : Json :=
  objectOf [
    ("acting_on_behalf_of", some (.string identity.actingOnBehalfOf)),
    ("agent_id", some (.string identity.agentID)),
    ("delegation_chain", some (.array (identity.delegationChain.map .string))),
    ("principal_id", some (.string identity.principalID)),
    ("submitted_by", some (.string identity.submittedBy))]

def canonicalCapabilityDecisions (decisions : List CapabilityDecision) : List Json :=
  decisions.map fun decision => objectOf [
    ("capability", some (.string decision.capability)),
    ("permit", some (.bool decision.permit)),
    ("policy_version", some (.string decision.policyVersion)),
    ("reason", some (.string decision.reason))]

def canonicalCredentialReferences (refs : List CredentialReference) : List Json :=
  refs.map fun ref => objectOf [
    ("capability", some (.string ref.capability)),
    ("expires_at_unix_ms", some (.number ref.expiresAtUnixMs.repr)),
    ("reference_id", some (.string ref.referenceID)),
    ("revocable", some (.bool ref.revocable)),
    ("scope", some (.string ref.scope)),
    ("task_id", some (.string ref.taskID)),
    ("tenant_id", some (.string ref.tenantID)),
    ("tool", some (.string ref.tool))]

def canonicalTaskPermissionEnvelope (envelope : TaskPermissionEnvelope) : Json :=
  objectOf [
    ("agent_identity", some (canonicalAgentIdentity envelope.agentIdentity)),
    ("credential_refs", some (.array (canonicalCredentialReferences envelope.credentialRefs))),
    ("decisions", some (.array (canonicalCapabilityDecisions envelope.decisions))),
    ("envelope_id", some (.string envelope.envelopeID)),
    ("expires_at_unix_ms", some (.number envelope.expiresAtUnixMs.repr)),
    ("issued_at_unix_ms", some (.number envelope.issuedAtUnixMs.repr)),
    ("required_capabilities", some (.array (envelope.requiredCapabilities.map .string))),
    ("schema_version", some (.string envelope.schemaVersion)),
    ("task_id", some (.string envelope.taskID)),
    ("tenant_id", some (.string envelope.tenantID)),
    ("runtime_id", envelope.runtimeID.map .string),
    ("signer_key_version", envelope.signerKeyVersion.map .string)]

def canonicalGovernedAction (action : GovernedAction) : Json :=
  objectOf [
    ("action_name", some (.string action.actionName)),
    ("action_type", some (.string action.actionType)),
    ("domain", some (.string action.domain)),
    ("node_id", some (.string action.nodeID)),
    ("requires_policy", some (.bool action.requiresPolicy)),
    ("safety_mode_required", some (.bool action.safetyModeRequired)),
    ("schema_version", some (.string action.schemaVersion)),
    ("step_index", some (.number action.stepIndex.toNat.repr)),
    ("target", action.target.map .string)]

def canonicalGovernedPolicyDecision (decision : SignedGovernedPolicyDecision) : Json :=
  objectOf [
    ("action", some (canonicalGovernedAction decision.action)),
    ("decision_id", some (.string decision.decisionID)),
    ("expires_at_unix_ms", some (.number decision.expiresAtUnixMs.repr)),
    ("issued_at_unix_ms", some (.number decision.issuedAtUnixMs.repr)),
    ("permit", some (.bool decision.permit)),
    ("policy_permitted", some (.bool decision.policyPermitted)),
    ("policy_version", some (.string decision.policyVersion)),
    ("reason", some (.string decision.reason)),
    ("robot_mode_permitted", some (.bool decision.robotModePermitted)),
    ("runtime_permitted", some (.bool decision.runtimePermitted)),
    ("schema_version", some (.string decision.schemaVersion)),
    ("task_id", some (.string decision.taskID)),
    ("tenant_id", some (.string decision.tenantID)),
    ("tenant_permitted", some (.bool decision.tenantPermitted)),
    ("runtime_id", decision.runtimeID.map .string),
    ("signer_key_version", decision.signerKeyVersion.map .string)]

def signTaskPermissionEnvelope (scheme : Signing) (envelope : TaskPermissionEnvelope) : String :=
  scheme.signText (goText (canonicalTaskPermissionEnvelope envelope))

def signGovernedPolicyDecision (scheme : Signing) (decision : SignedGovernedPolicyDecision) :
    String :=
  scheme.signText (goText (canonicalGovernedPolicyDecision decision))

/-- The envelope that is sent. -/
def TaskPermissionEnvelope.signed (scheme : Signing) (envelope : TaskPermissionEnvelope) :
    TaskPermissionEnvelope :=
  { envelope with signature := signTaskPermissionEnvelope scheme envelope }

/-- The decision that is sent. -/
def SignedGovernedPolicyDecision.signed (scheme : Signing)
    (decision : SignedGovernedPolicyDecision) : SignedGovernedPolicyDecision :=
  { decision with signature := signGovernedPolicyDecision scheme decision }

/-! ## Transfer

The members as the tags of the Go structures name them, and the defaults that the runtime
fills in for the omitted ones. -/

theorem eq_empty_of_isEmpty (text : String) (h : text.isEmpty = true) : text = "" := by
  simpa using h

theorem eq_nil_of_isEmpty {α : Type} (items : List α) (h : items.isEmpty = true) :
    items = [] := by
  simpa using h

def agentIdentityFields (identity : AgentIdentity) : List (String × Option Json) :=
  [("agent_id", Codec.text.omitEmpty String.isEmpty identity.agentID),
    ("principal_id", Codec.text.omitEmpty String.isEmpty identity.principalID),
    ("submitted_by", Codec.text.omitEmpty String.isEmpty identity.submittedBy),
    ("acting_on_behalf_of", Codec.text.omitEmpty String.isEmpty identity.actingOnBehalfOf),
    ("delegation_chain", Codec.text.list.omitEmpty List.isEmpty identity.delegationChain)]

def readAgentIdentity (value : Json) : Option AgentIdentity := do
  let agentID ← Codec.text.defaulted "" value "agent_id"
  let principalID ← Codec.text.defaulted "" value "principal_id"
  let submittedBy ← Codec.text.defaulted "" value "submitted_by"
  let actingOnBehalfOf ← Codec.text.defaulted "" value "acting_on_behalf_of"
  let delegationChain ← Codec.text.list.defaulted [] value "delegation_chain"
  return { agentID, principalID, submittedBy, actingOnBehalfOf, delegationChain }

def agentIdentityCodec : Codec AgentIdentity where
  encode identity := objectOf (agentIdentityFields identity)
  decode := readAgentIdentity
  decode_encode identity := by
    have hkeys : ((agentIdentityFields identity).map Prod.fst).Nodup := by
      simp [agentIdentityFields]
    have hget (key : String) := get_objectOf hkeys key
    have hagentID := Codec.defaulted_of_get eq_empty_of_isEmpty (hget "agent_id")
    have hprincipalID := Codec.defaulted_of_get eq_empty_of_isEmpty (hget "principal_id")
    have hsubmittedBy := Codec.defaulted_of_get eq_empty_of_isEmpty (hget "submitted_by")
    have hactingOnBehalfOf :=
      Codec.defaulted_of_get eq_empty_of_isEmpty (hget "acting_on_behalf_of")
    have hdelegationChain := Codec.defaulted_of_get eq_nil_of_isEmpty (hget "delegation_chain")
    simp [readAgentIdentity, hagentID, hprincipalID, hsubmittedBy, hactingOnBehalfOf,
      hdelegationChain]

def capabilityDecisionFields (decision : CapabilityDecision) : List (String × Option Json) :=
  [("capability", some (Codec.text.encode decision.capability)),
    ("permit", some (Codec.bool.encode decision.permit)),
    ("reason", some (Codec.text.encode decision.reason)),
    ("policy_version", some (Codec.text.encode decision.policyVersion))]

def readCapabilityDecision (value : Json) : Option CapabilityDecision := do
  let capability ← Codec.text.required value "capability"
  let permit ← Codec.bool.required value "permit"
  let reason ← Codec.text.required value "reason"
  let policyVersion ← Codec.text.required value "policy_version"
  return { capability, permit, reason, policyVersion }

def capabilityDecisionCodec : Codec CapabilityDecision where
  encode decision := objectOf (capabilityDecisionFields decision)
  decode := readCapabilityDecision
  decode_encode decision := by
    have hkeys : ((capabilityDecisionFields decision).map Prod.fst).Nodup := by
      simp [capabilityDecisionFields]
    simp only [readCapabilityDecision, Codec.required, get_objectOf hkeys]
    simp [capabilityDecisionFields, List.lookup]

def credentialReferenceFields (ref : CredentialReference) : List (String × Option Json) :=
  [("reference_id", some (Codec.text.encode ref.referenceID)),
    ("tenant_id", some (Codec.text.encode ref.tenantID)),
    ("task_id", some (Codec.text.encode ref.taskID)),
    ("tool", Codec.text.omitEmpty String.isEmpty ref.tool),
    ("capability", Codec.text.omitEmpty String.isEmpty ref.capability),
    ("scope", Codec.text.omitEmpty String.isEmpty ref.scope),
    ("expires_at_unix_ms", some (Codec.int.encode ref.expiresAtUnixMs)),
    ("revocable", some (Codec.bool.encode ref.revocable))]

def readCredentialReference (value : Json) : Option CredentialReference := do
  let referenceID ← Codec.text.required value "reference_id"
  let tenantID ← Codec.text.required value "tenant_id"
  let taskID ← Codec.text.required value "task_id"
  let tool ← Codec.text.defaulted "" value "tool"
  let capability ← Codec.text.defaulted "" value "capability"
  let scope ← Codec.text.defaulted "" value "scope"
  let expiresAtUnixMs ← Codec.int.required value "expires_at_unix_ms"
  let revocable ← Codec.bool.required value "revocable"
  return {
    referenceID, tenantID, taskID, tool, capability, scope, expiresAtUnixMs, revocable }

def credentialReferenceCodec : Codec CredentialReference where
  encode ref := objectOf (credentialReferenceFields ref)
  decode := readCredentialReference
  decode_encode ref := by
    have hkeys : ((credentialReferenceFields ref).map Prod.fst).Nodup := by
      simp [credentialReferenceFields]
    have hget (key : String) := get_objectOf hkeys key
    have htool := Codec.defaulted_of_get eq_empty_of_isEmpty (hget "tool")
    have hcapability := Codec.defaulted_of_get eq_empty_of_isEmpty (hget "capability")
    have hscope := Codec.defaulted_of_get eq_empty_of_isEmpty (hget "scope")
    simp only [readCredentialReference, Codec.required, hget, htool, hcapability, hscope]
    simp [credentialReferenceFields, List.lookup]

def taskPermissionEnvelopeFields (envelope : TaskPermissionEnvelope) :
    List (String × Option Json) :=
  [("schema_version", some (Codec.text.encode envelope.schemaVersion)),
    ("envelope_id", some (Codec.text.encode envelope.envelopeID)),
    ("tenant_id", some (Codec.text.encode envelope.tenantID)),
    ("task_id", some (Codec.text.encode envelope.taskID)),
    ("runtime_id", envelope.runtimeID.map Codec.text.encode),
    ("agent_identity", some (agentIdentityCodec.encode envelope.agentIdentity)),
    ("required_capabilities", some (Codec.text.list.encode envelope.requiredCapabilities)),
    ("decisions", some (capabilityDecisionCodec.list.encode envelope.decisions)),
    ("credential_refs",
      credentialReferenceCodec.list.omitEmpty List.isEmpty envelope.credentialRefs),
    ("issued_at_unix_ms", some (Codec.int.encode envelope.issuedAtUnixMs)),
    ("expires_at_unix_ms", some (Codec.int.encode envelope.expiresAtUnixMs)),
    ("signer_key_version", envelope.signerKeyVersion.map Codec.text.encode),
    ("signature", some (Codec.text.encode envelope.signature))]

def TaskPermissionEnvelope.toJson (envelope : TaskPermissionEnvelope) : Json :=
  objectOf (taskPermissionEnvelopeFields envelope)

def TaskPermissionEnvelope.ofJson (value : Json) : Option TaskPermissionEnvelope := do
  let schemaVersion ← Codec.text.required value "schema_version"
  let envelopeID ← Codec.text.required value "envelope_id"
  let tenantID ← Codec.text.required value "tenant_id"
  let taskID ← Codec.text.required value "task_id"
  let runtimeID ← Codec.text.optional value "runtime_id"
  let agentIdentity ← agentIdentityCodec.required value "agent_identity"
  let requiredCapabilities ← Codec.text.list.defaulted [] value "required_capabilities"
  let decisions ← capabilityDecisionCodec.list.defaulted [] value "decisions"
  let credentialRefs ← credentialReferenceCodec.list.defaulted [] value "credential_refs"
  let issuedAtUnixMs ← Codec.int.required value "issued_at_unix_ms"
  let expiresAtUnixMs ← Codec.int.required value "expires_at_unix_ms"
  let signerKeyVersion ← Codec.text.optional value "signer_key_version"
  let signature ← Codec.text.required value "signature"
  return {
    schemaVersion, envelopeID, tenantID, taskID, runtimeID, agentIdentity, requiredCapabilities,
    decisions, credentialRefs, issuedAtUnixMs, expiresAtUnixMs, signerKeyVersion, signature }

theorem TaskPermissionEnvelope.ofJson_toJson (envelope : TaskPermissionEnvelope) :
    ofJson envelope.toJson = some envelope := by
  have hkeys : ((taskPermissionEnvelopeFields envelope).map Prod.fst).Nodup := by
    simp [taskPermissionEnvelopeFields]
  have hget (key : String) : envelope.toJson.get key = _ := get_objectOf hkeys key
  have hruntimeID := Codec.optional_text_of_get (hget "runtime_id")
  have hrequired := Codec.defaulted_of_get_some [] (hget "required_capabilities")
  have hdecisions := Codec.defaulted_of_get_some [] (hget "decisions")
  have hrefs := Codec.defaulted_of_get eq_nil_of_isEmpty (hget "credential_refs")
  have hkeyVersion := Codec.optional_text_of_get (hget "signer_key_version")
  simp only [ofJson, Codec.required, hget, hruntimeID, hrequired, hdecisions, hrefs, hkeyVersion]
  simp [taskPermissionEnvelopeFields, List.lookup]

def governedActionFields (action : GovernedAction) : List (String × Option Json) :=
  [("schema_version", some (Codec.text.encode action.schemaVersion)),
    ("domain", some (Codec.text.encode action.domain)),
    ("action_type", some (Codec.text.encode action.actionType)),
    ("action_name", some (Codec.text.encode action.actionName)),
    ("node_id", some (Codec.text.encode action.nodeID)),
    ("step_index", some (Codec.uint32.encode action.stepIndex)),
    ("target", action.target.map Codec.text.encode),
    ("requires_policy", some (Codec.bool.encode action.requiresPolicy)),
    ("safety_mode_required", some (Codec.bool.encode action.safetyModeRequired))]

def GovernedAction.toJson (action : GovernedAction) : Json :=
  objectOf (governedActionFields action)

def GovernedAction.ofJson (value : Json) : Option GovernedAction := do
  let schemaVersion ← Codec.text.required value "schema_version"
  let domain ← Codec.text.required value "domain"
  let actionType ← Codec.text.required value "action_type"
  let actionName ← Codec.text.required value "action_name"
  let nodeID ← Codec.text.required value "node_id"
  let stepIndex ← Codec.uint32.required value "step_index"
  let target ← Codec.text.optional value "target"
  let requiresPolicy ← Codec.bool.required value "requires_policy"
  let safetyModeRequired ← Codec.bool.required value "safety_mode_required"
  return {
    schemaVersion, domain, actionType, actionName, nodeID, stepIndex, target, requiresPolicy,
    safetyModeRequired }

theorem GovernedAction.ofJson_toJson (action : GovernedAction) :
    ofJson action.toJson = some action := by
  have hkeys : ((governedActionFields action).map Prod.fst).Nodup := by
    simp [governedActionFields]
  have hget (key : String) : action.toJson.get key = _ := get_objectOf hkeys key
  have htarget := Codec.optional_text_of_get (hget "target")
  simp only [ofJson, Codec.required, hget, htarget]
  simp [governedActionFields, List.lookup]

def governedActionCodec : Codec GovernedAction where
  encode := GovernedAction.toJson
  decode := GovernedAction.ofJson
  decode_encode := GovernedAction.ofJson_toJson

/-- Both times are unsigned on the runtime. -/
def readUnsigned (value : Json) (key : String) : Option Int :=
  (Codec.int.required value key).filter fun n => decide (0 ≤ n)

def signedGovernedPolicyDecisionFields (decision : SignedGovernedPolicyDecision) :
    List (String × Option Json) :=
  [("schema_version", some (Codec.text.encode decision.schemaVersion)),
    ("decision_id", some (Codec.text.encode decision.decisionID)),
    ("tenant_id", some (Codec.text.encode decision.tenantID)),
    ("task_id", some (Codec.text.encode decision.taskID)),
    ("runtime_id", decision.runtimeID.map Codec.text.encode),
    ("action", some (governedActionCodec.encode decision.action)),
    ("permit", some (Codec.bool.encode decision.permit)),
    ("reason", some (Codec.text.encode decision.reason)),
    ("policy_version", some (Codec.text.encode decision.policyVersion)),
    ("runtime_permitted", some (Codec.bool.encode decision.runtimePermitted)),
    ("tenant_permitted", some (Codec.bool.encode decision.tenantPermitted)),
    ("policy_permitted", some (Codec.bool.encode decision.policyPermitted)),
    ("robot_mode_permitted", some (Codec.bool.encode decision.robotModePermitted)),
    ("issued_at_unix_ms", some (Codec.int.encode decision.issuedAtUnixMs)),
    ("expires_at_unix_ms", some (Codec.int.encode decision.expiresAtUnixMs)),
    ("signer_key_version", decision.signerKeyVersion.map Codec.text.encode),
    ("signature", some (Codec.text.encode decision.signature))]

def SignedGovernedPolicyDecision.toJson (decision : SignedGovernedPolicyDecision) : Json :=
  objectOf (signedGovernedPolicyDecisionFields decision)

def SignedGovernedPolicyDecision.ofJson (value : Json) : Option SignedGovernedPolicyDecision := do
  let schemaVersion ← Codec.text.required value "schema_version"
  let decisionID ← Codec.text.required value "decision_id"
  let tenantID ← Codec.text.required value "tenant_id"
  let taskID ← Codec.text.required value "task_id"
  let runtimeID ← Codec.text.optional value "runtime_id"
  let action ← governedActionCodec.required value "action"
  let permit ← Codec.bool.required value "permit"
  let reason ← Codec.text.required value "reason"
  let policyVersion ← Codec.text.required value "policy_version"
  let runtimePermitted ← Codec.bool.required value "runtime_permitted"
  let tenantPermitted ← Codec.bool.required value "tenant_permitted"
  let policyPermitted ← Codec.bool.required value "policy_permitted"
  let robotModePermitted ← Codec.bool.required value "robot_mode_permitted"
  let issuedAtUnixMs ← readUnsigned value "issued_at_unix_ms"
  let expiresAtUnixMs ← readUnsigned value "expires_at_unix_ms"
  let signerKeyVersion ← Codec.text.optional value "signer_key_version"
  let signature ← Codec.text.required value "signature"
  return {
    schemaVersion, decisionID, tenantID, taskID, runtimeID, action, permit, reason, policyVersion,
    runtimePermitted, tenantPermitted, policyPermitted, robotModePermitted, issuedAtUnixMs,
    expiresAtUnixMs, signerKeyVersion, signature }

/-- The decision was made and expires after the epoch. -/
def SignedGovernedPolicyDecision.AfterEpoch (decision : SignedGovernedPolicyDecision) : Prop :=
  0 ≤ decision.issuedAtUnixMs ∧ 0 ≤ decision.expiresAtUnixMs

instance (decision : SignedGovernedPolicyDecision) : Decidable decision.AfterEpoch :=
  inferInstanceAs (Decidable (_ ∧ _))

theorem SignedGovernedPolicyDecision.ofJson_toJson (decision : SignedGovernedPolicyDecision) :
    ofJson decision.toJson = if decision.AfterEpoch then some decision else none := by
  have hkeys : ((signedGovernedPolicyDecisionFields decision).map Prod.fst).Nodup := by
    simp [signedGovernedPolicyDecisionFields]
  have hget (key : String) : decision.toJson.get key = _ := get_objectOf hkeys key
  have hruntimeID := Codec.optional_text_of_get (hget "runtime_id")
  have hkeyVersion := Codec.optional_text_of_get (hget "signer_key_version")
  simp only [ofJson, readUnsigned, Codec.required, hget, hruntimeID, hkeyVersion]
  have hread : ∀ n : Int, Option.filter (fun n => decide (0 ≤ n)) (some n) =
      if 0 ≤ n then some n else none := by simp [Option.filter]
  simp only [signedGovernedPolicyDecisionFields, List.lookup, AfterEpoch]
  by_cases hissued : 0 ≤ decision.issuedAtUnixMs
  · by_cases hexpires : 0 ≤ decision.expiresAtUnixMs <;> simp [hread, hissued, hexpires]
  · simp [hread, hissued]

end Coordinator

/-! ## Canonical maps of the runtime -/

namespace Executor

open Json
open Coordinator (CapabilityDecision CredentialReference TaskPermissionEnvelope GovernedAction
  SignedGovernedPolicyDecision)

/-- The signature is there, and it is one over the canonical bytes. -/
def verifySignature (scheme : Signing) (canonical signature : String) : Except String Unit :=
  if signature = "" then .error "missing signature"
  else
    match Text.base64DecodeStrict .std true signature with
    | none => .error "signature base64 decode failed"
    | some bytes =>
        if scheme.verify scheme.publicKey (scheme.sha256 canonical) bytes then .ok ()
        else .error "signature verification failed"

def canonicalAgentIdentityValue (identity : AgentIdentity) : Json :=
  objectOf [
    ("acting_on_behalf_of", some (.string identity.actingOnBehalfOf)),
    ("agent_id", some (.string identity.agentID)),
    ("delegation_chain", some (.array (identity.delegationChain.map .string))),
    ("principal_id", some (.string identity.principalID)),
    ("submitted_by", some (.string identity.submittedBy))]

def canonicalCapabilityDecisionValues (decisions : List CapabilityDecision) : List Json :=
  decisions.map fun decision => objectOf [
    ("capability", some (.string decision.capability)),
    ("permit", some (.bool decision.permit)),
    ("policy_version", some (.string decision.policyVersion)),
    ("reason", some (.string decision.reason))]

def canonicalCredentialReferenceValues (refs : List CredentialReference) : List Json :=
  refs.map fun credentialRef => objectOf [
    ("capability", some (.string credentialRef.capability)),
    ("expires_at_unix_ms", some (.number credentialRef.expiresAtUnixMs.repr)),
    ("reference_id", some (.string credentialRef.referenceID)),
    ("revocable", some (.bool credentialRef.revocable)),
    ("scope", some (.string credentialRef.scope)),
    ("task_id", some (.string credentialRef.taskID)),
    ("tenant_id", some (.string credentialRef.tenantID)),
    ("tool", some (.string credentialRef.tool))]

def canonicalTaskPermissionEnvelopeValue (envelope : TaskPermissionEnvelope) : Json :=
  objectOf [
    ("agent_identity", some (canonicalAgentIdentityValue envelope.agentIdentity)),
    ("credential_refs",
      some (.array (canonicalCredentialReferenceValues envelope.credentialRefs))),
    ("decisions", some (.array (canonicalCapabilityDecisionValues envelope.decisions))),
    ("envelope_id", some (.string envelope.envelopeID)),
    ("expires_at_unix_ms", some (.number envelope.expiresAtUnixMs.repr)),
    ("issued_at_unix_ms", some (.number envelope.issuedAtUnixMs.repr)),
    ("required_capabilities", some (.array (envelope.requiredCapabilities.map .string))),
    ("runtime_id", envelope.runtimeID.map .string),
    ("schema_version", some (.string envelope.schemaVersion)),
    ("signer_key_version", envelope.signerKeyVersion.map .string),
    ("task_id", some (.string envelope.taskID)),
    ("tenant_id", some (.string envelope.tenantID))]

def canonicalTaskPermissionEnvelopeBytes (envelope : TaskPermissionEnvelope) : String :=
  serdeText (canonicalTaskPermissionEnvelopeValue envelope)

def verifyTaskPermissionEnvelopeSignature (scheme : Signing) (envelope : TaskPermissionEnvelope) :
    Except String Unit :=
  verifySignature scheme (canonicalTaskPermissionEnvelopeBytes envelope) envelope.signature

def canonicalGovernedActionValue (action : GovernedAction) : Json :=
  objectOf [
    ("action_name", some (.string action.actionName)),
    ("action_type", some (.string action.actionType)),
    ("domain", some (.string action.domain)),
    ("node_id", some (.string action.nodeID)),
    ("requires_policy", some (.bool action.requiresPolicy)),
    ("safety_mode_required", some (.bool action.safetyModeRequired)),
    ("schema_version", some (.string action.schemaVersion)),
    ("step_index", some (.number action.stepIndex.toNat.repr)),
    ("target", action.target.map .string)]

def canonicalGovernedActionBytes (action : GovernedAction) : String :=
  serdeText (canonicalGovernedActionValue action)

def canonicalPolicyDecisionValue (decision : SignedGovernedPolicyDecision) : Json :=
  objectOf [
    ("action", some (canonicalGovernedActionValue decision.action)),
    ("decision_id", some (.string decision.decisionID)),
    ("expires_at_unix_ms", some (.number decision.expiresAtUnixMs.repr)),
    ("issued_at_unix_ms", some (.number decision.issuedAtUnixMs.repr)),
    ("permit", some (.bool decision.permit)),
    ("policy_permitted", some (.bool decision.policyPermitted)),
    ("policy_version", some (.string decision.policyVersion)),
    ("reason", some (.string decision.reason)),
    ("robot_mode_permitted", some (.bool decision.robotModePermitted)),
    ("runtime_id", decision.runtimeID.map .string),
    ("runtime_permitted", some (.bool decision.runtimePermitted)),
    ("schema_version", some (.string decision.schemaVersion)),
    ("signer_key_version", decision.signerKeyVersion.map .string),
    ("task_id", some (.string decision.taskID)),
    ("tenant_id", some (.string decision.tenantID)),
    ("tenant_permitted", some (.bool decision.tenantPermitted))]

def canonicalPolicyDecisionBytes (decision : SignedGovernedPolicyDecision) : String :=
  serdeText (canonicalPolicyDecisionValue decision)

def verifyPolicyDecisionSignature (scheme : Signing) (decision : SignedGovernedPolicyDecision) :
    Except String Unit :=
  verifySignature scheme (canonicalPolicyDecisionBytes decision) decision.signature

/-! ## Agreement -/

section Agreement

open Coordinator

theorem canonicalTaskPermissionEnvelopeValue_eq (envelope : TaskPermissionEnvelope) :
    canonicalTaskPermissionEnvelopeValue envelope = canonicalTaskPermissionEnvelope envelope := by
  have hidentity :
      canonicalAgentIdentityValue envelope.agentIdentity =
        canonicalAgentIdentity envelope.agentIdentity := rfl
  have hrefs : canonicalCredentialReferenceValues envelope.credentialRefs =
      canonicalCredentialReferences envelope.credentialRefs := rfl
  have hdecisions : canonicalCapabilityDecisionValues envelope.decisions =
      canonicalCapabilityDecisions envelope.decisions := rfl
  apply objectOf_congr
  · simp
  · simp
  · simp [hidentity, hrefs, hdecisions]
  · simp [hidentity, hrefs, hdecisions]

theorem canonicalGovernedActionValue_eq (action : GovernedAction) :
    canonicalGovernedActionValue action = canonicalGovernedAction action :=
  rfl

theorem canonicalPolicyDecisionValue_eq (decision : SignedGovernedPolicyDecision) :
    canonicalPolicyDecisionValue decision = canonicalGovernedPolicyDecision decision := by
  apply objectOf_congr
  · simp
  · simp
  · simp [canonicalGovernedActionValue_eq]
  · simp [canonicalGovernedActionValue_eq]

variable (scheme : Signing)

theorem verifySignature_signText_iff (canonical signed : String) :
    verifySignature scheme canonical (scheme.signText signed) = .ok () ↔ canonical = signed := by
  rw [verifySignature, if_neg (scheme.signText_ne_empty signed), Signing.signText,
    Text.base64DecodeStrict_base64Encode, ← scheme.verify_sign_iff]
  simp only
  split
  · rename_i hverify
    simp [hverify]
  · rename_i hverify
    simp [hverify]

theorem canonicalTaskPermissionEnvelopeBytes_signed (envelope : TaskPermissionEnvelope) :
    canonicalTaskPermissionEnvelopeBytes (envelope.signed scheme) =
      serdeText (canonicalTaskPermissionEnvelope envelope) := by
  rw [canonicalTaskPermissionEnvelopeBytes, canonicalTaskPermissionEnvelopeValue_eq]
  rfl

theorem canonicalPolicyDecisionBytes_signed (decision : SignedGovernedPolicyDecision) :
    canonicalPolicyDecisionBytes (decision.signed scheme) =
      serdeText (canonicalGovernedPolicyDecision decision) := by
  rw [canonicalPolicyDecisionBytes, canonicalPolicyDecisionValue_eq]
  rfl

theorem verifyTaskPermissionEnvelopeSignature_signed_iff (envelope : TaskPermissionEnvelope) :
    verifyTaskPermissionEnvelopeSignature scheme (envelope.signed scheme) = .ok () ↔
      HtmlFree (canonicalTaskPermissionEnvelope envelope) := by
  rw [verifyTaskPermissionEnvelopeSignature, canonicalTaskPermissionEnvelopeBytes_signed,
    ← serdeText_eq_goText_iff]
  exact verifySignature_signText_iff scheme _ _

theorem verifyPolicyDecisionSignature_signed_iff (decision : SignedGovernedPolicyDecision) :
    verifyPolicyDecisionSignature scheme (decision.signed scheme) = .ok () ↔
      HtmlFree (canonicalGovernedPolicyDecision decision) := by
  rw [verifyPolicyDecisionSignature, canonicalPolicyDecisionBytes_signed,
    ← serdeText_eq_goText_iff]
  exact verifySignature_signText_iff scheme _ _

/-- The runtime reads every envelope and every action that is sent, and every decision with
times after the epoch.  The bytes that it computes are those that were signed, and the
signature verifies, exactly if no text has a character that only the Go library escapes. -/
theorem artifacts_verify_iff (scheme : Signing) (envelope : TaskPermissionEnvelope)
    (action : GovernedAction) (decision : SignedGovernedPolicyDecision) :
    (∃ received, TaskPermissionEnvelope.ofJson (envelope.signed scheme).toJson = some received ∧
      (canonicalTaskPermissionEnvelopeBytes received =
          goText (canonicalTaskPermissionEnvelope envelope) ↔
        HtmlFree (canonicalTaskPermissionEnvelope envelope)) ∧
      (verifyTaskPermissionEnvelopeSignature scheme received = .ok () ↔
        HtmlFree (canonicalTaskPermissionEnvelope envelope))) ∧
    (∃ received, GovernedAction.ofJson action.toJson = some received ∧
      (canonicalGovernedActionBytes received = goText (canonicalGovernedAction action) ↔
        HtmlFree (canonicalGovernedAction action))) ∧
    (SignedGovernedPolicyDecision.ofJson (decision.signed scheme).toJson =
        (if decision.AfterEpoch then some (decision.signed scheme) else none) ∧
      (canonicalPolicyDecisionBytes (decision.signed scheme) =
          goText (canonicalGovernedPolicyDecision decision) ↔
        HtmlFree (canonicalGovernedPolicyDecision decision)) ∧
      (verifyPolicyDecisionSignature scheme (decision.signed scheme) = .ok () ↔
        HtmlFree (canonicalGovernedPolicyDecision decision))) := by
  refine ⟨⟨_, TaskPermissionEnvelope.ofJson_toJson _, ?_, ?_⟩,
    ⟨_, GovernedAction.ofJson_toJson _, ?_⟩,
    SignedGovernedPolicyDecision.ofJson_toJson _, ?_, ?_⟩
  · rw [canonicalTaskPermissionEnvelopeBytes_signed, serdeText_eq_goText_iff]
  · exact verifyTaskPermissionEnvelopeSignature_signed_iff scheme envelope
  · rw [canonicalGovernedActionBytes, canonicalGovernedActionValue_eq, serdeText_eq_goText_iff]
  · rw [canonicalPolicyDecisionBytes_signed, serdeText_eq_goText_iff]
  · exact verifyPolicyDecisionSignature_signed_iff scheme decision

/-- An ampersand in the name of the agent: the coordinator signs its escaped form, the
runtime computes the plain one. -/
theorem envelope_of_ampersand_agent_refused :
    ∃ envelope received,
      buildTaskPermissionEnvelope plainContext (.found "" (some toolPolicy)) inferenceTask
        ⟨{ agentID := "r&d" }, normalizeCapabilityList ["tools.search"], []⟩ =
          .ok (some envelope) ∧
      TaskPermissionEnvelope.ofJson envelope.toJson = some received ∧
      canonicalTaskPermissionEnvelopeBytes received ≠
        goText (canonicalTaskPermissionEnvelope envelope) ∧
      ∀ scheme : Signing,
        verifyTaskPermissionEnvelopeSignature scheme (envelope.signed scheme) ≠ .ok () := by
  refine ⟨_, _, rfl, TaskPermissionEnvelope.ofJson_toJson _, by decide +kernel, ?_⟩
  intro scheme hverified
  rw [verifyTaskPermissionEnvelopeSignature_signed_iff, ← serdeText_eq_goText_iff] at hverified
  exact absurd hverified (by decide +kernel)

end Agreement

end Executor
end Igris
