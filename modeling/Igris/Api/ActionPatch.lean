import Igris.Lib.Json
import Igris.Lib.Validation

/-!
# Patching an action definition

The create and the patch route share one normaliser.  It merges the request into the
stored definition and then applies the defaults of the policy preset, before the policy
fields of the request.

Main results:

- Theorem {lit}`normalizeActionDefinitionRequest_policy`: the policy fields of an accepted
  definition.
- Theorem {lit}`patches_keep_policy_iff`: a sequence of patches keeps every policy field
  that its bodies do not mention exactly if the stored fields agree with the preset.
-/

namespace Igris
namespace Actions

open Validation

/-! ## Definitions and requests -/

structure FallbackPolicy where
  enabled : Bool := false
  primaryTarget : String := ""
  secondaryTarget : String := ""
  allowedTargets : List String := []
  requiresReplaySafe : Bool := false
  maxAttempts : Int := 0
deriving DecidableEq

/-- A row of the table of action definitions, without its times. -/
structure ActionDefinition where
  id : String := ""
  tenantID : String := ""
  name : String := ""
  displayName : String := ""
  description : String := ""
  targetType : String := ""
  targetURL : String := ""
  method : String := ""
  policyPreset : String := ""
  replayClass : String := ""
  approvalRequired : Bool := false
  irreversible : Bool := false
  secretRefs : List String := []
  targetMetadata : List (String × Json) := []
  fallbackPolicy : FallbackPolicy := {}

/-- A decoded body.  A member that is absent or null leaves the zero value of its field. -/
structure ActionDefinitionRequest where
  name : String := ""
  displayName : String := ""
  description : String := ""
  targetType : String := ""
  targetURL : String := ""
  method : String := ""
  policyPreset : String := ""
  replayClass : String := ""
  approvalRequired : Option Bool := none
  irreversible : Option Bool := none
  secretRefs : Option (List String) := none
  targetMetadata : Option (List (String × Json)) := none
  fallbackPolicy : Option FallbackPolicy := none

/-! ## Decoding -/

/-- Case folding of a character, as far as a comparison with an ASCII name can notice it. -/
def foldChar (c : Char) : Char :=
  if c.toNat = 0x17F then 'S' else if c.toNat = 0x212A then 'K' else c.toUpper

/-- Names of members are compared without regard to case. -/
def foldName (name : String) : String :=
  String.ofList (name.toList.map foldChar)

inductive RequestField where
  | name | displayName | description | targetType | targetURL | method | policyPreset
  | replayClass | approvalRequired | irreversible | secretRefs | targetMetadata | fallbackPolicy
deriving DecidableEq

def RequestField.jsonName : RequestField → String
  | .name => "name"
  | .displayName => "display_name"
  | .description => "description"
  | .targetType => "target_type"
  | .targetURL => "target_url"
  | .method => "method"
  | .policyPreset => "policy_preset"
  | .replayClass => "replay_class"
  | .approvalRequired => "approval_required"
  | .irreversible => "irreversible"
  | .secretRefs => "secret_refs"
  | .targetMetadata => "target_metadata"
  | .fallbackPolicy => "fallback_policy"

def requestFields : List RequestField :=
  [.name, .displayName, .description, .targetType, .targetURL, .method, .policyPreset,
    .replayClass, .approvalRequired, .irreversible, .secretRefs, .targetMetadata, .fallbackPolicy]

/-- The field that a member is decoded into. -/
def fieldOf (key : String) : Option RequestField :=
  requestFields.find? fun field => decide (foldName field.jsonName = foldName key)

/-- A text field keeps its value if the member is null. -/
def decodeText (current : String) : Json → Option String
  | .null => some current
  | .string text => some text
  | _ => none

/-- A switch keeps its value if the member is null. -/
def decodeSwitch (current : Bool) : Json → Option Bool
  | .null => some current
  | .bool value => some value
  | _ => none

/-- An optional field is cleared if the member is null. -/
def decodeOptional {α : Type} (decode : Json → Option α) : Json → Option (Option α)
  | .null => some none
  | value => (decode value).map some

def decodeTexts : Json → Option (List String)
  | .array items => items.mapM (decodeText "")
  | _ => none

/-- A map that is given twice collects the entries of both. -/
def decodeMap (current : Option (List (String × Json))) : Json → Option (List (String × Json))
  | .object members => some (Assoc.insertAll members (current.getD []))
  | _ => none

/-- An integer literal that fits sixty-four bits. -/
def decodeInt (current : Int) : Json → Option Int
  | .null => some current
  | .number literal =>
      literal.toInt?.filter fun n => decide (-(2 ^ 63 : Int) ≤ n ∧ n < 2 ^ 63)
  | _ => none

def setFallbackMember (policy : FallbackPolicy) (member : String × Json) :
    Option FallbackPolicy :=
  if foldName member.1 = foldName "enabled" then
    (decodeSwitch policy.enabled member.2).map fun v => { policy with enabled := v }
  else if foldName member.1 = foldName "primary_target" then
    (decodeText policy.primaryTarget member.2).map fun v => { policy with primaryTarget := v }
  else if foldName member.1 = foldName "secondary_target" then
    (decodeText policy.secondaryTarget member.2).map fun v => { policy with secondaryTarget := v }
  else if foldName member.1 = foldName "allowed_targets" then
    (decodeOptional decodeTexts member.2).map fun v => { policy with allowedTargets := v.getD [] }
  else if foldName member.1 = foldName "requires_replay_safe" then
    (decodeSwitch policy.requiresReplaySafe member.2).map fun v =>
      { policy with requiresReplaySafe := v }
  else if foldName member.1 = foldName "max_attempts" then
    (decodeInt policy.maxAttempts member.2).map fun v => { policy with maxAttempts := v }
  else some policy

def decodeFallbackPolicy (current : Option FallbackPolicy) : Json → Option FallbackPolicy
  | .object members => members.foldlM setFallbackMember (current.getD {})
  | _ => none

def setField (req : ActionDefinitionRequest) (value : Json) :
    RequestField → Option ActionDefinitionRequest
  | .name => (decodeText req.name value).map fun v => { req with name := v }
  | .displayName => (decodeText req.displayName value).map fun v => { req with displayName := v }
  | .description => (decodeText req.description value).map fun v => { req with description := v }
  | .targetType => (decodeText req.targetType value).map fun v => { req with targetType := v }
  | .targetURL => (decodeText req.targetURL value).map fun v => { req with targetURL := v }
  | .method => (decodeText req.method value).map fun v => { req with method := v }
  | .policyPreset =>
      (decodeText req.policyPreset value).map fun v => { req with policyPreset := v }
  | .replayClass => (decodeText req.replayClass value).map fun v => { req with replayClass := v }
  | .approvalRequired =>
      (decodeOptional (decodeSwitch false) value).map fun v => { req with approvalRequired := v }
  | .irreversible =>
      (decodeOptional (decodeSwitch false) value).map fun v => { req with irreversible := v }
  | .secretRefs =>
      (decodeOptional decodeTexts value).map fun v => { req with secretRefs := v }
  | .targetMetadata =>
      (decodeOptional (decodeMap req.targetMetadata) value).map fun v =>
        { req with targetMetadata := v }
  | .fallbackPolicy =>
      (decodeOptional (decodeFallbackPolicy req.fallbackPolicy) value).map fun v =>
        { req with fallbackPolicy := v }

/-- One member of the body; an unknown name is ignored. -/
def setMember (req : ActionDefinitionRequest) (member : String × Json) :
    Option ActionDefinitionRequest :=
  match fieldOf member.1 with
  | some field => setField req member.2 field
  | none => some req

/-- The members are decoded in the order of the text; a wrong type refuses the body. -/
def decodeRequest : Json → Option ActionDefinitionRequest
  | .null => some {}
  | .object members => members.foldlM setMember {}
  | _ => none

/-- The body has a member for the field. -/
def Mentions (body : Json) (field : RequestField) : Prop :=
  ∃ members, body = .object members ∧ ∃ member ∈ members, fieldOf member.1 = some field

/-! ## Checks -/

/-- What the normaliser takes from elsewhere: the sanitised form of a target URL, whether the
syntax of a target URL is accepted, the sanitised form of metadata, and SHA-256. -/
structure Environment where
  sanitizeActionTargetURL : String → String
  validateActionTargetURLSyntax : String → Except String Unit
  sanitizeActionMetadata : List (String × Json) → List (String × Json)
  sha256HexString : String → String

/-- The pattern {lit}`^[a-z][a-z0-9_.]\x7b1,63\x7d$`. -/
def validActionName (name : String) : Bool :=
  match name.toList with
  | [] => false
  | c :: cs =>
      decide ('a' ≤ c ∧ c ≤ 'z') && decide (1 ≤ cs.length ∧ cs.length ≤ 63) &&
        cs.all fun d => decide (('a' ≤ d ∧ d ≤ 'z') ∨ ('0' ≤ d ∧ d ≤ '9') ∨ d = '_' ∨ d = '.')

def actionNamePattern : String := "^[a-z][a-z0-9_.]\x7b1,63\x7d$"

def normalizeActionName (name : String) : String :=
  Text.replace (Text.replace (Text.toLower (Text.trimSpace name)) "-" "_") " " "_"

/-- The deprecated name of hosted targets is replaced. -/
def canonicalActionTargetType (targetType : String) : String :=
  if Text.trimSpace targetType = "api" then "hosted_api" else Text.trimSpace targetType

def validActionTargetType (targetType : String) : Bool :=
  decide (targetType ∈ ["hosted_api", "webhook", "local_runtime", "hybrid_fallback", "mock_demo"])

def validActionMethod (method : String) : Bool :=
  decide (method ∈ ["GET", "POST", "PUT", "PATCH", "DELETE"])

def validPolicyPreset (preset : String) : Bool :=
  decide (preset ∈ ["Safe automation", "Human-gated", "Non-replayable", "Read-only"])

def validReplayClass (replayClass : String) : Bool :=
  decide (replayClass ∈ ["retryable", "non_retryable", "read_only"])

def isCanonicalFallbackSurface (targetType : String) : Bool :=
  decide (targetType ∈ ["hosted_api", "webhook", "local_runtime", "mock_demo"])

def rawPrefixes : List String :=
  ["sk-", "sk_", "rk-", "rk_", "pk-", "pk_", "xoxb-", "xoxp-", "ghp_", "github_pat_", "ya29."]

def looksLikeRawActionSecret (value : String) : Bool :=
  let lower := Text.toLower (Text.trimSpace value)
  if lower = "" then false
  else
    ["bearer", "basic", "password", "authorization", "cookie", "private_key", "-----begin",
        "://"].any (Text.contains lower) ||
      rawPrefixes.any (Text.hasPrefix lower) ||
      (decide (value.toList.count '.' = 2) && Text.hasPrefix value "eyJ")

def isReferenceChar (c : Char) : Bool :=
  decide (('a' ≤ c ∧ c ≤ 'z') ∨ ('A' ≤ c ∧ c ≤ 'Z') ∨ ('0' ≤ c ∧ c ≤ '9') ∨
    c ∈ ['_', '-', '.', '/', ':', '@'])

def validateActionSecretRef (ref : String) : Except String Unit := do
  let trimmed := Text.trimSpace ref
  require (decide (trimmed ≠ "")) "secret_refs cannot contain empty values"
  require (decide (trimmed.utf8ByteSize ≤ 160))
    "secret_refs must contain references, not secret values"
  require (trimmed.toList.all isReferenceChar)
    "secret_refs must contain safe reference identifiers only"
  require (!looksLikeRawActionSecret trimmed)
    "secret_refs must contain references, not secret values"

def sanitizeActionSecretRefs (env : Environment) (refs : List String) : List String :=
  (refs.map Text.trimSpace).filterMap fun trimmed =>
    if trimmed = "" then none
    else if looksLikeRawActionSecret trimmed then
      some ("redacted:" ++ env.sha256HexString trimmed)
    else some trimmed

def canonicalFallbackPolicy (policy : FallbackPolicy) : FallbackPolicy :=
  { policy with
    primaryTarget := canonicalActionTargetType policy.primaryTarget
    secondaryTarget := canonicalActionTargetType policy.secondaryTarget
    allowedTargets := policy.allowedTargets.map canonicalActionTargetType }

def validateFallbackPolicy (d : ActionDefinition) : Except String Unit := do
  let policy := d.fallbackPolicy
  let hybrid := decide (d.targetType = "hybrid_fallback")
  require (!hybrid || policy.enabled)
    "target_type hybrid_fallback requires fallback_policy.enabled = true"
  require (!hybrid || decide (policy.primaryTarget ≠ "" ∧ policy.secondaryTarget ≠ ""))
    "hybrid_fallback requires both fallback_policy.primary_target and secondary_target"
  require (!hybrid || decide (policy.primaryTarget ≠ policy.secondaryTarget))
    "hybrid_fallback primary_target and secondary_target must differ"
  require (!hybrid || isCanonicalFallbackSurface policy.primaryTarget)
    "fallback_policy.primary_target must be a canonical execution surface"
  require (!hybrid || isCanonicalFallbackSurface policy.secondaryTarget)
    "fallback_policy.secondary_target must be a canonical execution surface"
  require (!hybrid || decide (0 ≤ policy.maxAttempts))
    "fallback_policy.max_attempts must be >= 0"
  let riskyFallback := policy.enabled && !policy.requiresReplaySafe
  require (!(riskyFallback && d.irreversible))
    "irreversible actions cannot enable fallback without requires_replay_safe=true"
  require (!(riskyFallback && decide (d.replayClass = "non_retryable")))
    "non_retryable replay_class cannot enable fallback without requires_replay_safe=true"

/-! ## The normaliser -/

/-- The defaults of the preset overwrite what the definition had. -/
def applyPolicyPresetDefaults (d : ActionDefinition) : ActionDefinition :=
  if d.policyPreset = "Human-gated" then
    { d with replayClass := "non_retryable", approvalRequired := true }
  else if d.policyPreset = "Non-replayable" then
    { d with replayClass := "non_retryable", irreversible := true }
  else if d.policyPreset = "Read-only" then
    { d with replayClass := "read_only", approvalRequired := false }
  else { d with replayClass := "retryable", approvalRequired := false }

/-- The definition that a new action starts from. -/
def defaultDefinition : ActionDefinition where
  targetType := "mock_demo"
  method := "POST"
  policyPreset := "Safe automation"
  replayClass := "retryable"

/-- A text replaces the stored one if it is given; a new action takes it in any case. -/
def given (isNew : Bool) (text : String) : Bool :=
  decide (Text.trimSpace text ≠ "") || isNew

def mergeName (req : ActionDefinitionRequest) (isNew : Bool) (d : ActionDefinition) :
    ActionDefinition :=
  { d with name := if given isNew req.name then normalizeActionName req.name else d.name }

/-- An action without a display name shows its name. -/
def mergeTexts (req : ActionDefinitionRequest) (isNew : Bool) (d : ActionDefinition) :
    ActionDefinition :=
  let displayName :=
    if given isNew req.displayName then Text.trimSpace req.displayName else d.displayName
  { d with
    displayName := if displayName = "" then d.name else displayName
    description :=
      if given isNew req.description then Text.trimSpace req.description else d.description }

/-- The stored type is rewritten as well, since it may be a deprecated name. -/
def mergeTargetType (req : ActionDefinitionRequest) (d : ActionDefinition) : ActionDefinition :=
  let targetType := if Text.trimSpace req.targetType ≠ "" then req.targetType else d.targetType
  { d with targetType := canonicalActionTargetType targetType }

def mergeTargetURL (env : Environment) (req : ActionDefinitionRequest) (isNew : Bool)
    (d : ActionDefinition) : ActionDefinition :=
  { d with targetURL :=
      if given isNew req.targetURL then env.sanitizeActionTargetURL req.targetURL
      else d.targetURL }

/-- Remote targets need a URL of accepted syntax. -/
def checkTargetURL (env : Environment) (d : ActionDefinition) : Except String Unit :=
  if d.targetType = "webhook" ∨ d.targetType = "hosted_api" then do
    require (decide (Text.trimSpace d.targetURL ≠ ""))
      ("target_url is required for " ++ d.targetType ++ " targets")
    (env.validateActionTargetURLSyntax d.targetURL).mapError ("unsafe_target_url: " ++ ·)
  else .ok ()

def mergeMethod (req : ActionDefinitionRequest) (d : ActionDefinition) : ActionDefinition :=
  let method :=
    if Text.trimSpace req.method ≠ "" then String.map Char.toUpper (Text.trimSpace req.method)
    else d.method
  { d with method := if method = "" then "POST" else method }

/-- The fields before the policy: names, target and method. -/
def mergeTarget (env : Environment) (req : ActionDefinitionRequest) (isNew : Bool)
    (d : ActionDefinition) : Except String ActionDefinition := do
  let d := mergeName req isNew d
  require (validActionName d.name) ("name must match " ++ actionNamePattern)
  let d := mergeTargetType req (mergeTexts req isNew d)
  require (validActionTargetType d.targetType)
    "target_type must be one of hosted_api, webhook, local_runtime, hybrid_fallback, or mock_demo"
  let d := mergeTargetURL env req isNew d
  checkTargetURL env d
  let d := mergeMethod req d
  require (validActionMethod d.method) "method must be GET, POST, PUT, PATCH, or DELETE"
  pure d

def mergePreset (req : ActionDefinitionRequest) (isNew : Bool) (d : ActionDefinition) :
    ActionDefinition :=
  { d with policyPreset :=
      if given isNew req.policyPreset then Text.trimSpace req.policyPreset else d.policyPreset }

def mergeReplayClass (req : ActionDefinitionRequest) (d : ActionDefinition) : ActionDefinition :=
  { d with replayClass :=
      if Text.trimSpace req.replayClass ≠ "" then Text.trimSpace req.replayClass
      else d.replayClass }

/-- The policy fields: first the preset and its defaults, then the request. -/
def mergePolicy (req : ActionDefinitionRequest) (isNew : Bool) (d : ActionDefinition) :
    Except String ActionDefinition := do
  let d := mergePreset req isNew d
  require (validPolicyPreset d.policyPreset) "unsupported policy_preset"
  let d := mergeReplayClass req (applyPolicyPresetDefaults d)
  require (validReplayClass d.replayClass)
    "replay_class must be retryable, non_retryable, or read_only"
  pure { d with
    approvalRequired := req.approvalRequired.getD d.approvalRequired
    irreversible := req.irreversible.getD d.irreversible }

/-- The fields after the policy: references, metadata and the fallback. -/
def mergeRest (env : Environment) (req : ActionDefinitionRequest) (d : ActionDefinition) :
    Except String ActionDefinition := do
  (req.secretRefs.getD []).forM validateActionSecretRef
  let d := { d with
    secretRefs := (req.secretRefs.map (sanitizeActionSecretRefs env)).getD d.secretRefs
    targetMetadata := (req.targetMetadata.map env.sanitizeActionMetadata).getD d.targetMetadata
    fallbackPolicy := (req.fallbackPolicy.map canonicalFallbackPolicy).getD d.fallbackPolicy }
  validateFallbackPolicy d
  pure d

def normalizeActionDefinitionRequest (env : Environment) (req : ActionDefinitionRequest)
    (current : Option ActionDefinition) : Except String ActionDefinition := do
  let d ← mergeTarget env req current.isNone (current.getD defaultDefinition)
  let d ← mergePolicy req current.isNone d
  mergeRest env req d

/-! ## The policy of an accepted definition -/

/-- The fields that decide how an action may run. -/
structure PolicyFields where
  policyPreset : String
  replayClass : String
  approvalRequired : Bool
  irreversible : Bool
deriving DecidableEq

def ActionDefinition.policy (d : ActionDefinition) : PolicyFields where
  policyPreset := d.policyPreset
  replayClass := d.replayClass
  approvalRequired := d.approvalRequired
  irreversible := d.irreversible

/-- The preset in force after a patch. -/
def presetAfter (req : ActionDefinitionRequest) (before : PolicyFields) : String :=
  if Text.trimSpace req.policyPreset ≠ "" then Text.trimSpace req.policyPreset
  else before.policyPreset

def presetReplayClass (preset : String) : String :=
  if preset = "Human-gated" ∨ preset = "Non-replayable" then "non_retryable"
  else if preset = "Read-only" then "read_only"
  else "retryable"

def presetApprovalRequired (preset : String) (before : Bool) : Bool :=
  if preset = "Human-gated" then true
  else if preset = "Non-replayable" then before
  else false

def presetIrreversible (preset : String) (before : Bool) : Bool :=
  decide (preset = "Non-replayable") || before

/-- The policy after a patch. -/
def policyAfter (req : ActionDefinitionRequest) (before : PolicyFields) : PolicyFields where
  policyPreset := presetAfter req before
  replayClass :=
    if Text.trimSpace req.replayClass ≠ "" then Text.trimSpace req.replayClass
    else presetReplayClass (presetAfter req before)
  approvalRequired := req.approvalRequired.getD
    (presetApprovalRequired (presetAfter req before) before.approvalRequired)
  irreversible := req.irreversible.getD
    (presetIrreversible (presetAfter req before) before.irreversible)

theorem applyPolicyPresetDefaults_policy (d : ActionDefinition) :
    (applyPolicyPresetDefaults d).policy =
      ⟨d.policyPreset, presetReplayClass d.policyPreset,
        presetApprovalRequired d.policyPreset d.approvalRequired,
        presetIrreversible d.policyPreset d.irreversible⟩ := by
  unfold applyPolicyPresetDefaults
  split_ifs with hgated hreplay hread
  all_goals
    simp_all [ActionDefinition.policy, presetReplayClass, presetApprovalRequired,
      presetIrreversible]

section Accepted

variable {env : Environment} {req : ActionDefinitionRequest} {isNew : Bool}
  {d d' : ActionDefinition}

theorem mergeTarget_policy (h : mergeTarget env req isNew d = .ok d') : d'.policy = d.policy := by
  simp only [mergeTarget, require_bind_eq_ok_iff] at h
  obtain ⟨-, -, h⟩ := h
  obtain ⟨-, -, h⟩ := bind_eq_ok_iff.mp h
  obtain ⟨-, h⟩ := require_bind_eq_ok_iff.mp h
  rw [← Except.ok.inj h]
  simp only [ActionDefinition.policy, mergeMethod, mergeTargetURL, mergeTargetType, mergeTexts,
    mergeName]

theorem mergeRest_policy (h : mergeRest env req d = .ok d') : d'.policy = d.policy := by
  obtain ⟨-, -, h⟩ := bind_eq_ok_iff.mp h
  obtain ⟨-, -, h⟩ := bind_eq_ok_iff.mp h
  rw [← Except.ok.inj h]
  simp only [ActionDefinition.policy]

theorem mergePolicy_policy (h : mergePolicy req false d = .ok d') :
    d'.policy = policyAfter req d.policy := by
  simp only [mergePolicy, require_bind_eq_ok_iff] at h
  obtain ⟨-, -, h⟩ := h
  have hpreset : (mergePreset req false d).policyPreset = presetAfter req d.policy := by
    simp [mergePreset, given, presetAfter, ActionDefinition.policy]
  have hdefaults := applyPolicyPresetDefaults_policy (mergePreset req false d)
  simp only [ActionDefinition.policy, PolicyFields.mk.injEq] at hdefaults
  obtain ⟨hname, hreplay, happroval, hirreversible⟩ := hdefaults
  rw [← Except.ok.inj h]
  simp only [ActionDefinition.policy, policyAfter, mergeReplayClass, hname, hreplay, happroval,
    hirreversible, hpreset]
  simp only [mergePreset]

/-- The policy of a patched definition depends on nothing but the policy before it and the
policy fields of the request. -/
theorem normalizeActionDefinitionRequest_policy {current : ActionDefinition}
    (h : normalizeActionDefinitionRequest env req (some current) = .ok d') :
    d'.policy = policyAfter req current.policy := by
  obtain ⟨target, htarget, h⟩ := bind_eq_ok_iff.mp h
  obtain ⟨merged, hpolicy, hrest⟩ := bind_eq_ok_iff.mp h
  rw [mergeRest_policy hrest, mergePolicy_policy hpolicy, mergeTarget_policy htarget,
    Option.getD_some]

end Accepted

/-! ## The patch route -/

/-- What the database answers when the row is read. -/
inductive LoadAnswer where
  | row
  | noRows
  | failed

/-- What the database answers to the update. -/
inductive UpdateAnswer where
  | updated
  | noRows
  | uniqueViolation
  | failed

/-- A patch request and what the database answers to it; {lit}`none` is a body that is no
JSON text. -/
structure PatchRequest where
  authenticated : Bool := true
  body : Option Json
  load : LoadAnswer := .row
  update : UpdateAnswer := .updated

inductive PatchResponse where
  | unauthenticated
  | actionNotFound
  | dbError
  | invalidBody
  | invalidActionDefinition (message : String)
  | actionNameConflict
  | updated (definition : ActionDefinition)

/-- A row as it is read: old names are replaced and texts are sanitised once more. -/
def scanActionDefinition (env : Environment) (row : ActionDefinition) : ActionDefinition :=
  { row with
    secretRefs := sanitizeActionSecretRefs env row.secretRefs
    targetType := canonicalActionTargetType row.targetType
    targetURL := env.sanitizeActionTargetURL row.targetURL
    targetMetadata := env.sanitizeActionMetadata row.targetMetadata
    fallbackPolicy := canonicalFallbackPolicy row.fallbackPolicy }

/-- The response, and the row after the request. -/
def handleActionPatch (env : Environment) (row : ActionDefinition) (request : PatchRequest) :
    PatchResponse × ActionDefinition :=
  if !request.authenticated then (.unauthenticated, row)
  else
    match request.load with
    | .noRows => (.actionNotFound, row)
    | .failed => (.dbError, row)
    | .row =>
        match request.body.bind decodeRequest with
        | none => (.invalidBody, row)
        | some req =>
            match normalizeActionDefinitionRequest env req
                (some (scanActionDefinition env row)) with
            | .error message => (.invalidActionDefinition message, row)
            | .ok d =>
                match request.update with
                | .noRows => (.actionNotFound, row)
                | .uniqueViolation => (.actionNameConflict, row)
                | .failed => (.dbError, row)
                | .updated => (.updated (scanActionDefinition env d), d)

/-- One request of a sequence, with the row before and after it. -/
structure PatchStep where
  before : ActionDefinition
  request : PatchRequest
  response : PatchResponse
  after : ActionDefinition

def patchSteps (env : Environment) (row : ActionDefinition) : List PatchRequest → List PatchStep
  | [] => []
  | request :: requests =>
      let (response, after) := handleActionPatch env row request
      ⟨row, request, response, after⟩ :: patchSteps env after requests

/-! ## What a patch keeps -/

inductive PolicyField where
  | policyPreset
  | replayClass
  | approvalRequired
  | irreversible
deriving DecidableEq

def PolicyField.jsonField : PolicyField → RequestField
  | .policyPreset => .policyPreset
  | .replayClass => .replayClass
  | .approvalRequired => .approvalRequired
  | .irreversible => .irreversible

/-- The value of a policy field: a text or a switch. -/
def PolicyField.value (policy : PolicyFields) : PolicyField → String ⊕ Bool
  | .policyPreset => .inl policy.policyPreset
  | .replayClass => .inl policy.replayClass
  | .approvalRequired => .inr policy.approvalRequired
  | .irreversible => .inr policy.irreversible

/-- The body of a request does not mention a field. -/
def Unmentioned (request : PatchRequest) (field : PolicyField) : Prop :=
  ∀ body ∈ request.body, ¬ Mentions body field.jsonField

/-- Every policy field that the body does not mention has the value it had. -/
def PatchStep.KeepsPolicy (step : PatchStep) : Prop :=
  ∀ field, Unmentioned step.request field →
    field.value step.after.policy = field.value step.before.policy

/-- The row was rewritten. -/
def PatchResponse.isUpdated : PatchResponse → Bool
  | .updated _ => true
  | _ => false

/-- The stored policy agrees with the defaults of the preset that is in force after the
patch, as far as the body does not mention the fields. -/
structure PatchStep.PresetAgrees (step : PatchStep) : Prop where
  replayClass : Unmentioned step.request .replayClass →
    presetReplayClass step.after.policyPreset = step.before.replayClass
  approvalRequired : Unmentioned step.request .approvalRequired →
    presetApprovalRequired step.after.policyPreset step.before.approvalRequired =
      step.before.approvalRequired
  irreversible : Unmentioned step.request .irreversible →
    step.after.policyPreset = "Non-replayable" → step.before.irreversible = true

/-! ## Members that a body does not have -/

/-- What a request says about a policy field. -/
def PolicyField.requested (req : ActionDefinitionRequest) : PolicyField → String ⊕ Option Bool
  | .policyPreset => .inl req.policyPreset
  | .replayClass => .inl req.replayClass
  | .approvalRequired => .inr req.approvalRequired
  | .irreversible => .inr req.irreversible

section Decoding

variable {field : PolicyField} {req req' : ActionDefinitionRequest}

/-- A member of another field leaves the field alone. -/
theorem requested_of_setField {value : Json} {other : RequestField} (hne : other ≠ field.jsonField)
    (h : setField req value other = some req') : field.requested req' = field.requested req := by
  cases other
  all_goals
    simp only [setField, Option.map_eq_some_iff] at h
    obtain ⟨_, -, rfl⟩ := h
    cases field
  all_goals first | rfl | exact absurd rfl hne

theorem requested_of_foldlM {members : List (String × Json)}
    (hmembers : ∀ member ∈ members, fieldOf member.1 ≠ some field.jsonField)
    (h : members.foldlM setMember req = some req') :
    field.requested req' = field.requested req := by
  induction members generalizing req with
  | nil =>
      obtain rfl : req = req' := by simpa using h
      rfl
  | cons member members ih =>
      simp only [List.foldlM_cons, Option.bind_eq_bind, Option.bind_eq_some_iff] at h
      obtain ⟨next, hnext, hrest⟩ := h
      rw [ih (fun m hm => hmembers m (List.mem_cons_of_mem _ hm)) hrest]
      unfold setMember at hnext
      cases hfield : fieldOf member.1 with
      | none =>
          rw [hfield] at hnext
          rw [Option.some.inj hnext]
      | some other =>
          rw [hfield] at hnext
          refine requested_of_setField ?_ hnext
          rintro rfl
          exact hmembers member List.mem_cons_self hfield

/-- The request says nothing about a field that the body does not mention. -/
theorem requested_of_not_mentions (field : PolicyField) {body : Json}
    (h : decodeRequest body = some req) (hbody : ¬ Mentions body field.jsonField) :
    field.requested req = field.requested {} := by
  unfold decodeRequest at h
  split at h
  · rw [Option.some.inj h]
  · rename_i members
    refine requested_of_foldlM ?_ h
    intro member hmember hfield
    exact hbody ⟨members, rfl, member, hmember, hfield⟩
  · simp at h

end Decoding

/-! ## One patch -/

theorem scanActionDefinition_policy (env : Environment) (row : ActionDefinition) :
    (scanActionDefinition env row).policy = row.policy := by
  simp only [scanActionDefinition, ActionDefinition.policy]

theorem trimSpace_empty : Text.trimSpace "" = "" := by decide

/-- A patch either leaves the row alone, or rewrites it to a normalised definition. -/
theorem handleActionPatch_cases (env : Environment) (row : ActionDefinition)
    (request : PatchRequest) :
    (∃ response : PatchResponse, response.isUpdated = false ∧
      handleActionPatch env row request = (response, row)) ∨
    ∃ body req d, request.body = some body ∧ decodeRequest body = some req ∧
      normalizeActionDefinitionRequest env req (some (scanActionDefinition env row)) = .ok d ∧
      handleActionPatch env row request = (.updated (scanActionDefinition env d), d) := by
  unfold handleActionPatch
  split
  · exact .inl ⟨_, rfl, rfl⟩
  · split
    · exact .inl ⟨_, rfl, rfl⟩
    · exact .inl ⟨_, rfl, rfl⟩
    · split
      · exact .inl ⟨_, rfl, rfl⟩
      · rename_i req hreq
        obtain ⟨body, hbody, hdecode⟩ := Option.bind_eq_some_iff.mp hreq
        split
        · exact .inl ⟨_, rfl, rfl⟩
        · rename_i d hd
          split
          · exact .inl ⟨_, rfl, rfl⟩
          · exact .inl ⟨_, rfl, rfl⟩
          · exact .inl ⟨_, rfl, rfl⟩
          · exact .inr ⟨body, req, d, hbody, hdecode, hd, rfl⟩

/-- Where the body does not mention a field, the patched policy has the default of the
preset. -/
theorem policyAfter_of_not_mentions {body : Json} {req : ActionDefinitionRequest}
    (hdecode : decodeRequest body = some req) (before : PolicyFields) :
    (¬ Mentions body .policyPreset → (policyAfter req before).policyPreset = before.policyPreset) ∧
    (¬ Mentions body .replayClass →
      (policyAfter req before).replayClass = presetReplayClass (presetAfter req before)) ∧
    (¬ Mentions body .approvalRequired → (policyAfter req before).approvalRequired =
      presetApprovalRequired (presetAfter req before) before.approvalRequired) ∧
    (¬ Mentions body .irreversible → (policyAfter req before).irreversible =
      presetIrreversible (presetAfter req before) before.irreversible) := by
  refine ⟨fun hm => ?_, fun hm => ?_, fun hm => ?_, fun hm => ?_⟩
  · have hreq : req.policyPreset = "" :=
      Sum.inl.inj (requested_of_not_mentions .policyPreset hdecode hm)
    simp [policyAfter, presetAfter, hreq, trimSpace_empty]
  · have hreq : req.replayClass = "" :=
      Sum.inl.inj (requested_of_not_mentions .replayClass hdecode hm)
    simp [policyAfter, hreq, trimSpace_empty]
  · have hreq : req.approvalRequired = none :=
      Sum.inr.inj (requested_of_not_mentions .approvalRequired hdecode hm)
    simp [policyAfter, hreq]
  · have hreq : req.irreversible = none :=
      Sum.inr.inj (requested_of_not_mentions .irreversible hdecode hm)
    simp [policyAfter, hreq]

theorem presetIrreversible_eq_iff {preset : String} {before : Bool} :
    presetIrreversible preset before = before ↔ (preset = "Non-replayable" → before = true) := by
  cases before <;> simp [presetIrreversible]

/-- One patch keeps the policy fields that its body does not mention exactly if it changes
nothing, or the stored policy agrees with the preset. -/
theorem handleActionPatch_keepsPolicy_iff (env : Environment) (row : ActionDefinition)
    (request : PatchRequest) {step : PatchStep}
    (hstep : step = ⟨row, request, (handleActionPatch env row request).1,
      (handleActionPatch env row request).2⟩) :
    step.KeepsPolicy ↔ (step.response.isUpdated = true → step.PresetAgrees) := by
  obtain ⟨response, hresponse, heq⟩ | ⟨body, req, d, hbody, hdecode, hd, heq⟩ :=
    handleActionPatch_cases env row request
  · rw [heq] at hstep
    subst hstep
    simp [PatchStep.KeepsPolicy, hresponse]
  · have hpolicy : d.policy = policyAfter req row.policy := by
      rw [normalizeActionDefinitionRequest_policy hd, scanActionDefinition_policy]
    have hunmentioned (field : PolicyField) :
        Unmentioned request field ↔ ¬ Mentions body field.jsonField := by
      simp [Unmentioned, hbody]
    obtain ⟨hpreset, hreplay, happroval, hirreversible⟩ :=
      policyAfter_of_not_mentions hdecode row.policy
    have hafter : d.policyPreset = presetAfter req row.policy :=
      congrArg PolicyFields.policyPreset hpolicy
    rw [heq] at hstep
    subst hstep
    simp only [PatchResponse.isUpdated, true_implies]
    constructor
    · intro h
      refine ⟨fun hm => ?_, fun hm => ?_, fun hm => ?_⟩
      · have hkept := Sum.inl.inj (h .replayClass hm)
        rw [hpolicy, hreplay ((hunmentioned .replayClass).mp hm)] at hkept
        rw [hafter]
        exact hkept
      · have hkept := Sum.inr.inj (h .approvalRequired hm)
        rw [hpolicy, happroval ((hunmentioned .approvalRequired).mp hm)] at hkept
        rw [hafter]
        exact hkept
      · have hkept := Sum.inr.inj (h .irreversible hm)
        rw [hpolicy, hirreversible ((hunmentioned .irreversible).mp hm)] at hkept
        rw [hafter]
        exact presetIrreversible_eq_iff.mp hkept
    · intro h field hm
      have hnot := (hunmentioned field).mp hm
      rw [hpolicy]
      cases field with
      | policyPreset => exact congrArg Sum.inl (hpreset hnot)
      | replayClass =>
          rw [PolicyField.value, hreplay hnot, ← hafter, h.replayClass hm]
          rfl
      | approvalRequired =>
          rw [PolicyField.value, happroval hnot, ← hafter]
          exact congrArg Sum.inr (h.approvalRequired hm)
      | irreversible =>
          rw [PolicyField.value, hirreversible hnot, ← hafter]
          exact congrArg Sum.inr (presetIrreversible_eq_iff.mpr (h.irreversible hm))

/-- A sequence of patches keeps, at every request, each policy field that the body does not
mention, exactly if every request that rewrites the row finds a policy that agrees with the
preset. -/
theorem patches_keep_policy_iff (env : Environment) (row : ActionDefinition)
    (requests : List PatchRequest) :
    (∀ step ∈ patchSteps env row requests, step.KeepsPolicy) ↔
      ∀ step ∈ patchSteps env row requests, step.response.isUpdated = true → step.PresetAgrees := by
  induction requests generalizing row with
  | nil => simp [patchSteps]
  | cons request requests ih =>
      simp only [patchSteps, List.forall_mem_cons]
      rw [ih, handleActionPatch_keepsPolicy_iff env row request rfl]

/-! ## An approval that a patch drops -/

/-- Texts are taken as they are, and every URL is accepted. -/
def plainEnvironment : Environment where
  sanitizeActionTargetURL url := url
  validateActionTargetURLSyntax _ := .ok ()
  sanitizeActionMetadata metadata := metadata
  sha256HexString text := text

/-- An action with the preset for safe automation whose owner asked for approval. -/
def approvedAction : ActionDefinition where
  id := "a-1"
  tenantID := "t-1"
  name := "refund.create"
  displayName := "Refund"
  targetType := "mock_demo"
  method := "POST"
  policyPreset := "Safe automation"
  replayClass := "retryable"
  approvalRequired := true

/-- A patch of the description alone switches the approval off. -/
theorem description_patch_drops_approval :
    ∃ step ∈ patchSteps plainEnvironment approvedAction
        [{ body := some (.object [("description", .string "Refund an order")]) }],
      Unmentioned step.request .approvalRequired ∧ step.response.isUpdated = true ∧
        step.before.approvalRequired = true ∧ step.after.approvalRequired = false := by
  refine ⟨_, List.mem_singleton.mpr rfl, ?_, ?_, ?_, ?_⟩
  · rintro body hbody ⟨members, rfl, member, hmember, hfield⟩
    obtain rfl : [("description", Json.string "Refund an order")] = members := by
      simpa using hbody
    obtain rfl := List.mem_singleton.mp hmember
    revert hfield
    decide +kernel
  · decide +kernel
  · decide +kernel
  · decide +kernel

end Actions
end Igris
