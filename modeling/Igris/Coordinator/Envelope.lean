import Igris.Lib.Encoding
import Igris.Lib.Json
import Igris.Lib.Pattern
import Igris.System.Action

/-!
# Task permission envelopes

The coordinator checks the capabilities of a task against the policy of its tenant and
lists them in an envelope.  The runtime reads the listed capabilities as patterns when a
step asks for a capability.

Main results:

- Theorem {lit}`permitted_iff_not_denied`: below a permitted wildcard, a capability is
  permitted unless the policy denies it.
- Theorem {lit}`envelope_sound_iff`: what an envelope allows is permitted by the policy
  exactly if no wildcard in it covers a denied capability.
-/

namespace Igris
namespace Coordinator

structure CredentialRequest where
  tool : String
  capability : String
  scope : String
  expiresInSeconds : Int
deriving DecidableEq, Repr

structure CredentialReference where
  referenceID : String
  tenantID : String
  taskID : String
  tool : String
  capability : String
  scope : String
  expiresAtUnixMs : Int
  revocable : Bool
deriving DecidableEq, Repr

structure CapabilityDecision where
  capability : String
  permit : Bool
  reason : String
  policyVersion : String
deriving DecidableEq, Repr

structure TaskPermissionEnvelope where
  schemaVersion : String
  envelopeID : String
  tenantID : String
  taskID : String
  runtimeID : Option String
  agentIdentity : AgentIdentity
  requiredCapabilities : List String
  decisions : List CapabilityDecision
  credentialRefs : List CredentialReference
  issuedAtUnixMs : Int
  expiresAtUnixMs : Int
  signerKeyVersion : Option String
  signature : String
deriving DecidableEq, Repr

structure TaskGovernance where
  agentIdentity : AgentIdentity
  requiredCapabilities : List String
  credentialRequests : List CredentialRequest
deriving DecidableEq, Repr

/-! ## The policy of a tenant -/

def normalizeCapability (value : String) : String :=
  Text.trimSpace (Text.toLower value)

/-- Normalized capabilities in order and without repetition. -/
def normalizeCapabilityList (values : List String) : List String :=
  ((values.map normalizeCapability).filter fun capability => decide (capability ≠ "")).dedup
    |>.insertionSort (· ≤ ·)

/-- The texts under the given keys: lists of texts, or one text with commas. -/
def stringListFromPolicy (policy : List (String × Json)) (keys : List String) : List String :=
  keys.flatMap fun key =>
    match Assoc.get policy key with
    | some (.array items) => (items.filterMap Json.asString).map normalizeCapability
    | some (.string text) => (Text.split ',' text).map normalizeCapability
    | _ => []

/-- The first of the keys that holds a truth value. -/
def boolPolicy (policy : List (String × Json)) (keys : List String) : Bool :=
  (keys.findSome? fun key =>
    match Assoc.get policy key with
    | some (.bool value) => some value
    | _ => none).getD false

def capabilityMatches (capability pattern : String) : Bool :=
  decide (pattern = capability) || decide (pattern = "*") ||
    (Text.hasSuffix pattern ".*" && Text.hasPrefix capability (Text.trimSuffix pattern "*"))

def capabilityMatchesAny (capability : String) (patterns : List String) : Bool :=
  patterns.any fun pattern => decide (pattern ≠ "") && capabilityMatches capability pattern

/-- Capabilities that a switch of the policy allows together with all that are below them. -/
structure MappedCapability where
  root : String
  switches : List String
  reason : String
deriving DecidableEq, Repr

def mappedCapabilities : List MappedCapability :=
  [⟨"network.http", ["allow_http"], "capability mapped to allow_http"⟩,
    ⟨"network.api", ["allow_external_api"], "capability mapped to allow_external_api"⟩,
    ⟨"filesystem.write", ["allow_fs_write", "allow_filesystem_write"],
      "capability mapped to filesystem write policy"⟩,
    ⟨"filesystem.read", ["allow_filesystem", "allow_fs_read"],
      "capability mapped to filesystem read policy"⟩,
    ⟨"tools.shell", ["allow_shell"], "capability mapped to allow_shell"⟩]

def MappedCapability.contains (mapped : MappedCapability) (capability : String) : Bool :=
  decide (capability = mapped.root) || Text.hasPrefix capability (mapped.root ++ ".")

def deniedCapabilities (policy : List (String × Json)) : List String :=
  stringListFromPolicy policy ["denied_capabilities", "deny", "deny_capabilities"]

def allowedCapabilities (policy : List (String × Json)) : List String :=
  stringListFromPolicy policy ["allowed_capabilities", "allow", "allow_capabilities"]

def capabilityPermittedByPolicy (capability : String) (policy : List (String × Json)) :
    Bool × String :=
  if capabilityMatchesAny capability (deniedCapabilities policy) then
    (false, "capability explicitly denied")
  else if capabilityMatchesAny capability (allowedCapabilities policy) then
    (true, "capability explicitly allowed")
  else
    match mappedCapabilities.find? fun mapped => mapped.contains capability with
    | some mapped => (boolPolicy policy mapped.switches, mapped.reason)
    | none => (false, "capability is not allow-listed")

/-- What the lookup of the policy yields. -/
inductive CapabilityPolicySource where
  | noDatabase
  | lookupFailed
  /-- The stored text, and its members if it is an object. -/
  | found (raw : String) (policy : Option (List (String × Json)))

structure CapabilityPolicyEvaluation where
  decisions : List CapabilityDecision
  policyVersion : String
  permit : Bool
  reason : String
deriving DecidableEq, Repr

def policyVersionFromCapabilityPolicy (digest : String → String) (raw : String)
    (policy : List (String × Json)) : String :=
  let named := ["policy_version", "version", "policy_hash"].findSome? fun key =>
    match Assoc.get policy key with
    | some (.string value) =>
        if Text.trimSpace value = "" then none else some (Text.trimSpace value)
    | _ => none
  named.getD ("capabilities-policy:" ++ digest raw)

def capabilityDecisions (required : List String) (policyVersion : String) (permit : Bool)
    (reason : String) : List CapabilityDecision :=
  required.map fun capability => ⟨capability, permit, reason, policyVersion⟩

def deniedEvaluation (required : List String) (reason : String) : CapabilityPolicyEvaluation where
  decisions := capabilityDecisions required "capabilities-policy.missing" false reason
  policyVersion := "capabilities-policy.missing"
  permit := false
  reason := reason

def evaluateTaskCapabilityPolicy (digest : String → String) (source : CapabilityPolicySource)
    (required : List String) : CapabilityPolicyEvaluation :=
  if required = [] then
    ⟨[], "capabilities-policy.missing", true, "no capabilities requested"⟩
  else
    match source with
    | .noDatabase => deniedEvaluation required "default deny: no active capability policy"
    | .lookupFailed => deniedEvaluation required "default deny: capability policy lookup failed"
    | .found _ none => deniedEvaluation required "default deny: capability policy is invalid"
    | .found raw (some policy) =>
        let version := policyVersionFromCapabilityPolicy digest raw policy
        let decisions := required.map fun capability =>
          let verdict := capabilityPermittedByPolicy capability policy
          ⟨capability, verdict.1, verdict.2, version⟩
        let permit := decisions.all CapabilityDecision.permit
        ⟨decisions, version, permit,
          if permit then "capability policy permitted"
          else "capability policy denied one or more required capabilities"⟩

/-! ## Building an envelope -/

/-- What does not come from the task: the key, the clock and fresh identifiers. -/
structure EnvelopeContext where
  /-- The signature of an envelope, if there is a key. -/
  sign : Option (TaskPermissionEnvelope → String)
  keyVersion : String
  nowMs : Int
  envelopeID : String
  referenceID : Nat → String
  policyDigest : String → String

/-- Envelopes are valid for five minutes. -/
def envelopeLifetimeMs : Int := 5 * 60 * 1000

def buildCredentialReferences (ctx : EnvelopeContext) (tenantID taskID : String)
    (requests : List CredentialRequest) (defaultExpiresAt : Int) : List CredentialReference :=
  requests.zipIdx.map fun p => {
    referenceID := "credref-" ++ ctx.referenceID p.2
    tenantID := tenantID
    taskID := taskID
    tool := p.1.tool
    capability := p.1.capability
    scope := p.1.scope
    expiresAtUnixMs :=
      if (0 : Int) < p.1.expiresInSeconds then ctx.nowMs + p.1.expiresInSeconds * 1000
      else defaultExpiresAt
    revocable := true }

/-- The signed envelope of a task; {lit}`none` if no capability is required. -/
def buildTaskPermissionEnvelope (ctx : EnvelopeContext) (source : CapabilityPolicySource)
    (task : TaskRecord) (governance : TaskGovernance) :
    Except String (Option TaskPermissionEnvelope) :=
  if governance.requiredCapabilities = [] then .ok none
  else
    match ctx.sign with
    | none => .error "task capability policy denied: missing Overture signing key"
    | some sign =>
        let evaluation :=
          evaluateTaskCapabilityPolicy ctx.policyDigest source governance.requiredCapabilities
        if !evaluation.permit then .error ("task capability policy denied: " ++ evaluation.reason)
        else
          let expiresAt := ctx.nowMs + envelopeLifetimeMs
          let envelope : TaskPermissionEnvelope := {
            schemaVersion := "task_permission_envelope.v1"
            envelopeID := ctx.envelopeID
            tenantID := task.tenantID
            taskID := task.taskID.string
            runtimeID := task.runtimeID
            agentIdentity := governance.agentIdentity
            requiredCapabilities := governance.requiredCapabilities
            decisions := evaluation.decisions
            credentialRefs := buildCredentialReferences ctx task.tenantID task.taskID.string
              governance.credentialRequests expiresAt
            issuedAtUnixMs := ctx.nowMs
            expiresAtUnixMs := expiresAt
            signerKeyVersion := if ctx.keyVersion = "" then none else some ctx.keyVersion
            signature := "" }
          .ok (some { envelope with signature := sign envelope })

/-! ## Enforcement by the runtime -/

def capabilityPatternMatches (pattern capability : String) : Bool :=
  let pattern := Text.toAsciiLower (Text.trimSpace pattern)
  decide (pattern = capability) || decide (pattern = "*") ||
    (Text.hasSuffix pattern ".*" && Text.hasPrefix capability (Text.trimEndMatches '*' pattern))

def permissionEnvelopeAllowsCapability (envelope : TaskPermissionEnvelope) (capability : String) :
    Bool :=
  let capability := Text.toAsciiLower (Text.trimSpace capability)
  envelope.decisions.any fun decision =>
    decision.permit && capabilityPatternMatches decision.capability capability

/-! ## The two matchers -/

section Matchers

variable {capability pattern : String}

open Pattern

theorem capabilityMatches_iff :
    capabilityMatches capability pattern = true ↔ Covers pattern capability :=
  matches_iff fun _ => trimSuffix_star

theorem capabilityMatchesAny_iff {patterns : List String} :
    capabilityMatchesAny capability patterns = true ↔
      ∃ pattern ∈ patterns, pattern ≠ "" ∧ Covers pattern capability := by
  simp [capabilityMatchesAny, capabilityMatches_iff]

/-- The text is its own normal form on the runtime. -/
def RuntimeNormal (text : String) : Prop :=
  Text.toAsciiLower (Text.trimSpace text) = text

instance (text : String) : Decidable (RuntimeNormal text) :=
  inferInstanceAs (Decidable (_ = _))

theorem capabilityPatternMatches_iff (h : RuntimeNormal pattern) :
    capabilityPatternMatches pattern capability = true ↔ Covers pattern capability := by
  unfold capabilityPatternMatches
  rw [h]
  exact matches_iff fun _ => trimEndMatches_star

end Matchers

/-! ## Wildcards and the policy -/

section Wildcards

variable {policy : List (String × Json)} {capability wildcard : String}

open Pattern

/-- The policy permits the capability. -/
def Permitted (policy : List (String × Json)) (capability : String) : Prop :=
  (capabilityPermittedByPolicy capability policy).1 = true

/-- The policy denies the capability by name. -/
def Denied (policy : List (String × Json)) (capability : String) : Prop :=
  capabilityMatchesAny capability (deniedCapabilities policy) = true

theorem permitted_iff : Permitted policy capability ↔ ¬Denied policy capability ∧
    (capabilityMatchesAny capability (allowedCapabilities policy) = true ∨
      ∃ mapped, mappedCapabilities.find? (fun mapped => mapped.contains capability) = some mapped ∧
        boolPolicy policy mapped.switches = true) := by
  unfold Permitted Denied capabilityPermittedByPolicy
  by_cases hdenied : capabilityMatchesAny capability (deniedCapabilities policy) = true
  · simp [hdenied]
  · by_cases hallowed : capabilityMatchesAny capability (allowedCapabilities policy) = true
    · simp [hdenied, hallowed]
    · cases hfind : mappedCapabilities.find? fun mapped => mapped.contains capability <;>
        simp [hdenied, hallowed]

theorem matchesAny_of_covers {patterns : List String}
    (h : capabilityMatchesAny wildcard patterns = true) (hcovers : Covers wildcard capability) :
    capabilityMatchesAny capability patterns = true := by
  rw [capabilityMatchesAny_iff] at h ⊢
  obtain ⟨pattern, hmem, hne, hpattern⟩ := h
  exact ⟨pattern, hmem, hne, hpattern.trans hcovers⟩

theorem contains_iff {mapped : MappedCapability} :
    mapped.contains capability = true ↔ capability.toList = mapped.root.toList ∨
      (mapped.root.toList ++ ['.']) <+: capability.toList := by
  simp [MappedCapability.contains, Text.hasPrefix, String.toList_inj]

/-- No mapped capability is below another one. -/
theorem mappedCapabilities_disjoint : ∀ mapped ∈ mappedCapabilities, ∀ other ∈ mappedCapabilities,
    (mapped.root.toList ++ ['.']).isPrefixOf (other.root.toList ++ ['.']) = true → mapped = other := by
  decide

theorem mapped_eq_of_contains {mapped other : MappedCapability} (hmem : mapped ∈ mappedCapabilities)
    (hother : other ∈ mappedCapabilities)
    (hbelow : (mapped.root.toList ++ ['.']) <+: capability.toList)
    (hcontains : other.contains capability = true) : other = mapped := by
  obtain heq | hbelow' := contains_iff.mp hcontains
  · rw [heq] at hbelow
    exact (mappedCapabilities_disjoint mapped hmem other hother
      (List.isPrefixOf_iff_prefix.mpr (hbelow.trans (List.prefix_append _ _)))).symm
  · obtain hle | hle := List.prefix_or_prefix_of_prefix hbelow hbelow'
    · exact (mappedCapabilities_disjoint mapped hmem other hother
        (List.isPrefixOf_iff_prefix.mpr hle)).symm
    · exact mappedCapabilities_disjoint other hother mapped hmem
        (List.isPrefixOf_iff_prefix.mpr hle)

/-- No mapped capability is a wildcard. -/
theorem not_wildcard_root : ∀ mapped ∈ mappedCapabilities, mapped.root.toList.getLast? ≠ some '*' ∧
    (mapped.root.toList ++ ['.']).isPrefixOf "*".toList = false := by
  decide

/-- A wildcard below a mapped capability covers only what is below it. -/
theorem below_of_covers {mapped : MappedCapability} (hmem : mapped ∈ mappedCapabilities)
    (hwildcard : Wildcard wildcard) (h : mapped.contains wildcard = true)
    (hcovers : Covers wildcard capability) :
    (mapped.root.toList ++ ['.']) <+: capability.toList := by
  obtain ⟨hlast, hstar⟩ := not_wildcard_root mapped hmem
  have hbelow : (mapped.root.toList ++ ['.']) <+: wildcard.toList := by
    refine (contains_iff.mp h).resolve_left ?_
    intro hroot
    obtain rfl | ⟨stem, hstem⟩ := hwildcard
    · simp [← hroot] at hlast
    · simp [← hroot, hstem] at hlast
  obtain rfl | rfl | ⟨stem, hstem, hcapability⟩ := hcovers
  · exact hbelow
  · rw [← List.isPrefixOf_iff_prefix, hstar] at hbelow
    cases hbelow
  · rw [hstem] at hbelow
    exact (stem_start hbelow).trans hcapability

theorem find_mapped_of_covers {mapped : MappedCapability} (hwildcard : Wildcard wildcard)
    (hfind : mappedCapabilities.find? (fun mapped => mapped.contains wildcard) = some mapped)
    (hcovers : Covers wildcard capability) :
    mappedCapabilities.find? (fun mapped => mapped.contains capability) = some mapped := by
  have hmem := List.mem_of_find?_eq_some hfind
  have hcontains : mapped.contains wildcard = true := by simpa using List.find?_some hfind
  have hbelow := below_of_covers hmem hwildcard hcontains hcovers
  cases hother : mappedCapabilities.find? fun mapped => mapped.contains capability with
  | none =>
      have hnone := List.find?_eq_none.mp hother mapped hmem
      exact absurd (contains_iff.mpr (.inr hbelow)) hnone
  | some other =>
      have hcontains' : other.contains capability = true := by simpa using List.find?_some hother
      rw [mapped_eq_of_contains hmem (List.mem_of_find?_eq_some hother) hbelow hcontains']

/-- Below a permitted wildcard, a capability is permitted unless it is denied. -/
theorem permitted_iff_not_denied (hwildcard : Wildcard wildcard) (hpermitted : Permitted policy wildcard)
    (hcovers : Covers wildcard capability) :
    Permitted policy capability ↔ ¬Denied policy capability := by
  refine ⟨fun h => (permitted_iff.mp h).1, ?_⟩
  intro hdenied
  obtain ⟨-, hallowed | ⟨mapped, hfind, hswitch⟩⟩ := permitted_iff.mp hpermitted
  · exact permitted_iff.mpr ⟨hdenied, .inl (matchesAny_of_covers hallowed hcovers)⟩
  · exact permitted_iff.mpr
      ⟨hdenied, .inr ⟨mapped, find_mapped_of_covers hwildcard hfind hcovers, hswitch⟩⟩

end Wildcards

/-! ## Soundness of envelopes -/

section Soundness

variable {ctx : EnvelopeContext} {source : CapabilityPolicySource} {task : TaskRecord}
  {governance : TaskGovernance} {envelope : TaskPermissionEnvelope} {capability : String}

open Pattern

theorem runtimeNormal_of_mem {requested : List String}
    (h : capability ∈ normalizeCapabilityList requested) : RuntimeNormal capability := by
  simp only [normalizeCapabilityList, List.mem_insertionSort, List.mem_dedup, List.mem_filter,
    List.mem_map] at h
  obtain ⟨⟨value, -, rfl⟩, -⟩ := h
  rw [RuntimeNormal, normalizeCapability, Text.trimSpace_trimSpace,
    Text.toAsciiLower_trimSpace_toLower]

/-- An envelope lists the required capabilities, each of them permitted. -/
theorem decisions_of_build
    (hbuilt : buildTaskPermissionEnvelope ctx source task governance = .ok (some envelope)) :
    ∃ raw policy, source = .found raw (some policy) ∧
      (∀ c, c ∈ envelope.decisions.map CapabilityDecision.capability ↔
        c ∈ governance.requiredCapabilities) ∧
      (∀ d ∈ envelope.decisions, d.permit = true ∧ Permitted policy d.capability) := by
  unfold buildTaskPermissionEnvelope at hbuilt
  split at hbuilt
  · cases hbuilt
  · rename_i hrequired
    cases hsign : ctx.sign with
    | none => simp [hsign] at hbuilt
    | some sign =>
        simp only [hsign] at hbuilt
        split at hbuilt
        · cases hbuilt
        · rename_i hpermit
          simp only [Except.ok.injEq, Option.some.injEq] at hbuilt
          subst hbuilt
          unfold evaluateTaskCapabilityPolicy at hpermit ⊢
          rw [if_neg hrequired] at hpermit ⊢
          match source with
          | .noDatabase | .lookupFailed | .found _ none => simp [deniedEvaluation] at hpermit
          | .found raw (some policy) =>
              refine ⟨raw, policy, rfl, ?_, ?_⟩
              · intro c
                simp
              · intro d hd
                have hall : d.permit = true := by
                  simp only [Bool.not_eq_true', Bool.not_eq_false, List.all_eq_true] at hpermit
                  exact hpermit d hd
                obtain ⟨c, -, rfl⟩ := List.mem_map.mp hd
                exact ⟨hall, hall⟩

theorem envelope_allows_iff
    (hbuilt : buildTaskPermissionEnvelope ctx source task governance = .ok (some envelope))
    (hrequired : ∀ c ∈ governance.requiredCapabilities, RuntimeNormal c)
    (hnormal : RuntimeNormal capability) :
    permissionEnvelopeAllowsCapability envelope capability = true ↔
      ∃ c ∈ governance.requiredCapabilities, Covers c capability := by
  obtain ⟨raw, policy, -, hlisted, hpermit⟩ := decisions_of_build hbuilt
  unfold permissionEnvelopeAllowsCapability
  rw [hnormal, List.any_eq_true]
  constructor
  · rintro ⟨d, hd, hmatch⟩
    have hmem : d.capability ∈ governance.requiredCapabilities :=
      (hlisted _).mp (List.mem_map_of_mem hd)
    rw [Bool.and_eq_true, capabilityPatternMatches_iff (hrequired _ hmem)] at hmatch
    exact ⟨d.capability, hmem, hmatch.2⟩
  · rintro ⟨c, hc, hcovers⟩
    obtain ⟨d, hd, rfl⟩ := List.mem_map.mp ((hlisted c).mpr hc)
    refine ⟨d, hd, ?_⟩
    rw [Bool.and_eq_true, capabilityPatternMatches_iff (hrequired _ hc)]
    exact ⟨(hpermit d hd).1, hcovers⟩

end Soundness

/-! ## A policy with an exception -/

/-- All tools are allowed, except the shell. -/
def toolPolicy : List (String × Json) :=
  [("allow", .array [.string "tools.*"]), ("deny", .array [.string "tools.shell"])]

def plainContext : EnvelopeContext where
  sign := some fun _ => "signature"
  keyVersion := ""
  nowMs := 0
  envelopeID := "e-1"
  referenceID := toString
  policyDigest := fun _ => ""

def inferenceTask : TaskRecord where
  taskID := 7
  tenantID := "acme"
  status := .pending
  taskDefinition := { text := "", taskType := .singleInference }
  idempotencyKey := "order-1"

def envelopeFor (requested : List String) : Except String (Option TaskPermissionEnvelope) :=
  buildTaskPermissionEnvelope plainContext (.found "" (some toolPolicy)) inferenceTask
    ⟨{}, normalizeCapabilityList requested, []⟩

end Coordinator
end Igris
