import Igris.Coordinator.InputRedaction

/-!
# Protection of task inputs

A task definition is stored with its sensitive parts replaced by encrypted references,
and a dispatch after an approval or a recovery puts the plaintexts back.  Without a key
the definition is stored redacted, if nothing in it is sensitive.

Main results:

- Theorem {lit}`protects_of_protect`: what the stored definition looks like, part by part.
- Theorem {lit}`round_trip_iff`: the restored definition is the submitted one exactly if
  every part that is replaced is a text and nothing else was changed.
-/

namespace Igris
namespace InputRefs

open Json (goText literals decodeNumbers)

/-! ## References in a definition -/

@[irreducible]
def purposeForSensitiveInputKey (key : String) : String :=
  let normalized := normalizeInputKey key
  if normalized ∈ ["body", "raw_body", "request_body", "payload", "content", "file_content",
      "file_contents", "full_text"] then "execution_payload"
  else if normalized ∈ ["path", "file_path", "absolute_path", "full_absolute_path",
      "private_path"] then "private_path"
  else if normalized = "url" then "signed_url"
  else if normalized ∈ ["headers", "authorization", "cookie", "set_cookie", "set-cookie", "token",
      "secret", "password", "api_key", "apikey", "private_key", "credential"] then
    "sensitive_header"
  else "sensitive_input"

def encryptedInputRefMetadata (ref : ExecutionInputRef) (summary : String) : Json :=
  objectOf [("input_redacted", .bool true), ("encrypted_input_ref", .bool true),
    ("encrypted_input_ref_id", .string ref.id.string), ("purpose", .string ref.purpose),
    ("input_digest_sha256", .string ref.digestSHA256),
    ("input_bytes", .number (toString ref.plaintextBytes)),
    ("input_content_type", .string ref.contentType), ("safe_summary", .string summary),
    ("sensitive_fields_redacted", .array [.string ref.purpose]),
    ("key_version", .string ref.keyVersion),
    ("redaction_policy_version", .string inputReferenceRedactionPolicyVersion)]

/-- The reference that an object stands for.  A missing member reads as the text of null. -/
@[irreducible]
def inputRefMetadata (libs : Libraries) (members : List (String × Json)) : Option (Uuid × String) :=
  if Assoc.get members "encrypted_input_ref" = some (.bool true) then
    let id := valueToInputString ((Assoc.get members "encrypted_input_ref_id").getD .null)
    let purpose := Text.trimSpace (valueToInputString ((Assoc.get members "purpose").getD .null))
    (libs.uuidParse id).bind fun refID => if purpose = "" then none else some (refID, purpose)
  else none

def ensureInputRefMetadataScope (refID : Uuid) (purpose : String) : Except ProtectError Unit :=
  if refID = Uuid.nil ∨ Text.trimSpace purpose = "" then .error .invalidMetadata else .ok ()

/-! ## Rules -/

/-- What happens to a member of an object. -/
inductive Rule where
  | keep
  | headers
  | encrypt (purpose summary : String)
  | descend
deriving DecidableEq

@[irreducible]
def memberRule (libs : Libraries) (normalized : String) (child : Json) : Rule :=
  if inputKeySafe normalized then .keep
  else if normalized = "headers" then .headers
  else if normalized = "url" ∧ safeURLContainsSensitiveMaterial libs (valueToInputString child) then
    .encrypt "signed_url" "signed URL redacted; encrypted input ref available for authorized recovery"
  else if inputKeySensitive normalized then
    .encrypt (purposeForSensitiveInputKey normalized)
      "sensitive input redacted; encrypted input ref available for authorized recovery"
  else if normalized = "path" ∧ looksLikePrivatePath (valueToInputString child) then
    .encrypt "private_path"
      "private path redacted; encrypted input ref available for authorized recovery"
  else .descend

/-- The purpose and the summary of the reference for a text; {lit}`none` if the text is not
replaced. -/
@[irreducible]
def textRule (parentKey text : String) : Option (String × String) :=
  if looksLikePrivatePath text then
    some ("private_path",
      "private path redacted; encrypted input ref available for authorized recovery")
  else if maxSafeInputStringLength < (textBytes text).length ∨ inputKeySensitive parentKey then
    some (purposeForSensitiveInputKey parentKey,
      "sensitive string redacted; encrypted input ref available for authorized recovery")
  else none

/-- The summary of the reference for a header, and whether its name is listed; {lit}`none` if
the header is stored as it is. -/
@[irreducible]
def headerRule (normalized : String) : Option (String × Bool) :=
  if inputKeySensitive normalized then
    some ("sensitive header redacted; encrypted input ref available for authorized recovery", true)
  else if normalized ∈ allowedHeaders then none
  else
    some ("non-allowlisted header redacted; encrypted input ref available for authorized recovery",
      false)

/-! ## Protection -/

/-- The random choices of one call: identifiers, nonces and the order in which maps are
iterated.  They are numbered by the references that exist when they are made. -/
structure Draws where
  ids : Nat → Uuid
  ids_ne : ∀ n, ids n ≠ Uuid.nil
  nonces : Nat → List UInt8
  order : Nat → List (String × HeaderForm) → List (String × HeaderForm)
  order_perm : ∀ n forms, (order n forms).Perm forms

structure Protection where
  libs : Libraries
  cipher : Cipher
  tenantID : String
  taskID : Uuid
  draws : Draws

/-- Encrypt a value and put its reference in place of it. -/
def Protection.encrypt (run : Protection) (refs : List Creation) (value : Json)
    (purpose summary : String) : Json × List Creation :=
  let creation : Creation :=
    { scope := ⟨run.tenantID, run.taskID, run.draws.ids refs.length, purpose⟩
      inputRefID_ne := run.draws.ids_ne refs.length
      nonce := run.draws.nonces refs.length
      plaintext := textBytes (valueToInputString value)
      expiresAt := none }
  (encryptedInputRefMetadata (buildRef run.libs.services run.cipher creation) summary,
    refs ++ [creation])

def protectHeaderForms (run : Protection) : List (String × Json) → List Creation →
    List (String × HeaderForm) × List Creation
  | [], refs => ([], refs)
  | (key, child) :: headers, refs =>
      let (form, refs) : HeaderForm × List Creation :=
        match headerRule (normalizeInputKey key) with
        | none => (⟨child, false⟩, refs)
        | some (summary, sensitive) =>
            let (value, refs) := run.encrypt refs child "sensitive_header" summary
            (⟨value, sensitive⟩, refs)
      let (rest, refs) := protectHeaderForms run headers refs
      ((key, form) :: rest, refs)

def protectHeaders (run : Protection) (value : Json) (refs : List Creation) :
    Except ProtectError (Json × List Creation) :=
  match value with
  | .object headers => do
      let (forms, created) := protectHeaderForms run headers refs
      let out ← addHeaders (run.draws.order refs.length forms)
        (headerMetadata inputReferenceRedactionPolicyVersion)
      .ok (.object out, created)
  | value =>
      .ok (run.encrypt refs value "sensitive_header"
        "headers redacted; encrypted input ref available for authorized recovery")

/-- Follow the rule for a member; the last argument is the protected form of the member's own
parts. -/
def Protection.follow (run : Protection) (rule : Rule) (child : Json) (refs : List Creation)
    (descended : Except ProtectError (Json × List Creation)) :
    Except ProtectError (Json × List Creation) :=
  match rule with
  | .keep => .ok (child, refs)
  | .headers => protectHeaders run child refs
  | .encrypt purpose summary => .ok (run.encrypt refs child purpose summary)
  | .descend => descended

mutual

def protect (run : Protection) : Json → String → List Creation →
    Except ProtectError (Json × List Creation)
  | .object members, _, refs =>
      match inputRefMetadata run.libs members with
      | some (refID, purpose) => do
          ensureInputRefMetadataScope refID purpose
          .ok (.object members, refs)
      | none => do
          let (out, refs) ← protectMembers run members refs
          .ok (.object out, refs)
  | .array items, parentKey, refs => do
      let (out, refs) ← protectItems run items parentKey refs
      .ok (.array out, refs)
  | .string text, parentKey, refs =>
      match textRule parentKey text with
      | some (purpose, summary) => .ok (run.encrypt refs (.string text) purpose summary)
      | none => .ok (.string (redactInlineInputAuth text), refs)
  | value, _, refs => .ok (value, refs)

def protectItems (run : Protection) : List Json → String → List Creation →
    Except ProtectError (List Json × List Creation)
  | [], _, refs => .ok ([], refs)
  | item :: items, parentKey, refs => do
      let (first, refs) ← protect run item parentKey refs
      let (rest, refs) ← protectItems run items parentKey refs
      .ok (first :: rest, refs)

def protectMembers (run : Protection) : List (String × Json) → List Creation →
    Except ProtectError (List (String × Json) × List Creation)
  | [], refs => .ok ([], refs)
  | (key, child) :: members, refs => do
      let normalized := normalizeInputKey key
      let (out, refs) ← run.follow (memberRule run.libs normalized child) child refs
        (protect run child normalized refs)
      let (rest, refs) ← protectMembers run members refs
      .ok ((key, out) :: rest, refs)

end

/-- Store a definition.  Its numbers are read as the library reads them. -/
def protectTaskDefinitionInputs (libs : Libraries) (env : KeyEnvironment) (tenantID : String)
    (taskID : Uuid) (draws : Draws) (definition : Json) :
    Except ProtectError (Json × List Creation) :=
  match decodeNumbers libs.services.float64 definition with
  | none => .error .unreadable
  | some value =>
      match activeCipher libs.services env with
      | .error error =>
          if containsSensitiveInput libs value then .error (.keys error)
          else do
            let stored ← sanitizeInputValue libs (draws.order 0) value
            .ok (stored, [])
      | .ok cipher => protect ⟨libs, cipher, tenantID, taskID, draws⟩ value "" []

/-! ## What is stored -/

/-- The value is replaced by one of the references. -/
def Encrypted (run : Protection) (refs : List Creation) (value : Json) (purpose summary : String)
    (stored : Json) : Prop :=
  ∃ creation ∈ refs, creation.scope.purpose = purpose ∧
    creation.plaintext = textBytes (valueToInputString value) ∧
    stored = encryptedInputRefMetadata (buildRef run.libs.services run.cipher creation) summary

/-- The form of one header. -/
def ProtectsHeader (run : Protection) (refs : List Creation) (header : String × Json)
    (form : String × HeaderForm) : Prop :=
  header.1 = form.1 ∧
    match headerRule (normalizeInputKey header.1) with
    | none => form.2 = ⟨header.2, false⟩
    | some (summary, sensitive) =>
        form.2.sensitive = sensitive ∧
          Encrypted run refs header.2 "sensitive_header" summary form.2.value

def ProtectsHeaders (run : Protection) (refs : List Creation) (value stored : Json) : Prop :=
  match value with
  | .object headers =>
      ∃ forms ordered out, List.Forall₂ (ProtectsHeader run refs) headers forms ∧
        ordered.Perm forms ∧
        addHeaders ordered (headerMetadata inputReferenceRedactionPolicyVersion) = .ok out ∧
        stored = .object out
  | value =>
      Encrypted run refs value "sensitive_header"
        "headers redacted; encrypted input ref available for authorized recovery" stored

/-- What may be stored for a member under a rule; the last argument says what may be stored for
the member's own parts. -/
def Follows (run : Protection) (refs : List Creation) (rule : Rule) (child stored : Json)
    (descended : Prop) : Prop :=
  match rule with
  | .keep => stored = child
  | .headers => ProtectsHeaders run refs child stored
  | .encrypt purpose summary => Encrypted run refs child purpose summary stored
  | .descend => descended

mutual

/-- The second value is what may be stored for the first, with these references. -/
def Protects (run : Protection) (refs : List Creation) : String → Json → Json → Prop
  | _, .object members, stored =>
      match inputRefMetadata run.libs members with
      | some _ => stored = .object members
      | none => ∃ out, stored = .object out ∧ ProtectsMembers run refs members out
  | parentKey, .array items, stored =>
      ∃ out, stored = .array out ∧ ProtectsItems run refs parentKey items out
  | parentKey, .string text, stored =>
      match textRule parentKey text with
      | some (purpose, summary) => Encrypted run refs (.string text) purpose summary stored
      | none => stored = .string (redactInlineInputAuth text)
  | _, value, stored => stored = value

def ProtectsItems (run : Protection) (refs : List Creation) (parentKey : String) :
    List Json → List Json → Prop
  | [], out => out = []
  | item :: items, out =>
      ∃ first rest, out = first :: rest ∧ Protects run refs parentKey item first ∧
        ProtectsItems run refs parentKey items rest

def ProtectsMembers (run : Protection) (refs : List Creation) :
    List (String × Json) → List (String × Json) → Prop
  | [], out => out = []
  | (key, child) :: members, out =>
      ∃ first rest, out = (key, first) :: rest ∧
        Follows run refs (memberRule run.libs (normalizeInputKey key) child) child first
          (Protects run refs (normalizeInputKey key) child first) ∧
        ProtectsMembers run refs members rest

end

variable {value stored child : Json} {rule : Rule} {descends : Prop} {key : String}
  {members out : List (String × Json)}

section Spec

variable {run : Protection} {refs created final : List Creation}

theorem encrypted_encrypt (run : Protection) (refs : List Creation) (value : Json)
    (purpose summary : String) (hfinal : (run.encrypt refs value purpose summary).2 ⊆ final) :
    Encrypted run final value purpose summary (run.encrypt refs value purpose summary).1 :=
  ⟨_, hfinal (List.mem_append_right refs (List.mem_singleton_self _)), rfl, rfl, rfl⟩

theorem subset_encrypt (run : Protection) (refs : List Creation) (value : Json)
    (purpose summary : String) : refs ⊆ (run.encrypt refs value purpose summary).2 :=
  List.subset_append_left refs _

theorem protectHeaderForms_spec (headers : List (String × Json)) (refs : List Creation)
    (hfinal : (protectHeaderForms run headers refs).2 ⊆ final) :
    refs ⊆ (protectHeaderForms run headers refs).2 ∧
      List.Forall₂ (ProtectsHeader run final) headers (protectHeaderForms run headers refs).1 := by
  induction headers generalizing refs with
  | nil => exact ⟨List.Subset.refl _, .nil⟩
  | cons header headers ih =>
      obtain ⟨key, child⟩ := header
      cases hrule : headerRule (normalizeInputKey key) with
      | none =>
          simp only [protectHeaderForms, hrule] at hfinal ⊢
          obtain ⟨hsubset, hrest⟩ := ih refs hfinal
          exact ⟨hsubset, .cons ⟨rfl, by simp only [hrule]⟩ hrest⟩
      | some rule =>
          obtain ⟨summary, sensitive⟩ := rule
          simp only [protectHeaderForms, hrule] at hfinal ⊢
          obtain ⟨hsubset, hrest⟩ := ih _ hfinal
          refine ⟨List.Subset.trans (subset_encrypt _ _ _ _ _) hsubset, .cons ⟨rfl, ?_⟩ hrest⟩
          simp only [hrule]
          exact ⟨trivial, encrypted_encrypt _ _ _ _ _ (List.Subset.trans hsubset hfinal)⟩

theorem protectHeaders_spec (h : protectHeaders run value refs = .ok (stored, created))
    (hfinal : created ⊆ final) :
    refs ⊆ created ∧ ProtectsHeaders run final value stored := by
  unfold protectHeaders at h
  split at h
  · rename_i headers
    obtain ⟨out, hout, heq⟩ := Validation.bind_eq_ok_iff.mp h
    cases heq
    obtain ⟨hsubset, hforms⟩ := protectHeaderForms_spec headers refs hfinal
    exact ⟨hsubset, _, _, out, hforms, run.draws.order_perm _ _, hout, rfl⟩
  · rename_i hother
    cases h
    refine ⟨List.subset_append_left _ _, ?_⟩
    unfold ProtectsHeaders
    split
    · exact absurd rfl (hother _)
    · exact encrypted_encrypt _ _ _ _ _ hfinal

/-- A rule that succeeds adds references and stores what it says, if descending does. -/
theorem follows_of_follow {descended : Except ProtectError (Json × List Creation)}
    (hdescended : descended = .ok (stored, created) → refs ⊆ created ∧ descends)
    (h : run.follow rule child refs descended = .ok (stored, created)) (hfinal : created ⊆ final) :
    refs ⊆ created ∧ Follows run final rule child stored descends := by
  cases rule with
  | keep =>
      cases h
      exact ⟨List.Subset.refl _, rfl⟩
  | headers => exact protectHeaders_spec h hfinal
  | encrypt purpose summary =>
      cases h
      exact ⟨List.subset_append_left _ _, encrypted_encrypt _ _ _ _ _ hfinal⟩
  | descend => exact hdescended h

theorem protectMembers_cons_eq_ok_iff :
    protectMembers run ((key, child) :: members) refs = .ok (out, created) ↔
      ∃ first rest middle, out = (key, first) :: rest ∧
        run.follow (memberRule run.libs (normalizeInputKey key) child) child refs
          (protect run child (normalizeInputKey key) refs) = .ok (first, middle) ∧
        protectMembers run members middle = .ok (rest, created) := by
  rw [protectMembers, Validation.bind_eq_ok_iff]
  constructor
  · rintro ⟨⟨first, middle⟩, hfirst, h⟩
    obtain ⟨⟨rest, last⟩, hrest, heq⟩ := Validation.bind_eq_ok_iff.mp h
    cases heq
    exact ⟨first, rest, middle, rfl, hfirst, hrest⟩
  · rintro ⟨first, rest, middle, rfl, hfirst, hrest⟩
    exact ⟨(first, middle), hfirst, Validation.bind_eq_ok_iff.mpr ⟨(rest, created), hrest, rfl⟩⟩

theorem protectsMembers_cons_iff :
    ProtectsMembers run refs ((key, child) :: members) out ↔
      ∃ first rest, out = (key, first) :: rest ∧
        Follows run refs (memberRule run.libs (normalizeInputKey key) child) child first
          (Protects run refs (normalizeInputKey key) child first) ∧
        ProtectsMembers run refs members rest := by
  rw [ProtectsMembers]

mutual

/-- A successful call only adds references, and it stores what the rules say. -/
theorem protects_of_protect : (value : Json) →
    ∀ (parentKey : String) (refs created : List Creation) (stored : Json),
      protect run value parentKey refs = .ok (stored, created) → created ⊆ final →
        refs ⊆ created ∧ Protects run final parentKey value stored
  | .object members => by
      intro parentKey refs created stored h hfinal
      unfold protect at h
      unfold Protects
      split at h
      · rename_i hmetadata
        obtain ⟨_, -, heq⟩ := Validation.bind_eq_ok_iff.mp h
        cases heq
        simp only [hmetadata]
        exact ⟨List.Subset.refl _, trivial⟩
      · rename_i hmetadata
        obtain ⟨⟨out, created⟩, hmembers, heq⟩ := Validation.bind_eq_ok_iff.mp h
        cases heq
        obtain ⟨hsubset, hout⟩ := protectsMembers_of_protectMembers members _ _ _ hmembers hfinal
        simp only [hmetadata]
        exact ⟨hsubset, out, rfl, hout⟩
  | .array items => by
      intro parentKey refs created stored h hfinal
      unfold protect at h
      obtain ⟨⟨out, created⟩, hitems, heq⟩ := Validation.bind_eq_ok_iff.mp h
      cases heq
      obtain ⟨hsubset, hout⟩ := protectsItems_of_protectItems items _ _ _ _ hitems hfinal
      exact ⟨hsubset, out, rfl, hout⟩
  | .string text => by
      intro parentKey refs created stored h hfinal
      unfold protect at h
      unfold Protects
      split at h
      · rename_i purpose summary hrule
        cases h
        exact ⟨List.subset_append_left _ _, encrypted_encrypt _ _ _ _ _ hfinal⟩
      · cases h
        exact ⟨List.Subset.refl _, rfl⟩
  | .null | .bool _ | .number _ => by
      intro parentKey refs created stored h hfinal
      cases h
      exact ⟨List.Subset.refl _, rfl⟩

theorem protectsItems_of_protectItems : (items : List Json) →
    ∀ (parentKey : String) (refs created : List Creation) (out : List Json),
      protectItems run items parentKey refs = .ok (out, created) → created ⊆ final →
        refs ⊆ created ∧ ProtectsItems run final parentKey items out
  | [] => by
      intro parentKey refs created out h hfinal
      cases h
      exact ⟨List.Subset.refl _, rfl⟩
  | item :: items => by
      intro parentKey refs created out h hfinal
      unfold protectItems at h
      obtain ⟨⟨first, middle⟩, hfirst, h⟩ := Validation.bind_eq_ok_iff.mp h
      obtain ⟨⟨rest, last⟩, hrest, heq⟩ := Validation.bind_eq_ok_iff.mp h
      cases heq
      obtain ⟨hsubset, htail⟩ := protectsItems_of_protectItems items _ _ _ _ hrest hfinal
      obtain ⟨hsubset', hhead⟩ :=
        protects_of_protect item _ _ _ _ hfirst (List.Subset.trans hsubset hfinal)
      exact ⟨List.Subset.trans hsubset' hsubset, first, rest, rfl, hhead, htail⟩

theorem protectsMembers_of_protectMembers : (members : List (String × Json)) →
    ∀ (refs created : List Creation) (out : List (String × Json)),
      protectMembers run members refs = .ok (out, created) → created ⊆ final →
        refs ⊆ created ∧ ProtectsMembers run final members out
  | [] => by
      intro refs created out h hfinal
      cases h
      exact ⟨List.Subset.refl _, rfl⟩
  | (key, child) :: members => by
      intro refs created out h hfinal
      obtain ⟨first, rest, middle, rfl, hfirst, hrest⟩ := protectMembers_cons_eq_ok_iff.mp h
      obtain ⟨hsubset, htail⟩ := protectsMembers_of_protectMembers members _ _ _ hrest hfinal
      have hmiddle := List.Subset.trans hsubset hfinal
      obtain ⟨hsubset', hhead⟩ := follows_of_follow
        (fun hchild => protects_of_protect child _ _ _ _ hchild hmiddle) hfirst hmiddle
      exact ⟨List.Subset.trans hsubset' hsubset,
        protectsMembers_cons_iff.mpr ⟨first, rest, rfl, hhead, htail⟩⟩

end

end Spec

/-! ## Restoration -/

mutual

def rehydrateInputRefValue (libs : Libraries)
    (resolver : Uuid → String → Except InputRefError (List UInt8)) :
    Json → Except InputRefError Json
  | .object members =>
      match inputRefMetadata libs members with
      | some (refID, purpose) => do
          let plaintext ← resolver refID purpose
          .ok (.string (libs.text plaintext))
      | none => do
          let out ← rehydrateMembers libs resolver members
          .ok (.object out)
  | .array items => do
      let out ← rehydrateItems libs resolver items
      .ok (.array out)
  | value => .ok value

def rehydrateItems (libs : Libraries)
    (resolver : Uuid → String → Except InputRefError (List UInt8)) :
    List Json → Except InputRefError (List Json)
  | [] => .ok []
  | item :: items => do
      let first ← rehydrateInputRefValue libs resolver item
      let rest ← rehydrateItems libs resolver items
      .ok (first :: rest)

def rehydrateMembers (libs : Libraries)
    (resolver : Uuid → String → Except InputRefError (List UInt8)) :
    List (String × Json) → Except InputRefError (List (String × Json))
  | [] => .ok []
  | (key, child) :: members => do
      let first ← rehydrateInputRefValue libs resolver child
      let rest ← rehydrateMembers libs resolver members
      .ok ((key, first) :: rest)

end

section Restoration

variable {libs : Libraries} {resolver : Uuid → String → Except InputRefError (List UInt8)}

theorem rehydrate_string (text : String) :
    rehydrateInputRefValue libs resolver (.string text) = .ok (.string text) := by
  simp [rehydrateInputRefValue]

variable {items : List Json} {restored : Json} {normalized : String} {form : HeaderForm}
  {headers : List (String × Json)}

theorem rehydrateItems_eq_ok_iff {out : List Json} :
    rehydrateItems libs resolver items = .ok out ↔
      List.Forall₂ (fun item restored => rehydrateInputRefValue libs resolver item = .ok restored)
        items out := by
  induction items generalizing out with
  | nil => simp [rehydrateItems, eq_comm]
  | cons item items ih =>
      simp only [rehydrateItems, Validation.bind_eq_ok_iff, Except.ok.injEq]
      constructor
      · rintro ⟨first, hfirst, rest, hrest, rfl⟩
        exact .cons hfirst (ih.mp hrest)
      · intro h
        cases h with
        | cons hfirst hrest => exact ⟨_, hfirst, _, ih.mpr hrest, rfl⟩

theorem rehydrateMembers_eq_ok_iff :
    rehydrateMembers libs resolver members = .ok out ↔
      List.Forall₂ (fun member restored => member.1 = restored.1 ∧
        rehydrateInputRefValue libs resolver member.2 = .ok restored.2) members out := by
  induction members generalizing out with
  | nil => simp [rehydrateMembers, eq_comm]
  | cons member members ih =>
      obtain ⟨key, child⟩ := member
      simp only [rehydrateMembers, Validation.bind_eq_ok_iff, Except.ok.injEq]
      constructor
      · rintro ⟨first, hfirst, rest, hrest, rfl⟩
        exact .cons ⟨rfl, hfirst⟩ (ih.mp hrest)
      · intro h
        cases h with
        | cons hfirst hrest =>
            exact ⟨_, hfirst.2, _, ih.mpr hrest, congrArg (· :: _) (Prod.ext hfirst.1 rfl)⟩

theorem rehydrate_array_eq_ok_iff :
    rehydrateInputRefValue libs resolver (.array items) = .ok restored ↔
      ∃ out, restored = .array out ∧ List.Forall₂ (fun item restored =>
        rehydrateInputRefValue libs resolver item = .ok restored) items out := by
  rw [rehydrateInputRefValue, Validation.bind_eq_ok_iff]
  refine exists_congr fun out => ?_
  rw [rehydrateItems_eq_ok_iff, Except.ok.injEq, and_comm, eq_comm]

/-- An object that is no reference is restored member by member. -/
theorem rehydrate_object_eq_ok_iff (h : inputRefMetadata libs members = none) :
    rehydrateInputRefValue libs resolver (.object members) = .ok restored ↔
      ∃ out, restored = .object out ∧ List.Forall₂ (fun member restored =>
        member.1 = restored.1 ∧
          rehydrateInputRefValue libs resolver member.2 = .ok restored.2) members out := by
  simp only [rehydrateInputRefValue, h, Validation.bind_eq_ok_iff]
  refine exists_congr fun out => ?_
  rw [rehydrateMembers_eq_ok_iff, Except.ok.injEq, and_comm, eq_comm]

/-- A reference is restored as a text. -/
theorem exists_string_of_rehydrate_reference {ref : Uuid × String}
    (href : inputRefMetadata libs members = some ref)
    (h : rehydrateInputRefValue libs resolver (.object members) = .ok restored) :
    ∃ text, restored = .string text := by
  simp only [rehydrateInputRefValue, href, Validation.bind_eq_ok_iff, Except.ok.injEq] at h
  obtain ⟨plaintext, -, rfl⟩ := h
  exact ⟨_, rfl⟩

/-! ## Values without references -/

mutual

/-- No object inside the value reads as a reference. -/
def NoRefs (libs : Libraries) : Json → Prop
  | .object members => inputRefMetadata libs members = none ∧ NoRefsMembers libs members
  | .array items => NoRefsItems libs items
  | _ => True

def NoRefsItems (libs : Libraries) : List Json → Prop
  | [] => True
  | item :: items => NoRefs libs item ∧ NoRefsItems libs items

def NoRefsMembers (libs : Libraries) : List (String × Json) → Prop
  | [] => True
  | (_, child) :: members => NoRefs libs child ∧ NoRefsMembers libs members

end

theorem noRefsItems_iff :
    NoRefsItems libs items ↔ ∀ item ∈ items, NoRefs libs item := by
  induction items with
  | nil => simp [NoRefsItems]
  | cons item items ih => simp [NoRefsItems, ih]

theorem noRefsMembers_iff :
    NoRefsMembers libs members ↔ ∀ member ∈ members, NoRefs libs member.2 := by
  induction members with
  | nil => simp [NoRefsMembers]
  | cons member members ih => simp [NoRefsMembers, ih]

/-- A value without references stays as it is. -/
theorem rehydrate_of_noRefs (value : Json) (h : NoRefs libs value) :
    rehydrateInputRefValue libs resolver value = .ok value := by
  induction value using Json.induction with
  | null | bool | number | string => rfl
  | array items ih =>
      refine rehydrate_array_eq_ok_iff.mpr ⟨items, rfl, List.forall₂_same.mpr ?_⟩
      exact fun item hitem => ih item hitem (noRefsItems_iff.mp h item hitem)
  | object members ih =>
      obtain ⟨hmetadata, hmembers⟩ := h
      refine (rehydrate_object_eq_ok_iff hmetadata).mpr ⟨members, rfl, List.forall₂_same.mpr ?_⟩
      exact fun member hmember =>
        ⟨rfl, ih member hmember (noRefsMembers_iff.mp hmembers member hmember)⟩

/-- The stored value is restored with the shape of the submitted one. -/
def RestoredAs (libs : Libraries)
    (resolver : Uuid → String → Except InputRefError (List UInt8)) (stored submitted : Json) :
    Prop :=
  ∃ restored, rehydrateInputRefValue libs resolver stored = .ok restored ∧
    Json.shape restored = Json.shape submitted

theorem restoredAs_array {stored submitted : List Json}
    (h : RestoredAs libs resolver (.array stored) (.array submitted)) :
    List.Forall₂ (RestoredAs libs resolver) stored submitted := by
  obtain ⟨restored, hrestored, hshape⟩ := h
  obtain ⟨out, rfl, hout⟩ := rehydrate_array_eq_ok_iff.mp hrestored
  exact Assoc.forall₂_comp hout (Json.shape_array_eq_iff.mp hshape)

/-- A stored object that keeps its shape is no reference, and its members keep theirs. -/
theorem restoredAs_object {stored submitted : List (String × Json)}
    (h : RestoredAs libs resolver (.object stored) (.object submitted)) :
    inputRefMetadata libs stored = none ∧
      List.Forall₂ (fun part member => part.1 = member.1 ∧
        RestoredAs libs resolver part.2 member.2) stored submitted := by
  obtain ⟨restored, hrestored, hshape⟩ := h
  cases hmetadata : inputRefMetadata libs stored with
  | some ref =>
      obtain ⟨text, rfl⟩ := exists_string_of_rehydrate_reference hmetadata hrestored
      cases Json.shape_eq_string_iff.mp hshape.symm
  | none =>
      obtain ⟨out, rfl, hout⟩ := (rehydrate_object_eq_ok_iff hmetadata).mp hrestored
      refine ⟨rfl, (Assoc.forall₂_comp hout (Json.shape_object_eq_iff.mp hshape)).imp ?_⟩
      rintro part member ⟨between, ⟨hkey, hpart⟩, hkey', hmember⟩
      exact ⟨hkey.trans hkey', between.2, hpart, hmember⟩

variable {purpose summary : String}

/-- A value that keeps its own shape has no references. -/
theorem noRefs_of_restoredAs (h : RestoredAs libs resolver value value) : NoRefs libs value := by
  induction value using Json.induction with
  | null | bool | number | string => trivial
  | array items ih =>
      have hitems := List.forall₂_same.mp (restoredAs_array h)
      exact noRefsItems_iff.mpr fun item hitem => ih item hitem (hitems item hitem)
  | object members ih =>
      obtain ⟨hmetadata, hmembers⟩ := restoredAs_object h
      refine ⟨hmetadata, noRefsMembers_iff.mpr fun member hmember => ?_⟩
      exact ih member hmember (List.forall₂_same.mp hmembers member hmember).2

/-! ## Restored references -/

/-- The purposes that references are created with. -/
def purposes : List String :=
  ["signed_url", "private_path", "sensitive_header", "execution_payload", "sensitive_input"]

theorem purposeForSensitiveInputKey_mem (key : String) :
    purposeForSensitiveInputKey key ∈ purposes := by
  unfold purposeForSensitiveInputKey purposes
  dsimp only
  repeat' split
  all_goals simp

theorem memberRule_purpose (h : memberRule libs normalized child = .encrypt purpose summary) :
    purpose ∈ purposes := by
  unfold memberRule at h
  split_ifs at h
  · cases h
    simp [purposes]
  · cases h
    exact purposeForSensitiveInputKey_mem normalized
  · cases h
    simp [purposes]

theorem textRule_purpose {parentKey text purpose summary : String}
    (h : textRule parentKey text = some (purpose, summary)) : purpose ∈ purposes := by
  unfold textRule at h
  split_ifs at h
  · cases h
    simp [purposes]
  · cases h
    exact purposeForSensitiveInputKey_mem parentKey

theorem trimSpace_purpose (h : purpose ∈ purposes) :
    Text.trimSpace purpose = purpose ∧ purpose ≠ "" := by
  have hall : ∀ purpose ∈ purposes, Text.trimSpace purpose = purpose ∧ purpose ≠ "" := by
    decide +kernel
  exact hall purpose h

/-- What is stored for an encrypted value reads as its reference. -/
theorem inputRefMetadata_encrypted (libs : Libraries) (ref : ExecutionInputRef) (summary : String)
    (hpurpose : ref.purpose ∈ purposes) :
    ∃ members, encryptedInputRefMetadata ref summary = .object members ∧
      inputRefMetadata libs members = some (ref.id, ref.purpose) := by
  refine ⟨_, rfl, ?_⟩
  obtain ⟨htrim, hne⟩ := trimSpace_purpose hpurpose
  unfold inputRefMetadata
  rw [Assoc.get_insertAll_of_nodup (by simp) (.tail _ (.head _)), if_pos rfl,
    Assoc.get_insertAll_of_nodup (by simp) (.tail _ (.tail _ (.head _))),
    Assoc.get_insertAll_of_nodup (by simp) (.tail _ (.tail _ (.tail _ (.head _))))]
  simp only [Option.getD_some, valueToInputString, libs.uuidParse_string, Option.bind_some, htrim,
    if_neg hne]

/-- The resolver returns the plaintext of each reference. -/
def Resolves (resolver : Uuid → String → Except InputRefError (List UInt8))
    (refs : List Creation) : Prop :=
  ∀ creation ∈ refs,
    resolver creation.scope.inputRefID creation.scope.purpose = .ok creation.plaintext

variable {run : Protection} {refs : List Creation}

/-- An encrypted value is restored as a text, whatever it was. -/
theorem rehydrate_encrypted (hresolver : Resolves resolver refs) (hpurpose : purpose ∈ purposes)
    (h : Encrypted run refs value purpose summary stored) :
    rehydrateInputRefValue run.libs resolver stored = .ok (.string (valueToInputString value)) := by
  obtain ⟨creation, hmem, rfl, hplaintext, rfl⟩ := h
  obtain ⟨members, hobject, hmetadata⟩ := inputRefMetadata_encrypted run.libs
    (buildRef run.libs.services run.cipher creation) summary hpurpose
  have hresolve : resolver (buildRef run.libs.services run.cipher creation).id
      (buildRef run.libs.services run.cipher creation).purpose = .ok creation.plaintext :=
    hresolver creation hmem
  simp only [hobject, rehydrateInputRefValue, hmetadata, hresolve, hplaintext]
  exact congrArg (fun text => Except.ok (Json.string text)) (run.libs.text_textBytes _)

def isText : Json → Bool
  | .string _ => true
  | _ => false

theorem string_valueToInputString (h : isText value = true) :
    Json.string (valueToInputString value) = value := by
  cases value <;> simp_all [isText, valueToInputString]

theorem isText_of_encrypted (hresolver : Resolves resolver refs) (hpurpose : purpose ∈ purposes)
    (h : Encrypted run refs value purpose summary stored)
    (hrestored : RestoredAs run.libs resolver stored value) : isText value = true := by
  obtain ⟨restored, hrestored, hshape⟩ := hrestored
  rw [rehydrate_encrypted hresolver hpurpose h] at hrestored
  cases hrestored
  rw [Json.shape_eq_string_iff.mp hshape.symm]
  rfl

/-! ## Restored headers -/

/-- What is stored for one header. -/
def StoredHeader (run : Protection) (refs : List Creation) (key : String) (child stored : Json) :
    Prop :=
  match headerRule (normalizeInputKey key) with
  | none => stored = child
  | some (summary, _) => Encrypted run refs child "sensitive_header" summary stored

theorem storedHeader_iff {sensitive : Bool}
    (hrule : headerRule (normalizeInputKey key) = some (summary, sensitive)) :
    StoredHeader run refs key child stored ↔
      Encrypted run refs child "sensitive_header" summary stored := by
  simp only [StoredHeader, hrule]

theorem protectsHeader_iff {sensitive : Bool}
    (hrule : headerRule (normalizeInputKey key) = some (summary, sensitive)) :
    ProtectsHeader run refs (key, child) (key, form) ↔
      form.sensitive = sensitive ∧
        Encrypted run refs child "sensitive_header" summary form.value := by
  simp only [ProtectsHeader, hrule, true_and]

/-- The names that every stored header map has. -/
def headerMetadataNames : List String :=
  ["input_redacted", sensitiveFieldsRedacted, "redaction_policy_version"]

theorem isSome_get_headerMetadata_iff {policyVersion name : String} :
    (Assoc.get (headerMetadata policyVersion) name).isSome ↔ name ∈ headerMetadataNames := by
  simp only [headerMetadata, Assoc.insertAll, List.foldl, Assoc.get_insert, headerMetadataNames,
    List.mem_cons, List.not_mem_nil, or_false]
  split_ifs <;> simp_all [Assoc.get]

theorem encrypted_eq_object (h : Encrypted run refs value purpose summary stored) :
    ∃ members, stored = .object members := by
  obtain ⟨creation, -, -, -, rfl⟩ := h
  exact ⟨_, rfl⟩

/-- A header that is neither sensitive nor allowed is encrypted and not listed. -/
theorem headerRule_other (hname : normalizeInputKey key = key)
    (hsensitive : (normalizedPatterns.any fun pattern => Text.contains key pattern) = false)
    (hother : key ∉ allowedHeaders) :
    headerRule (normalizeInputKey key) =
      some ("non-allowlisted header redacted; encrypted input ref available for authorized recovery",
        false) := by
  unfold headerRule
  rw [hname, inputKeySensitive_eq, hsensitive, if_neg Bool.false_ne_true, if_neg hother]

theorem headerRule_sensitiveFieldsRedacted :
    headerRule (normalizeInputKey sensitiveFieldsRedacted) =
      some ("non-allowlisted header redacted; encrypted input ref available for authorized recovery",
        false) :=
  headerRule_other (by decide +kernel) (by decide +kernel) (by decide)

/-- The members of a stored header map. -/
theorem get_protectedHeaders (hsorted : Assoc.Sorted headers)
    (h : ProtectsHeaders run refs (.object headers) (.object out)) :
    Assoc.Sorted out ∧
      (∀ key child, (key, child) ∈ headers →
        ∃ stored, Assoc.get out key = some stored ∧ StoredHeader run refs key child stored) ∧
      ∀ key, Assoc.get headers key = none →
        ((Assoc.get out key).isSome ↔ key ∈ headerMetadataNames) := by
  obtain ⟨forms, ordered, _, hforms, hperm, hadd, heq⟩ := h
  cases heq
  have hkeys := Assoc.keys_of_forall₂ (fun _ _ h => h.1) hforms
  have hnodup : (forms.map Prod.fst).Nodup := hkeys ▸ hsorted.nodup_keys
  have hown : ∀ form, (sensitiveFieldsRedacted, form) ∈ forms →
      form.sensitive = false ∧ ∀ fields, form.value ≠ .array fields := by
    intro form hform
    obtain ⟨⟨key, child⟩, hmem, hkey⟩ := List.mem_map.mp (hkeys ▸ List.mem_map_of_mem hform)
    obtain rfl : key = sensitiveFieldsRedacted := hkey
    obtain ⟨⟨name, form'⟩, hform', hprotects⟩ := Assoc.exists_of_mem_forall₂ hforms hmem
    obtain rfl : sensitiveFieldsRedacted = name := hprotects.1
    obtain rfl : form' = form := by
      have hget := (Assoc.get_eq_some_iff_of_nodup hnodup).mpr hform
      rw [(Assoc.get_eq_some_iff_of_nodup hnodup).mpr hform'] at hget
      exact Option.some.inj hget
    obtain ⟨hplain, hencrypted⟩ :=
      (protectsHeader_iff headerRule_sensitiveFieldsRedacted).mp hprotects
    obtain ⟨members, hobject⟩ := encrypted_eq_object hencrypted
    exact ⟨hplain, by simp [hobject]⟩
  obtain ⟨hout, hheaders, hother⟩ := addHeaders_spec hnodup hperm hown hadd
  refine ⟨hout, ?_, ?_⟩
  · intro key child hmem
    obtain ⟨⟨name, form⟩, hform, hname, hprotects⟩ := Assoc.exists_of_mem_forall₂ hforms hmem
    obtain rfl : key = name := hname
    refine ⟨form.value, hheaders key form hform, ?_⟩
    unfold StoredHeader
    dsimp only at hprotects
    split at hprotects
    · rw [hprotects]
    · exact hprotects.2
  · intro key hnone
    have hfresh : key ∉ forms.map Prod.fst := by
      rw [hkeys]
      intro hmem
      obtain ⟨⟨_, child⟩, hchild, rfl⟩ := List.mem_map.mp hmem
      rw [(Assoc.get_eq_some_iff_of_nodup hsorted.nodup_keys).mpr hchild] at hnone
      cases hnone
    rw [hother key hfresh]
    split
    · rename_i hfields
      simp [hfields, headerMetadataNames]
    · exact isSome_get_headerMetadata_iff

/-- No header makes a stored header map read as a reference. -/
theorem inputRefMetadata_protectedHeaders (hsorted : Assoc.Sorted headers)
    (h : ProtectsHeaders run refs (.object headers) (.object out)) :
    inputRefMetadata libs out = none := by
  obtain ⟨-, hheaders, hother⟩ := get_protectedHeaders hsorted h
  have hmarker : Assoc.get out "encrypted_input_ref" ≠ some (.bool true) := by
    intro hmarked
    cases hget : Assoc.get headers "encrypted_input_ref" with
    | none =>
        have hname := (hother _ hget).mp (by rw [hmarked, Option.isSome_some])
        simp [headerMetadataNames, sensitiveFieldsRedacted] at hname
    | some child =>
        obtain ⟨stored, hstored, hheader⟩ := hheaders _ _ (Assoc.mem_of_get hget)
        have hrule : headerRule (normalizeInputKey "encrypted_input_ref") = _ :=
          headerRule_other (by decide +kernel) (by decide +kernel) (by decide)
        obtain ⟨members, rfl⟩ := encrypted_eq_object ((storedHeader_iff hrule).mp hheader)
        rw [hmarked] at hstored
        cases hstored
  unfold inputRefMetadata
  rw [if_neg hmarker]

/-- The headers that are restored: the map has the three names that are added to every map,
and each header that is encrypted is a text. -/
def RestorableHeaders (libs : Libraries) : Json → Prop
  | .object headers =>
      (∀ name ∈ headerMetadataNames, (Assoc.get headers name).isSome) ∧
        ∀ key child, (key, child) ∈ headers →
          if (headerRule (normalizeInputKey key)).isSome then isText child = true
          else NoRefs libs child
  | value => isText value = true

theorem rehydrate_storedHeader (hresolver : Resolves resolver refs)
    (h : StoredHeader run refs key child stored)
    (hrestorable : if (headerRule (normalizeInputKey key)).isSome then isText child = true
      else NoRefs run.libs child) :
    rehydrateInputRefValue run.libs resolver stored = .ok child := by
  unfold StoredHeader at h
  split at h
  · rename_i hrule
    rw [hrule] at hrestorable
    subst h
    exact rehydrate_of_noRefs stored (by simpa using hrestorable)
  · rename_i summary _ hrule
    rw [hrule] at hrestorable
    have htext : isText child = true := by simpa using hrestorable
    rw [rehydrate_encrypted hresolver (by simp [purposes]) h, string_valueToInputString htext]

theorem restorable_of_storedHeader (hresolver : Resolves resolver refs)
    (h : StoredHeader run refs key child stored)
    (hrestored : RestoredAs run.libs resolver stored child) :
    if (headerRule (normalizeInputKey key)).isSome then isText child = true
    else NoRefs run.libs child := by
  unfold StoredHeader at h
  split at h
  · rename_i hrule
    subst h
    rw [hrule]
    simpa using noRefs_of_restoredAs hrestored
  · rename_i summary _ hrule
    rw [hrule]
    simpa using isText_of_encrypted hresolver (by simp [purposes]) h hrestored

theorem rehydrate_headers (hordered : Json.Ordered value) (hresolver : Resolves resolver refs)
    (h : ProtectsHeaders run refs value stored) (hrestorable : RestorableHeaders run.libs value) :
    rehydrateInputRefValue run.libs resolver stored = .ok value := by
  cases value with
  | object headers =>
      obtain ⟨hnames, hheaders⟩ := hrestorable
      obtain ⟨forms, ordered, out, hforms, hperm, hadd, rfl⟩ := h
      have hprotects : ProtectsHeaders run refs (.object headers) (.object out) :=
        ⟨forms, ordered, out, hforms, hperm, hadd, rfl⟩
      obtain ⟨hsorted, hstored, hother⟩ := get_protectedHeaders hordered.sorted hprotects
      refine (rehydrate_object_eq_ok_iff
        (inputRefMetadata_protectedHeaders hordered.sorted hprotects)).mpr ⟨headers, rfl, ?_⟩
      suffices hrel : ∀ key, Option.Rel
          (fun stored child => rehydrateInputRefValue run.libs resolver stored = .ok child)
          (Assoc.get out key) (Assoc.get headers key) from
        hsorted.forall₂ hordered.sorted hrel
      intro key
      cases hget : Assoc.get headers key with
      | none =>
          have hnone : Assoc.get out key = none := by
            rw [← Option.not_isSome_iff_eq_none, hother key hget]
            intro hname
            have hsome := hnames key hname
            rw [hget] at hsome
            cases hsome
          rw [hnone]
          exact .none
      | some child =>
          have hmem := Assoc.mem_of_get hget
          obtain ⟨form, hform, hheader⟩ := hstored key child hmem
          rw [hform]
          exact .some (rehydrate_storedHeader hresolver hheader (hheaders key child hmem))
  | _ =>
      rw [rehydrate_encrypted hresolver (by simp [purposes]) h,
        string_valueToInputString hrestorable]

theorem restorableHeaders_of_restoredAs (hordered : Json.Ordered value)
    (hresolver : Resolves resolver refs) (h : ProtectsHeaders run refs value stored)
    (hrestored : RestoredAs run.libs resolver stored value) : RestorableHeaders run.libs value := by
  cases value with
  | object headers =>
      obtain ⟨forms, ordered, out, hforms, hperm, hadd, rfl⟩ := h
      obtain ⟨hsorted, hstored, hother⟩ := get_protectedHeaders hordered.sorted
        ⟨forms, ordered, out, hforms, hperm, hadd, rfl⟩
      -- the stored map and the submitted one have the same names
      have hrel (key : String) : Option.Rel (RestoredAs run.libs resolver) (Assoc.get out key)
          (Assoc.get headers key) := Assoc.rel_get_of_forall₂ (restoredAs_object hrestored).2 key
      constructor
      · intro name hname
        cases hget : Assoc.get headers name with
        | some child => rfl
        | none =>
            obtain ⟨value, hvalue⟩ := Option.isSome_iff_exists.mp ((hother name hget).mpr hname)
            have hnone := hrel name
            rw [hget, hvalue] at hnone
            cases hnone
      · intro key child hmem
        obtain ⟨form, hform, hheader⟩ := hstored key child hmem
        have hsome := hrel key
        rw [hform, (Assoc.get_eq_some_iff_of_nodup hordered.sorted.nodup_keys).mpr hmem] at hsome
        cases hsome with
        | some hkept => exact restorable_of_storedHeader hresolver hheader hkept
  | _ => exact isText_of_encrypted hresolver (by simp [purposes]) h hrestored

/-! ## Restored definitions -/

/-- What a member must be to be restored under a rule; the last argument says it for the member's
own parts. -/
def RestorableBy (libs : Libraries) (rule : Rule) (child : Json) (descended : Prop) : Prop :=
  match rule with
  | .keep => NoRefs libs child
  | .headers => RestorableHeaders libs child
  | .encrypt _ _ => isText child = true
  | .descend => descended

mutual

/-- Every part that is replaced by a reference is a text, no other text is changed, no object
reads as a reference, and header maps are as they are stored. -/
def Restorable (libs : Libraries) : String → Json → Prop
  | _, .object members => inputRefMetadata libs members = none ∧ RestorableMembers libs members
  | parentKey, .array items => RestorableItems libs parentKey items
  | parentKey, .string text =>
      (textRule parentKey text).isSome ∨ redactInlineInputAuth text = text
  | _, _ => True

def RestorableItems (libs : Libraries) (parentKey : String) : List Json → Prop
  | [] => True
  | item :: items => Restorable libs parentKey item ∧ RestorableItems libs parentKey items

def RestorableMembers (libs : Libraries) : List (String × Json) → Prop
  | [] => True
  | (key, child) :: members =>
      RestorableBy libs (memberRule libs (normalizeInputKey key) child) child
          (Restorable libs (normalizeInputKey key) child) ∧
        RestorableMembers libs members

end

/-- The names of references are safe, so protecting an object makes it no reference. -/
theorem get_protectsMembers (hsafe : inputKeySafe (normalizeInputKey key) = true)
    (h : ProtectsMembers run refs members out) : Assoc.get out key = Assoc.get members key := by
  induction members generalizing out with
  | nil =>
      rw [ProtectsMembers] at h
      rw [h]
  | cons member members ih =>
      obtain ⟨name, child⟩ := member
      obtain ⟨first, rest, rfl, hfirst, hrest⟩ := protectsMembers_cons_iff.mp h
      rw [Assoc.get, Assoc.get, ih hrest]
      by_cases hkey : key = name
      · have hkeep : memberRule run.libs (normalizeInputKey name) child = .keep := by
          unfold memberRule
          rw [if_pos (hkey ▸ hsafe)]
        rw [hkeep] at hfirst
        obtain rfl : first = child := hfirst
        rfl
      · simp only [hkey, if_false]

theorem inputRefMetadata_protectsMembers (h : ProtectsMembers run refs members out) :
    inputRefMetadata libs out = inputRefMetadata libs members := by
  have hsafe : ∀ key ∈ ["encrypted_input_ref", "encrypted_input_ref_id", "purpose"],
      inputKeySafe (normalizeInputKey key) = true := by decide +kernel
  unfold inputRefMetadata
  rw [get_protectsMembers (hsafe _ (by simp)) h, get_protectsMembers (hsafe _ (by simp)) h,
    get_protectsMembers (hsafe _ (by simp)) h]

/-- A member that may be restored is, if its own parts are. -/
theorem rehydrate_follows {restorable : Prop} (hordered : Json.Ordered child)
    (hresolver : Resolves resolver refs)
    (hpurpose : ∀ purpose summary, rule = .encrypt purpose summary → purpose ∈ purposes)
    (hdescend : descends → restorable → rehydrateInputRefValue run.libs resolver stored = .ok child)
    (h : Follows run refs rule child stored descends)
    (hrestorable : RestorableBy run.libs rule child restorable) :
    rehydrateInputRefValue run.libs resolver stored = .ok child := by
  cases rule with
  | keep =>
      obtain rfl : stored = child := h
      exact rehydrate_of_noRefs stored hrestorable
  | headers => exact rehydrate_headers hordered hresolver h hrestorable
  | encrypt purpose summary =>
      rw [rehydrate_encrypted hresolver (hpurpose purpose summary rfl) h,
        string_valueToInputString hrestorable]
  | descend => exact hdescend h hrestorable

theorem restorableBy_of_restoredAs {restorable : Prop} (hordered : Json.Ordered child)
    (hresolver : Resolves resolver refs)
    (hpurpose : ∀ purpose summary, rule = .encrypt purpose summary → purpose ∈ purposes)
    (hdescend : descends → restorable) (h : Follows run refs rule child stored descends)
    (hrestored : RestoredAs run.libs resolver stored child) :
    RestorableBy run.libs rule child restorable := by
  cases rule with
  | keep =>
      obtain rfl : stored = child := h
      exact noRefs_of_restoredAs hrestored
  | headers => exact restorableHeaders_of_restoredAs hordered hresolver h hrestored
  | encrypt purpose summary =>
      exact isText_of_encrypted hresolver (hpurpose purpose summary rfl) h hrestored
  | descend => exact hdescend h

theorem ordered_items (h : Json.Ordered (.array items)) :
    ∀ item ∈ items, Json.Ordered item := by
  cases h
  assumption

theorem ordered_members (h : Json.Ordered (.object members)) :
    ∀ member ∈ members, Json.Ordered member.2 := by
  cases h
  assumption

variable {parentKey : String}

theorem protectsItems_iff {out : List Json} :
    ProtectsItems run refs parentKey items out ↔
      List.Forall₂ (Protects run refs parentKey) items out := by
  induction items generalizing out with
  | nil => simp [ProtectsItems]
  | cons item items ih =>
      constructor
      · rintro ⟨first, rest, rfl, hfirst, hrest⟩
        exact .cons hfirst (ih.mp hrest)
      · intro h
        cases h with
        | cons hfirst hrest => exact ⟨_, _, rfl, hfirst, ih.mpr hrest⟩

theorem protectsMembers_iff :
    ProtectsMembers run refs members out ↔
      List.Forall₂ (fun member part => member.1 = part.1 ∧
        Follows run refs (memberRule run.libs (normalizeInputKey member.1) member.2) member.2 part.2
          (Protects run refs (normalizeInputKey member.1) member.2 part.2)) members out := by
  induction members generalizing out with
  | nil => simp [ProtectsMembers]
  | cons member members ih =>
      obtain ⟨key, child⟩ := member
      rw [protectsMembers_cons_iff]
      constructor
      · rintro ⟨first, rest, rfl, hfirst, hrest⟩
        exact .cons ⟨rfl, hfirst⟩ (ih.mp hrest)
      · intro h
        cases h with
        | @cons _ part _ rest hpart hrest =>
            obtain ⟨name, first⟩ := part
            obtain rfl : key = name := hpart.1
            exact ⟨first, rest, rfl, hpart.2, ih.mpr hrest⟩

theorem restorableItems_iff :
    RestorableItems libs parentKey items ↔ ∀ item ∈ items, Restorable libs parentKey item := by
  induction items with
  | nil => simp [RestorableItems]
  | cons item items ih => simp [RestorableItems, ih]

theorem restorableMembers_iff :
    RestorableMembers libs members ↔ ∀ member ∈ members,
      RestorableBy libs (memberRule libs (normalizeInputKey member.1) member.2) member.2
        (Restorable libs (normalizeInputKey member.1) member.2) := by
  induction members with
  | nil => simp [RestorableMembers]
  | cons member members ih => simp [RestorableMembers, ih]

/-- A restorable definition is restored. -/
theorem rehydrate_of_restorable (hresolver : Resolves resolver refs)
    (hordered : Json.Ordered value) (h : Protects run refs parentKey value stored)
    (hrestorable : Restorable run.libs parentKey value) :
    rehydrateInputRefValue run.libs resolver stored = .ok value := by
  induction value using Json.induction generalizing parentKey stored with
  | null | bool | number =>
      rw [Protects] at h
      rw [h, rehydrateInputRefValue]
      all_goals simp
  | string text =>
      cases hrule : textRule parentKey text with
      | none =>
          simp only [Protects, Restorable, hrule] at h hrestorable
          simp only [Option.isSome_none, Bool.false_eq_true, false_or] at hrestorable
          rw [h, hrestorable, rehydrate_string]
      | some rule =>
          obtain ⟨purpose, summary⟩ := rule
          simp only [Protects, hrule] at h
          exact rehydrate_encrypted hresolver (textRule_purpose hrule) h
  | array items ih =>
      obtain ⟨out, rfl, hout⟩ := h
      have hitems : ∀ item ∈ items, ∀ part, Protects run refs parentKey item part →
          rehydrateInputRefValue run.libs resolver part = .ok item :=
        fun item hitem part hpart => ih item hitem (ordered_items hordered item hitem) hpart
          (restorableItems_iff.mp hrestorable item hitem)
      refine rehydrate_array_eq_ok_iff.mpr ⟨items, rfl, .flip ?_⟩
      exact ((List.forall₂_and_left _ _).mpr ⟨hitems, protectsItems_iff.mp hout⟩).imp
        fun item part hpart => hpart.1 part hpart.2
  | object members ih =>
      obtain ⟨hmetadata, hmembers⟩ := hrestorable
      simp only [Protects, hmetadata] at h
      obtain ⟨out, rfl, hout⟩ := h
      have hrestored : ∀ member ∈ members, ∀ part,
          Follows run refs (memberRule run.libs (normalizeInputKey member.1) member.2) member.2 part
            (Protects run refs (normalizeInputKey member.1) member.2 part) →
          rehydrateInputRefValue run.libs resolver part = .ok member.2 := by
        intro member hmember part hpart
        have hchild := ordered_members hordered member hmember
        exact rehydrate_follows hchild hresolver (fun _ _ hrule => memberRule_purpose hrule)
          (ih member hmember hchild) hpart (restorableMembers_iff.mp hmembers member hmember)
      refine (rehydrate_object_eq_ok_iff ?_).mpr ⟨members, rfl, .flip ?_⟩
      · rw [inputRefMetadata_protectsMembers hout, hmetadata]
      · exact ((List.forall₂_and_left _ _).mpr ⟨hrestored, protectsMembers_iff.mp hout⟩).imp
          fun member part hpart => ⟨hpart.2.1.symm, hpart.1 part.2 hpart.2.2⟩

/-- A definition that keeps its shape is restorable. -/
theorem restorable_of_restoredAs (hresolver : Resolves resolver refs)
    (hordered : Json.Ordered value) (h : Protects run refs parentKey value stored)
    (hrestored : RestoredAs run.libs resolver stored value) :
    Restorable run.libs parentKey value := by
  induction value using Json.induction generalizing parentKey stored with
  | null | bool | number => simp [Restorable]
  | string text =>
      cases hrule : textRule parentKey text with
      | none =>
          obtain ⟨restored, hrestored, hshape⟩ := hrestored
          simp only [Protects, hrule] at h
          rw [h, rehydrate_string] at hrestored
          cases hrestored
          rw [Restorable]
          exact .inr (Json.string.inj (Json.shape_eq_string_iff.mp hshape))
      | some rule => simp [Restorable, hrule]
  | array items ih =>
      obtain ⟨out, rfl, hout⟩ := h
      have hitems := List.forall₂_same.mp
        (Assoc.forall₂_comp (protectsItems_iff.mp hout) (restoredAs_array hrestored))
      refine restorableItems_iff.mpr fun item hitem => ?_
      obtain ⟨part, hpart, hkept⟩ := hitems item hitem
      exact ih item hitem (ordered_items hordered item hitem) hpart hkept
  | object members ih =>
      cases hmetadata : inputRefMetadata run.libs members with
      | some ref =>
          simp only [Protects, hmetadata] at h
          subst h
          rw [(restoredAs_object hrestored).1] at hmetadata
          cases hmetadata
      | none =>
          simp only [Protects, hmetadata] at h
          obtain ⟨out, rfl, hout⟩ := h
          have hmembers := List.forall₂_same.mp
            (Assoc.forall₂_comp (protectsMembers_iff.mp hout) (restoredAs_object hrestored).2)
          refine ⟨hmetadata, restorableMembers_iff.mpr fun member hmember => ?_⟩
          obtain ⟨part, ⟨-, hpart⟩, -, hkept⟩ := hmembers member hmember
          have hchild := ordered_members hordered member hmember
          exact restorableBy_of_restoredAs hchild hresolver (fun _ _ hrule => memberRule_purpose hrule)
            (fun hprotects => ih member hmember hchild hprotects hkept) hpart hkept

/-! ## Definitions stored without a key -/

/-- An object whose names do not mark it as a reference. -/
theorem noRefs_objectOf {fields : List (String × Json)}
    (hmarker : "encrypted_input_ref" ∉ fields.map Prod.fst)
    (hvalues : ∀ field ∈ fields, NoRefs libs field.2) : NoRefs libs (objectOf fields) := by
  refine ⟨?_, noRefsMembers_iff.mpr ?_⟩
  · unfold inputRefMetadata
    rw [Assoc.get_insertAll_of_notMem hmarker]
    simp [Assoc.get]
  · intro member hmember
    obtain hfield | hnil := Assoc.mem_insertAll hmember
    · exact hvalues member hfield
    · cases hnil

theorem noRefs_inputRedactedEnvelope (value : Json) (reason : String) :
    NoRefs libs (inputRedactedEnvelope libs value reason) :=
  noRefs_objectOf (by simp) (by simp [NoRefs, NoRefsItems])

theorem noRefs_safePathEnvelope (path : String) : NoRefs libs (safePathEnvelope libs path) :=
  noRefs_objectOf (by simp) (by simp [NoRefs, NoRefsItems])

theorem noRefs_safeURLForPersistence (raw : String) :
    NoRefs libs (safeURLForPersistence libs raw) := by
  unfold safeURLForPersistence
  dsimp only
  split
  · trivial
  · split
    · trivial
    · split
      · trivial
      · split
        · exact noRefs_objectOf (by simp) (by simp [NoRefs, NoRefsItems])
        · exact noRefs_objectOf (by simp) (by simp [NoRefs])

theorem noRefs_of_persistRule {form : Json} (h : persistRule libs normalized child = .store form) :
    NoRefs libs form := by
  unfold persistRule at h
  split_ifs at h <;> cases h
  · exact noRefs_inputRedactedEnvelope _ _
  · exact noRefs_safePathEnvelope _
  · exact noRefs_safeURLForPersistence _

/-- A header whose value is not sanitized is stored as an object that is no reference. -/
theorem noRefs_of_persistHeaderRule (h : persistHeaderRule libs normalized child = some form) :
    NoRefs libs form.value ∧ ∃ members, form.value = .object members := by
  unfold persistHeaderRule at h
  split_ifs at h <;> cases h
  · exact ⟨noRefs_inputRedactedEnvelope _ _, _, rfl⟩
  · exact ⟨noRefs_inputRedactedEnvelope _ _, _, rfl⟩

theorem persistHeaderRule_other (hname : normalizeInputKey key = key)
    (hsensitive : (normalizedPatterns.any fun pattern => Text.contains key pattern) = false)
    (hother : key ∉ allowedHeaders) (child : Json) :
    persistHeaderRule libs (normalizeInputKey key) child =
      some ⟨inputRedactedEnvelope libs child "non_allowlisted_header", false⟩ := by
  unfold persistHeaderRule
  rw [hname, inputKeySensitive_eq, hsensitive, if_neg Bool.false_ne_true, if_neg hother]

theorem noRefs_get_headerMetadata {policyVersion : String}
    (h : Assoc.get (headerMetadata policyVersion) key = some value) : NoRefs libs value := by
  have hmem := Assoc.mem_of_get h
  obtain hfield | hnil := Assoc.mem_insertAll hmem
  · simp only [List.mem_cons, List.not_mem_nil, or_false, Prod.mk.injEq] at hfield
    obtain ⟨-, rfl⟩ | ⟨-, rfl⟩ | ⟨-, rfl⟩ := hfield <;> simp [NoRefs, NoRefsItems]
  · cases hnil

section Unkeyed

variable {order : List (String × HeaderForm) → List (String × HeaderForm)}

/-- A header is stored in a fixed form, or its sanitized value has no references if it keeps its
shape. -/
def SafeHeader (libs : Libraries)
    (resolver : Uuid → String → Except InputRefError (List UInt8)) (header : String × Json)
    (form : String × HeaderForm) : Prop :=
  header.1 = form.1 ∧
    (persistHeaderRule libs (normalizeInputKey header.1) header.2 = some form.2 ∨
      persistHeaderRule libs (normalizeInputKey header.1) header.2 = none ∧
        ∀ restored, rehydrateInputRefValue libs resolver form.2.value = .ok restored →
          Json.shape restored = Json.shape header.2 → NoRefs libs form.2.value)

variable {forms : List (String × HeaderForm)}

theorem exists_safeHeader_of_mem (h : List.Forall₂ (SafeHeader libs resolver) headers forms)
    (hmem : (key, form) ∈ forms) :
    ∃ child, (key, child) ∈ headers ∧ SafeHeader libs resolver (key, child) (key, form) := by
  have hflip := List.Forall₂.flip (R := flip (SafeHeader libs resolver)) h
  obtain ⟨⟨name, child⟩, hchild, hsafe⟩ := Assoc.exists_of_mem_forall₂ hflip hmem
  obtain rfl : name = key := hsafe.1
  exact ⟨child, hchild, hsafe⟩

/-- A header map that keeps its shape has no references. -/
theorem noRefs_headerMap (hsorted : Assoc.Sorted headers) (horder : (order forms).Perm forms)
    (hforms : List.Forall₂ (SafeHeader libs resolver) headers forms)
    (hadd : addHeaders (order forms) (headerMetadata inputRedactionPolicyVersion) = .ok out)
    (hrestored : RestoredAs libs resolver (.object out) (.object headers)) :
    NoRefs libs (.object out) := by
  have hkeys := Assoc.keys_of_forall₂ (fun _ _ h => h.1) hforms
  have hnodup : (forms.map Prod.fst).Nodup := hkeys ▸ hsorted.nodup_keys
  -- a header with the name of the list is stored as a redacted object
  have hown : ∀ form, (sensitiveFieldsRedacted, form) ∈ forms →
      form.sensitive = false ∧ ∀ fields, form.value ≠ .array fields := by
    intro form hform
    obtain ⟨child, -, -, hrule⟩ := exists_safeHeader_of_mem hforms hform
    have hfixed : persistHeaderRule libs (normalizeInputKey sensitiveFieldsRedacted) child = _ :=
      persistHeaderRule_other (by decide +kernel) (by decide +kernel) (by decide) child
    rw [hfixed] at hrule
    obtain hrule | ⟨hrule, -⟩ := hrule
    · cases hrule
      exact ⟨rfl, nofun⟩
    · cases hrule
  obtain ⟨hout, hheaders, hother⟩ := addHeaders_spec hnodup horder hown hadd
  obtain ⟨hmetadata, hmembers⟩ := restoredAs_object hrestored
  refine ⟨hmetadata, noRefsMembers_iff.mpr ?_⟩
  rintro ⟨key, value⟩ hmem
  have hget := (Assoc.get_eq_some_iff_of_nodup hout.nodup_keys).mpr hmem
  by_cases hkey : key ∈ forms.map Prod.fst
  · obtain ⟨⟨name, form⟩, hform, hname⟩ := List.mem_map.mp hkey
    obtain rfl : name = key := hname
    obtain rfl : form.value = value := by simpa [hheaders _ _ hform] using hget
    obtain ⟨child, hchild, -, hrule | ⟨-, hsafe⟩⟩ := exists_safeHeader_of_mem hforms hform
    · exact (noRefs_of_persistHeaderRule hrule).1
    · have hsome : Option.Rel (RestoredAs libs resolver) (Assoc.get out name)
          (Assoc.get headers name) := Assoc.rel_get_of_forall₂ hmembers name
      rw [hget, (Assoc.get_eq_some_iff_of_nodup hsorted.nodup_keys).mpr hchild] at hsome
      cases hsome with
      | some hkept =>
          obtain ⟨restored, hrestored, hsame⟩ := hkept
          exact hsafe restored hrestored hsame
  · rw [hother key hkey] at hget
    split at hget
    · cases hget
      simp only [NoRefs]
      generalize ((order forms).filter fun entry => entry.2.sensitive) = listed
      induction listed with
      | nil => trivial
      | cons entry listed ih => exact ⟨trivial, ih⟩
    · exact noRefs_get_headerMetadata hget

theorem sanitizeMembers_cons_eq_ok_iff :
    sanitizeMembers libs order ((key, child) :: members) = .ok out ↔
      ∃ first rest, out = (key, first) :: rest ∧
        (match persistRule libs (normalizeInputKey key) child with
          | .sanitize => sanitizeInputValue libs order child
          | .store form => .ok form
          | .headers => safeHeaderMetadata libs order child) = .ok first ∧
        sanitizeMembers libs order members = .ok rest := by
  have hstep (chosen : Except ProtectError Json) :
      (do
        let first ← chosen
        let rest ← sanitizeMembers libs order members
        .ok ((key, first) :: rest)) = Except.ok out ↔
      ∃ first rest, out = (key, first) :: rest ∧ chosen = .ok first ∧
        sanitizeMembers libs order members = .ok rest := by
    simp only [Validation.bind_eq_ok_iff, Except.ok.injEq]
    constructor
    · rintro ⟨first, hfirst, rest, hrest, rfl⟩
      exact ⟨first, rest, rfl, hfirst, hrest⟩
    · rintro ⟨first, rest, rfl, hfirst, hrest⟩
      exact ⟨first, hfirst, rest, hrest, rfl⟩
  rw [sanitizeMembers]
  cases persistRule libs (normalizeInputKey key) child with
  | sanitize => exact hstep _
  | store form => exact hstep _
  | headers => exact hstep _

theorem safeHeaderForms_cons_eq_ok_iff :
    safeHeaderForms libs order ((key, child) :: headers) = .ok forms ↔
      ∃ form rest, forms = (key, form) :: rest ∧
        (persistHeaderRule libs (normalizeInputKey key) child = some form ∨
          persistHeaderRule libs (normalizeInputKey key) child = none ∧
            sanitizeInputValue libs order child = .ok form.value ∧ form.sensitive = false) ∧
        safeHeaderForms libs order headers = .ok rest := by
  rw [safeHeaderForms]
  cases hrule : persistHeaderRule libs (normalizeInputKey key) child with
  | some fixed =>
      simp only [Validation.bind_eq_ok_iff, Except.ok.injEq, Option.some.injEq, reduceCtorEq,
        false_and, or_false]
      constructor
      · rintro ⟨_, rfl, rest, hrest, rfl⟩
        exact ⟨fixed, rest, rfl, rfl, hrest⟩
      · rintro ⟨_, rest, rfl, rfl, hrest⟩
        exact ⟨fixed, rfl, rest, hrest, rfl⟩
  | none =>
      simp only [Validation.bind_eq_ok_iff, Except.ok.injEq, reduceCtorEq, true_and, false_or]
      constructor
      · rintro ⟨value, hvalue, _, rfl, rest, hrest, rfl⟩
        exact ⟨_, rest, rfl, ⟨hvalue, rfl⟩, hrest⟩
      · rintro ⟨⟨value, sensitive⟩, rest, rfl, ⟨hvalue, hplain⟩, hrest⟩
        obtain rfl : sensitive = false := hplain
        exact ⟨value, hvalue, _, rfl, rest, hrest, rfl⟩

set_option linter.unusedSectionVars false

variable (horder : ∀ forms, (order forms).Perm forms)
include horder

mutual

/-- A sanitized value that keeps its shape when it is restored has no references. -/
theorem noRefs_of_sanitize : (value : Json) →
    ∀ stored, Json.Ordered value → sanitizeInputValue libs order value = .ok stored →
      RestoredAs libs resolver stored value → NoRefs libs stored
  | .object members => by
      intro stored hordered h hrestored
      rw [sanitizeInputValue, Validation.bind_eq_ok_iff] at h
      obtain ⟨out, hout, heq⟩ := h
      cases heq
      obtain ⟨hmetadata, hmembers⟩ := restoredAs_object hrestored
      exact ⟨hmetadata, noRefsMembers_of_sanitize members out (ordered_members hordered) hout
        hmembers⟩
  | .array items => by
      intro stored hordered h hrestored
      rw [sanitizeInputValue, Validation.bind_eq_ok_iff] at h
      obtain ⟨out, hout, heq⟩ := h
      cases heq
      exact noRefsItems_of_sanitize items out (ordered_items hordered) hout
        (restoredAs_array hrestored)
  | .string text => by
      intro stored hordered h hrestored
      rw [sanitizeInputValue] at h
      split_ifs at h <;> cases h
      · exact noRefs_safePathEnvelope text
      · exact noRefs_inputRedactedEnvelope _ _
      · trivial
  | .null | .bool _ | .number _ => by
      intro stored hordered h hrestored
      simp only [sanitizeInputValue, Except.ok.injEq] at h
      subst h
      trivial

theorem noRefsItems_of_sanitize :
    (items : List Json) → ∀ out, (∀ item ∈ items, Json.Ordered item) →
      sanitizeItems libs order items = .ok out →
      List.Forall₂ (RestoredAs libs resolver) out items → NoRefsItems libs out
  | [] => by
      intro out hordered h hrestored
      cases h
      trivial
  | item :: items => by
      intro out hordered h hrestored
      rw [sanitizeItems, Validation.bind_eq_ok_iff] at h
      obtain ⟨first, hfirst, h⟩ := h
      rw [Validation.bind_eq_ok_iff] at h
      obtain ⟨rest, hrest, heq⟩ := h
      cases heq
      rw [List.forall_mem_cons] at hordered
      obtain ⟨hkept, hkepts⟩ := List.forall₂_cons.mp hrestored
      exact ⟨noRefs_of_sanitize item first hordered.1 hfirst hkept,
        noRefsItems_of_sanitize items rest hordered.2 hrest hkepts⟩

theorem noRefsMembers_of_sanitize :
    (members : List (String × Json)) → ∀ out : List (String × Json),
      (∀ member ∈ members, Json.Ordered member.2) →
      sanitizeMembers libs order members = .ok out →
      List.Forall₂ (fun part member => part.1 = member.1 ∧
        RestoredAs libs resolver part.2 member.2) out members → NoRefsMembers libs out
  | [] => by
      intro out hordered h hrestored
      cases h
      trivial
  | (key, child) :: members => by
      intro out hordered h hrestored
      obtain ⟨first, rest, rfl, hfirst, hrest⟩ := sanitizeMembers_cons_eq_ok_iff.mp h
      rw [List.forall_mem_cons] at hordered
      obtain ⟨⟨-, hkept⟩, hkepts⟩ := List.forall₂_cons.mp hrestored
      refine ⟨?_, noRefsMembers_of_sanitize members rest hordered.2 hrest hkepts⟩
      split at hfirst
      · exact noRefs_of_sanitize child first hordered.1 hfirst hkept
      · cases hfirst
        exact noRefs_of_persistRule ‹_›
      · exact noRefs_of_safeHeaderMetadata child first hordered.1 hfirst hkept

theorem noRefs_of_safeHeaderMetadata :
    (value : Json) → ∀ stored, Json.Ordered value →
      safeHeaderMetadata libs order value = .ok stored →
      RestoredAs libs resolver stored value → NoRefs libs stored
  | .object headers => by
      intro stored hordered h hrestored
      rw [safeHeaderMetadata, Validation.bind_eq_ok_iff] at h
      obtain ⟨forms, hforms, h⟩ := h
      rw [Validation.bind_eq_ok_iff] at h
      obtain ⟨out, hadd, heq⟩ := h
      cases heq
      exact noRefs_headerMap hordered.sorted (horder forms)
        (safeHeaders_of_forms headers forms (ordered_members hordered) hforms) hadd hrestored
  | .array _ | .string _ | .null | .bool _ | .number _ => by
      intro stored hordered h hrestored
      simp only [safeHeaderMetadata, Except.ok.injEq] at h
      subst h
      exact noRefs_inputRedactedEnvelope _ _

theorem safeHeaders_of_forms :
    (headers : List (String × Json)) → ∀ forms, (∀ header ∈ headers, Json.Ordered header.2) →
      safeHeaderForms libs order headers = .ok forms →
        List.Forall₂ (SafeHeader libs resolver) headers forms
  | [] => by
      intro forms hordered h
      cases h
      exact .nil
  | (key, child) :: headers => by
      intro forms hordered h
      obtain ⟨form, rest, rfl, hform, hrest⟩ := safeHeaderForms_cons_eq_ok_iff.mp h
      rw [List.forall_mem_cons] at hordered
      refine .cons ⟨rfl, ?_⟩ (safeHeaders_of_forms headers rest hordered.2 hrest)
      obtain hrule | ⟨hrule, hvalue, -⟩ := hform
      · exact .inl hrule
      · exact .inr ⟨hrule, fun restored hrestored hshape => noRefs_of_sanitize child
          form.value hordered.1 hvalue ⟨restored, hrestored, hshape⟩⟩

end

end Unkeyed

end Restoration

/-- With a key, the round trip gives the submitted value if its numbers are read exactly and it
is restorable.  Without a key, if what is stored is the submitted value and has no part that
reads as a reference. -/
def RoundTrips (libs : Libraries) (env : KeyEnvironment) (definition stored : Json) : Prop :=
  match activeCipher libs.services env with
  | .ok _ =>
      ∃ value, decodeNumbers libs.services.float64 definition = some value ∧
        Json.SameValue definition value ∧ Restorable libs "" value
  | .error _ => Json.SameValue definition stored ∧ NoRefs libs stored

/-- Libraries that parse no address. -/
def plainLibraries : Libraries where
  services := plainServices
  urlParse _ := none
  uuidParse := Uuid.ofText
  uuidParse_string := Uuid.ofText_string
  text bytes := (String.fromUTF8? ⟨bytes.toArray⟩).getD ""
  text_textBytes s := by
    simp [textBytes, String.fromUTF8?, String.fromUTF8, s.isValidUTF8]

def plainDraws : Draws where
  ids n := BitVec.ofNat 128 (n % 2 ^ 64 + 1)
  ids_ne n h := by
    have hzero : (BitVec.ofNat 128 (n % 2 ^ 64 + 1)).toNat = 0 := by rw [h]; rfl
    rw [BitVec.toNat_ofNat] at hzero
    omega
  nonces _ := []
  order _ forms := forms
  order_perm _ forms := .refl forms

/-- The reference that is created first. -/
def firstCreation (purpose plaintext : String) : Creation where
  scope := ⟨"acme", 1, 1, purpose⟩
  inputRefID_ne := by
    show (1 : Uuid) ≠ Uuid.nil
    decide
  nonce := []
  plaintext := textBytes plaintext
  expiresAt := none

/-- The object that stands for a reference. -/
def firstForm (purpose summary plaintext : String) : Json :=
  encryptedInputRefMetadata (buildRef plainServices firstCipher (firstCreation purpose plaintext))
    summary

theorem activeCipher_firstEnvironment :
    activeCipher plainServices firstEnvironment = .ok firstCipher :=
  Validation.bind_eq_ok_iff.mpr ⟨_, build_firstEnvironment, by decide +kernel⟩

end InputRefs
end Igris
