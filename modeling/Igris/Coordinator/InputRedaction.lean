import Igris.Coordinator.InputRefs

/-!
# Redaction of task inputs

Which names, texts and addresses of a task definition count as sensitive, and the
redacted form that is stored when no key is configured.

Main results:

- Theorem {lit}`get_addHeaders`: which member a header map has after its headers were
  added to it, in any order.
-/

namespace Igris
namespace InputRefs

open Json (goText)

/-! ## Names and texts -/

def inputRedactionPolicyVersion : String := "overture-input-redaction-v1"

def maxSafeInputStringLength : Nat := 512

def sensitiveInputKeyPatterns : List String :=
  ["authorization", "cookie", "set_cookie", "set-cookie", "token", "secret", "password", "api_key",
    "apikey", "access_key", "refresh_token", "private_key", "credential", "body", "raw_body",
    "response_body", "request_body", "payload", "content", "file_content", "file_contents",
    "full_text", "file_path", "absolute_path", "full_absolute_path"]

def safeInputMetadataKeys : List String :=
  ["content_redacted", "content_digest", "content_digest_sha256", "content_bytes", "content_type",
    "input_redacted", "input_digest_sha256", "input_bytes", "input_content_type",
    "encrypted_input_ref", "encrypted_input_ref_id", "purpose", "key_version", "created_at",
    "expires_at", "safe_summary", "sensitive_fields_redacted", "redaction_policy_version"]

def normalizeInputKey (key : String) : String :=
  Text.replace (Text.toLower (Text.trimSpace key)) "-" "_"

def inputKeySensitive (normalized : String) : Bool :=
  sensitiveInputKeyPatterns.any fun pattern => Text.contains normalized (normalizeInputKey pattern)

/-- The patterns as they are searched for. -/
def normalizedPatterns : List String :=
  ["authorization", "cookie", "set_cookie", "set_cookie", "token", "secret", "password", "api_key",
    "apikey", "access_key", "refresh_token", "private_key", "credential", "body", "raw_body",
    "response_body", "request_body", "payload", "content", "file_content", "file_contents",
    "full_text", "file_path", "absolute_path", "full_absolute_path"]

theorem map_normalizeInputKey_patterns :
    sensitiveInputKeyPatterns.map normalizeInputKey = normalizedPatterns := by
  decide +kernel

theorem inputKeySensitive_eq (normalized : String) :
    inputKeySensitive normalized =
      normalizedPatterns.any fun pattern => Text.contains normalized pattern := by
  rw [← map_normalizeInputKey_patterns, List.any_map]
  rfl

def inputKeySafe (normalized : String) : Bool :=
  decide (normalized ∈ safeInputMetadataKeys)

/-- The headers that may be stored as they are. -/
def allowedHeaders : List String :=
  ["content_type", "content_length", "etag", "last_modified", "cache_control", "x_request_id",
    "x_correlation_id"]

def looksLikePrivatePath (value : String) : Bool :=
  let trimmed := Text.trimSpace value
  Text.hasPrefix trimmed "/" || Text.hasPrefix trimmed "~/" || Text.hasPrefix trimmed "\\\\" ||
    -- the source compares bytes, so the letter of a drive is a single byte
    match trimmed.toList with
    | drive :: colon :: slash :: _ =>
        drive.utf8Size = 1 && colon = ':' && (slash = '\\' || slash = '/')
    | _ => false

def valueToInputString : Json → String
  | .string text => text
  | value => goText value

/-- Replace every occurrence of one of the words from left to right; the counter is the number
of characters that belong to an occurrence already replaced. -/
def replaceWords (words : List (List Char)) (new : List Char) : Nat → List Char → List Char
  | _, [] => []
  | skip + 1, _ :: cs => replaceWords words new skip cs
  | 0, c :: cs =>
      match words.find? fun word => word.isPrefixOf (c :: cs) with
      | some word => new ++ replaceWords words new (word.length - 1) cs
      | none => c :: replaceWords words new 0 cs

def redactInlineInputAuth (value : String) : String :=
  String.ofList (replaceWords ["Bearer ".toList, "Basic ".toList] "[redacted-auth] ".toList 0
    value.toList)

example : redactInlineInputAuth "a Basic x, Bearer y" = "a [redacted-auth] x, [redacted-auth] y" := by
  decide +kernel

/-- The bytes of a text. -/
def textBytes (text : String) : List UInt8 := text.toByteArray.data.toList

/-! ## Libraries -/

/-- An address as the library parses it. -/
structure ParsedURL where
  scheme : String
  host : String
  hostname : String
  escapedPath : String
  rawQuery : String
  hasUser : Bool

/-- What the treatment of inputs takes from its libraries. -/
structure Libraries where
  services : Services
  urlParse : String → Option ParsedURL
  uuidParse : String → Option Uuid
  uuidParse_string : ∀ id, uuidParse (Uuid.string id) = some id
  /-- The text that is written for some bytes. -/
  text : List UInt8 → String
  text_textBytes : ∀ s, text (textBytes s) = s

inductive ProtectError where
  | unreadable
  | keys (error : InputRefError)
  | invalidMetadata
  /-- A failed type assertion ends the request. -/
  | panic
deriving DecidableEq, Repr

def safeURLContainsSensitiveMaterial (libs : Libraries) (raw : String) : Bool :=
  match libs.urlParse (Text.trimSpace raw) with
  | none => false
  | some parsed => parsed.scheme ≠ "" && parsed.host ≠ "" && (parsed.rawQuery ≠ "" || parsed.hasUser)

/-! ## Redacted forms -/

/-- An object with the given members. -/
def objectOf (fields : List (String × Json)) : Json := .object (Assoc.insertAll fields [])

def inputRedactedEnvelope (libs : Libraries) (value : Json) (reason : String) : Json :=
  let raw := textBytes (valueToInputString value)
  objectOf [("input_redacted", .bool true), ("safe_summary", .string reason),
    ("input_digest_sha256", .string (sha256InputBytes libs.services raw)),
    ("input_bytes", .number (toString raw.length)),
    ("sensitive_fields_redacted", .array [.string reason]),
    ("redaction_policy_version", .string inputRedactionPolicyVersion)]

def safePathEnvelope (libs : Libraries) (path : String) : Json :=
  let trimmed := Text.trimSpace path
  let raw := textBytes trimmed
  objectOf [("input_redacted", .bool true), ("safe_summary", .string "private_path"),
    ("input_digest_sha256", .string (sha256InputBytes libs.services raw)),
    ("input_bytes", .number (toString raw.length)),
    ("sensitive_fields_redacted", .array [.string "private_path"]),
    ("redaction_policy_version", .string inputRedactionPolicyVersion),
    ("safe_path_digest", .string (sha256InputBytes libs.services raw))]

def safeURLForPersistence (libs : Libraries) (raw : String) : Json :=
  let trimmed := Text.trimSpace raw
  if trimmed = "" then .string ""
  else
    match libs.urlParse trimmed with
    | none => .string (redactInlineInputAuth trimmed)
    | some parsed =>
        if parsed.scheme = "" ∨ parsed.host = "" then .string (redactInlineInputAuth trimmed)
        else
          let safe : List (String × Json) :=
            [("safe_url", .string (parsed.scheme ++ "://" ++ parsed.host ++ parsed.escapedPath)),
              ("safe_host", .string parsed.hostname),
              ("redaction_policy_version", .string inputRedactionPolicyVersion)]
          if parsed.rawQuery ≠ "" ∨ parsed.hasUser then
            objectOf (safe ++ [("input_redacted", .bool true),
              ("input_digest_sha256",
                .string (sha256InputBytes libs.services (textBytes trimmed))),
              ("input_bytes", .number (toString (textBytes trimmed).length)),
              ("sensitive_fields_redacted", .array [.string "url_query_or_credentials"])])
          else objectOf safe

/-! ## Header maps -/

/-- What is stored for a header, and whether its name is listed as redacted. -/
structure HeaderForm where
  value : Json
  sensitive : Bool

def sensitiveFieldsRedacted : String := "sensitive_fields_redacted"

/-- The members of a header map before its headers are added. -/
def headerMetadata (policyVersion : String) : List (String × Json) :=
  Assoc.insertAll [("input_redacted", .bool true), (sensitiveFieldsRedacted, .array []),
    ("redaction_policy_version", .string policyVersion)] []

/-- Add headers to a map.  The names of sensitive headers are appended to a list that is a
member of the same map; a header of that name replaces the list. -/
def addHeaders : List (String × HeaderForm) → List (String × Json) →
    Except ProtectError (List (String × Json))
  | [], out => .ok out
  | (key, form) :: rest, out =>
      let out := Assoc.insert key form.value out
      if form.sensitive then
        match Assoc.get out sensitiveFieldsRedacted with
        | some (.array fields) =>
            addHeaders rest
              (Assoc.insert sensitiveFieldsRedacted (.array (fields ++ [.string key])) out)
        | _ => .error .panic
      else addHeaders rest out

section AddHeaders

variable {forms : List (String × HeaderForm)} {out out' : List (String × Json)}

/-- Adding one header: the map with the header, and the list of names longer if it is
sensitive. -/
theorem addHeaders_cons {key : String} {form : HeaderForm}
    (h : addHeaders ((key, form) :: forms) out = .ok out') :
    ∃ next, addHeaders forms next = .ok out' ∧
      (∀ name ≠ sensitiveFieldsRedacted,
        Assoc.get next name = Assoc.get (Assoc.insert key form.value out) name) ∧
      if form.sensitive then
        ∃ fields, Assoc.get (Assoc.insert key form.value out) sensitiveFieldsRedacted =
            some (.array fields) ∧
          Assoc.get next sensitiveFieldsRedacted = some (.array (fields ++ [.string key]))
      else next = Assoc.insert key form.value out := by
  rw [addHeaders] at h
  split at h
  · rename_i hsensitive
    split at h
    · rename_i fields hfields
      refine ⟨_, h, ?_, ?_⟩
      · intro name hname
        rw [Assoc.get_insert, if_neg hname]
      · rw [if_pos hsensitive]
        exact ⟨fields, hfields, by rw [Assoc.get_insert, if_pos rfl]⟩
    · cases h
  · rename_i hsensitive
    exact ⟨_, h, fun _ _ => rfl, by rw [if_neg hsensitive]⟩

/-- Every header is stored under its name; the other members stay. -/
theorem get_addHeaders {name : String} (hname : name ≠ sensitiveFieldsRedacted)
    (hkeys : (forms.map Prod.fst).Nodup) (h : addHeaders forms out = .ok out') :
    Assoc.get out' name = ((Assoc.get forms name).map (·.value)).or (Assoc.get out name) := by
  induction forms generalizing out with
  | nil =>
      cases h
      simp [Assoc.get]
  | cons entry forms ih =>
      obtain ⟨key, form⟩ := entry
      obtain ⟨next, hrest, hnext, -⟩ := addHeaders_cons h
      rw [List.map_cons, List.nodup_cons] at hkeys
      rw [ih hkeys.2 hrest, hnext name hname, Assoc.get_insert, Assoc.get]
      by_cases hkey : name = key
      · have hnone : Assoc.get forms name = none := by
          cases hget : Assoc.get forms name with
          | none => rfl
          | some found =>
              exact absurd (List.mem_map_of_mem (Assoc.mem_of_get hget)) (hkey ▸ hkeys.1)
        simp [hkey, hkey ▸ hnone]
      · simp [hkey]

/-- Without a header of its name, the list has the names of the sensitive headers, in the order
of the iteration. -/
theorem get_addHeaders_fields {fields : List Json}
    (hfields : Assoc.get out sensitiveFieldsRedacted = some (.array fields))
    (hkeys : sensitiveFieldsRedacted ∉ forms.map Prod.fst) (h : addHeaders forms out = .ok out') :
    Assoc.get out' sensitiveFieldsRedacted =
      some (.array (fields ++
        (forms.filter fun entry => entry.2.sensitive).map fun entry => .string entry.1)) := by
  induction forms generalizing out fields with
  | nil =>
      cases h
      simpa using hfields
  | cons entry forms ih =>
      obtain ⟨key, form⟩ := entry
      obtain ⟨next, hrest, -, hlist⟩ := addHeaders_cons h
      simp only [List.map_cons, List.mem_cons, not_or] at hkeys
      rw [Assoc.get_insert, if_neg hkeys.1, hfields] at hlist
      split at hlist
      · rename_i hsensitive
        obtain ⟨same, hsame, hnext⟩ := hlist
        cases hsame
        rw [ih hnext hkeys.2 hrest]
        simp [hsensitive]
      · rename_i hsensitive
        subst hlist
        rw [ih (by rw [Assoc.get_insert, if_neg hkeys.1, hfields]) hkeys.2 hrest]
        simp [hsensitive]

/-- What replaced the list stays: a sensitive header after it ends the request. -/
theorem get_addHeaders_replaced {value : Json} (hvalue : ∀ fields, value ≠ .array fields)
    (hout : Assoc.get out sensitiveFieldsRedacted = some value)
    (hkeys : sensitiveFieldsRedacted ∉ forms.map Prod.fst) (h : addHeaders forms out = .ok out') :
    Assoc.get out' sensitiveFieldsRedacted = some value := by
  induction forms generalizing out with
  | nil =>
      cases h
      exact hout
  | cons entry forms ih =>
      obtain ⟨key, form⟩ := entry
      obtain ⟨next, hrest, -, hlist⟩ := addHeaders_cons h
      simp only [List.map_cons, List.mem_cons, not_or] at hkeys
      rw [Assoc.get_insert, if_neg hkeys.1, hout] at hlist
      split at hlist
      · obtain ⟨fields, hfields, -⟩ := hlist
        exact absurd (Option.some.inj hfields) (hvalue fields)
      · subst hlist
        exact ih (by rw [Assoc.get_insert, if_neg hkeys.1, hout]) hkeys.2 hrest

theorem get_addHeaders_own {form : HeaderForm} (hvalue : ∀ fields, form.value ≠ .array fields)
    (hform : form.sensitive = false) (hkeys : (forms.map Prod.fst).Nodup)
    (hmem : (sensitiveFieldsRedacted, form) ∈ forms) (h : addHeaders forms out = .ok out') :
    Assoc.get out' sensitiveFieldsRedacted = some form.value := by
  induction forms generalizing out with
  | nil => cases hmem
  | cons entry forms ih =>
      obtain ⟨key, first⟩ := entry
      obtain ⟨next, hrest, -, hlist⟩ := addHeaders_cons h
      rw [List.map_cons, List.nodup_cons] at hkeys
      obtain hfirst | hmem := List.mem_cons.mp hmem
      · cases hfirst
        simp only [hform, Bool.false_eq_true, if_false] at hlist
        subst hlist
        exact get_addHeaders_replaced hvalue (by rw [Assoc.get_insert, if_pos rfl]) hkeys.1 hrest
      · exact ih hkeys.2 hmem hrest

theorem sorted_addHeaders (hout : Assoc.Sorted out) (h : addHeaders forms out = .ok out') :
    Assoc.Sorted out' := by
  induction forms generalizing out with
  | nil =>
      cases h
      exact hout
  | cons entry forms ih =>
      obtain ⟨key, form⟩ := entry
      rw [addHeaders] at h
      split at h
      · split at h
        · exact ih ((hout.insert key form.value).insert _ _) h
        · cases h
      · exact ih (hout.insert key form.value) h

theorem get_headerMetadata_fields (policyVersion : String) :
    Assoc.get (headerMetadata policyVersion) sensitiveFieldsRedacted = some (.array []) := by
  simp [headerMetadata, Assoc.insertAll, Assoc.get_insert, sensitiveFieldsRedacted]

/-- The members of a header map, whatever the order of its headers is.  A header that has the
name of the list must not be listed and must not be an array itself. -/
theorem addHeaders_spec {ordered : List (String × HeaderForm)} {policyVersion : String}
    (hkeys : (forms.map Prod.fst).Nodup) (hperm : ordered.Perm forms)
    (hown : ∀ form, (sensitiveFieldsRedacted, form) ∈ forms →
      form.sensitive = false ∧ ∀ fields, form.value ≠ .array fields)
    (h : addHeaders ordered (headerMetadata policyVersion) = .ok out) :
    Assoc.Sorted out ∧ (∀ key form, (key, form) ∈ forms → Assoc.get out key = some form.value) ∧
      ∀ key ∉ forms.map Prod.fst, Assoc.get out key =
        if key = sensitiveFieldsRedacted then
          some (.array ((ordered.filter fun entry => entry.2.sensitive).map fun entry =>
            .string entry.1))
        else Assoc.get (headerMetadata policyVersion) key := by
  have hnodup : (ordered.map Prod.fst).Nodup := (hperm.map Prod.fst).nodup_iff.mpr hkeys
  refine ⟨sorted_addHeaders (Assoc.Sorted.insertAll .nil _) h, ?_, ?_⟩
  · intro key form hform
    have hmem := hperm.mem_iff.mpr hform
    by_cases hkey : key = sensitiveFieldsRedacted
    · subst hkey
      obtain ⟨hplain, hvalue⟩ := hown form hform
      exact get_addHeaders_own hvalue hplain hnodup hmem h
    · rw [get_addHeaders hkey hnodup h, (Assoc.get_eq_some_iff_of_nodup hnodup).mpr hmem]
      rfl
  · intro key hkey
    have hfresh : key ∉ ordered.map Prod.fst := by rwa [(hperm.map Prod.fst).mem_iff]
    split
    · rename_i hfields
      subst hfields
      simpa using get_addHeaders_fields (get_headerMetadata_fields policyVersion) hfresh h
    · rename_i hother
      have hget : Assoc.get ordered key = none := by
        cases hget : Assoc.get ordered key with
        | none => rfl
        | some form => exact absurd (List.mem_map_of_mem (Assoc.mem_of_get hget)) hfresh
      rw [get_addHeaders hother hnodup h, hget]
      rfl

end AddHeaders

/-- What is stored for a member without a key. -/
inductive PersistRule where
  | sanitize
  | store (form : Json)
  | headers

@[irreducible]
def persistRule (libs : Libraries) (normalized : String) (child : Json) : PersistRule :=
  if inputKeySafe normalized then .sanitize
  else if inputKeySensitive normalized then
    .store (inputRedactedEnvelope libs child "sensitive_input")
  else if normalized = "path" ∧ looksLikePrivatePath (valueToInputString child) then
    .store (safePathEnvelope libs (valueToInputString child))
  else if normalized = "url" then .store (safeURLForPersistence libs (valueToInputString child))
  else if normalized = "headers" then .headers
  else .sanitize

/-- The form of a header without a key; {lit}`none` for one whose value is sanitized. -/
@[irreducible]
def persistHeaderRule (libs : Libraries) (normalized : String) (child : Json) : Option HeaderForm :=
  if inputKeySensitive normalized then
    some ⟨inputRedactedEnvelope libs child "sensitive_header", true⟩
  else if normalized ∈ allowedHeaders then none
  else some ⟨inputRedactedEnvelope libs child "non_allowlisted_header", false⟩

mutual

/-- The form that is stored without a key.  Maps are iterated in any order, which matters for
headers only. -/
def sanitizeInputValue (libs : Libraries)
    (order : List (String × HeaderForm) → List (String × HeaderForm)) :
    Json → Except ProtectError Json
  | .object members => do
      let out ← sanitizeMembers libs order members
      .ok (.object out)
  | .array items => do
      let out ← sanitizeItems libs order items
      .ok (.array out)
  | .string text =>
      if looksLikePrivatePath text then .ok (safePathEnvelope libs text)
      else if maxSafeInputStringLength < (textBytes text).length then
        .ok (inputRedactedEnvelope libs (.string text) "large_string")
      else .ok (.string (redactInlineInputAuth text))
  | value => .ok value

def sanitizeItems (libs : Libraries)
    (order : List (String × HeaderForm) → List (String × HeaderForm)) :
    List Json → Except ProtectError (List Json)
  | [] => .ok []
  | item :: items => do
      let first ← sanitizeInputValue libs order item
      let rest ← sanitizeItems libs order items
      .ok (first :: rest)

def sanitizeMembers (libs : Libraries)
    (order : List (String × HeaderForm) → List (String × HeaderForm)) :
    List (String × Json) → Except ProtectError (List (String × Json))
  | [] => .ok []
  | (key, child) :: members => do
      let out ←
        match persistRule libs (normalizeInputKey key) child with
        | .sanitize => sanitizeInputValue libs order child
        | .store form => .ok form
        | .headers => safeHeaderMetadata libs order child
      let rest ← sanitizeMembers libs order members
      .ok ((key, out) :: rest)

def safeHeaderMetadata (libs : Libraries)
    (order : List (String × HeaderForm) → List (String × HeaderForm)) :
    Json → Except ProtectError Json
  | .object headers => do
      let forms ← safeHeaderForms libs order headers
      let out ← addHeaders (order forms) (headerMetadata inputRedactionPolicyVersion)
      .ok (.object out)
  | value => .ok (inputRedactedEnvelope libs value "headers")

def safeHeaderForms (libs : Libraries)
    (order : List (String × HeaderForm) → List (String × HeaderForm)) :
    List (String × Json) → Except ProtectError (List (String × HeaderForm))
  | [] => .ok []
  | (key, child) :: headers => do
      let form : HeaderForm ←
        match persistHeaderRule libs (normalizeInputKey key) child with
        | some form => .ok form
        | none => do
            let value ← sanitizeInputValue libs order child
            .ok ⟨value, false⟩
      let rest ← safeHeaderForms libs order headers
      .ok ((key, form) :: rest)

end

mutual

def containsSensitiveInput (libs : Libraries) : Json → Bool
  | .object members => containsSensitiveMember libs members
  | .array items => containsSensitiveItem libs items
  | .string text =>
      looksLikePrivatePath text || decide (maxSafeInputStringLength < (textBytes text).length)
  | _ => false

def containsSensitiveItem (libs : Libraries) : List Json → Bool
  | [] => false
  | item :: items => containsSensitiveInput libs item || containsSensitiveItem libs items

def containsSensitiveMember (libs : Libraries) : List (String × Json) → Bool
  | [] => false
  | (key, child) :: members =>
      let normalized := normalizeInputKey key
      inputKeySensitive normalized ||
        (normalized = "path" && looksLikePrivatePath (valueToInputString child)) ||
        (normalized = "url" && safeURLContainsSensitiveMaterial libs (valueToInputString child)) ||
        containsSensitiveInput libs child || containsSensitiveMember libs members

end

end InputRefs
end Igris
