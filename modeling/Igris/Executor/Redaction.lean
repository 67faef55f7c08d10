import Igris.Lib.Json

/-!
# Redaction

What a runtime removes from values before they are stored or sent: the values of
sensitive members, long texts and authorization markers.

Main results:

- Theorem {lit}`sanitizeJsonValue_ordered`: the result lists its members in order again.
- Theorem {lit}`sanitizeJsonValue_redacted`: it keeps no sensitive member.
-/

namespace Igris
namespace Executor

def redactionPolicyVersion : String := "runtime-output-redaction-v1"

def maxSafeStringLength : Nat := 512

def sensitiveKeyPatterns : List String :=
  ["authorization", "cookie", "set_cookie", "set-cookie", "token", "secret", "password", "api_key",
    "apikey", "access_key", "refresh_token", "private_key", "credential", "body", "raw_body",
    "response_body", "request_body", "content", "file_content", "file_contents", "full_text"]

def safeRedactionMetadataKeys : List String :=
  ["content_redacted", "content_digest", "content_digest_sha256", "content_bytes", "content_type",
    "redaction_policy_version"]

/-- Lower case of one character, as far as a search for an ASCII word can notice it. -/
def lowercaseChars (c : Char) : List Char :=
  if c.toNat = 0x130 then ['i', Char.ofNat 0x307]
  else if c.toNat = 0x212A then ['k']
  else [c.toLower]

def toLowercase (text : String) : String :=
  String.ofList (text.toList.flatMap lowercaseChars)

def isSensitiveKey (key : String) : Bool :=
  let normalized := Text.replace (toLowercase key) "-" "_"
  if normalized ∈ safeRedactionMetadataKeys then false
  else sensitiveKeyPatterns.any fun pattern => Text.contains normalized (Text.replace pattern "-" "_")

def sanitizeString (text : String) : String :=
  ["Bearer ", "Basic "].foldl (fun sanitized marker =>
    if Text.contains sanitized marker then Text.replace sanitized marker "[redacted-auth] "
    else sanitized) text

/-- Compact text of a value. -/
def toText (value : Json) : String :=
  String.ofList (Json.print Json.serdeEscape value)

section Redaction

variable (sha256Hex : String → String)

def redactedValue (reason digest : String) (bytes : Nat) : Json :=
  .object [("content_bytes", .number (toString bytes)), ("content_digest_sha256", .string digest),
    ("reason", .string reason), ("redacted", .bool true),
    ("redaction_policy_version", .string redactionPolicyVersion)]

def valueDigest (value : Json) : String :=
  sha256Hex (toText value)

def valueLen : Json → Nat
  | .string text => text.utf8ByteSize
  | value => (toText value).utf8ByteSize

def sanitizeText (text : String) : Json :=
  if text.utf8ByteSize > maxSafeStringLength then
    redactedValue "large_string" (sha256Hex text) text.utf8ByteSize
  else .string (sanitizeString text)

def sanitizeMember (key : String) (value : Json) : Option Json :=
  if isSensitiveKey key then
    some (redactedValue "sensitive_key" (valueDigest sha256Hex value) (valueLen value))
  else none

def sanitizeJsonValue (value : Json) : Json :=
  value.rewrite (sanitizeText sha256Hex) (sanitizeMember sha256Hex)

/-- What a response shows of an output. -/
def redactedOutputText (text : String) : String :=
  toText (.object [("content_bytes", .number (toString text.utf8ByteSize)),
    ("content_digest_sha256", .string (sha256Hex text)), ("content_redacted", .bool true),
    ("redaction_policy_version", .string redactionPolicyVersion),
    ("summary", .string "output preview redacted")])

theorem redactedValue_ordered (reason digest : String) (bytes : Nat) :
    (redactedValue reason digest bytes).Ordered := by
  refine .object ?_ ?_
  · simp only [Assoc.sorted_iff_keys, List.map_cons, List.map_nil]
    decide
  · intro member hmember
    simp only [List.mem_cons, List.not_mem_nil, or_false] at hmember
    obtain rfl | rfl | rfl | rfl | rfl := hmember
    all_goals constructor

theorem sanitizeJsonValue_ordered {value : Json} (h : value.Ordered) :
    (sanitizeJsonValue sha256Hex value).Ordered := by
  apply h.rewrite
  · intro text
    unfold sanitizeText
    split
    · exact redactedValue_ordered _ _ _
    · exact .string _
  · intro key value new hnew
    unfold sanitizeMember at hnew
    split at hnew
    · obtain rfl := Option.some.inj hnew
      exact redactedValue_ordered _ _ _
    · cases hnew

/-- At every depth, members with a sensitive key hold a record of what was removed. -/
inductive Redacted : Json → Prop where
  | null : Redacted .null
  | bool (value : Bool) : Redacted (.bool value)
  | number (literal : String) : Redacted (.number literal)
  | string (text : String) : Redacted (.string text)
  | array {items : List Json} (h : ∀ item ∈ items, Redacted item) : Redacted (.array items)
  | object {members : List (String × Json)}
      (hkey : ∀ member ∈ members, isSensitiveKey member.1 = true →
        ∃ digest bytes, member.2 = redactedValue "sensitive_key" digest bytes)
      (h : ∀ member ∈ members, Redacted member.2) : Redacted (.object members)

theorem redactedValue_redacted (reason digest : String) (bytes : Nat) :
    Redacted (redactedValue reason digest bytes) := by
  have hplain : ∀ key ∈ ["content_bytes", "content_digest_sha256", "reason", "redacted",
      "redaction_policy_version"], isSensitiveKey key = false := by decide +kernel
  refine .object ?_ (by simp [Redacted.number, Redacted.string, Redacted.bool])
  intro member hmember hkey
  simp [hplain member.1 (List.mem_map_of_mem (f := Prod.fst) hmember)] at hkey

theorem sanitizeJsonValue_redacted (value : Json) : Redacted (sanitizeJsonValue sha256Hex value) := by
  unfold sanitizeJsonValue
  induction value using Json.induction with
  | null => exact .null
  | bool value => exact .bool value
  | number literal => exact .number literal
  | string text =>
      rw [Json.rewrite, sanitizeText]
      split
      · exact redactedValue_redacted _ _ _
      · exact .string _
  | array items ih =>
      rw [Json.rewrite, Json.rewriteItems_eq_map]
      exact .array (List.forall_mem_map.mpr ih)
  | object members ih =>
      rw [Json.rewrite, Json.rewriteMembers_eq_map]
      refine .object (List.forall_mem_map.mpr ?_) (List.forall_mem_map.mpr ?_)
      · intro member _ hkey
        exact ⟨_, _, by simp only [sanitizeMember, hkey]; rfl⟩
      · intro member hmember
        dsimp only [sanitizeMember]
        split
        · exact redactedValue_redacted _ _ _
        · exact ih member hmember

end Redaction

example : sanitizeJsonValue (fun _ => "0") (.object [("note", .string "Basic x"), ("token", .null)]) =
    .object [("note", .string "[redacted-auth] x"), ("token", redactedValue "sensitive_key" "0" 4)] := by
  rfl

end Executor
end Igris
