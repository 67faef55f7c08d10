import Igris.Lib.RoundTrip
import Igris.Lib.Encoding

/-!
# Canonical JSON in the SDK and on the server

The Python SDK hashes the canonical text of an event.  The server decodes what the SDK
transmits and prints it again with the Go library.

Main results:

- Theorem {lit}`decodeObjectPreserving_transmit`: the server decodes the dictionary that the
  SDK holds.
- Theorem {lit}`hashes_agree_iff`: the bytes and the hashes agree exactly if no text has one
  of the two line separators that the Go library escapes.
-/

namespace Igris

open Json

/-- No text of the value has a line separator. -/
def SeparatorFree (value : Json) : Prop :=
  ∀ text ∈ texts value, ∀ c ∈ text.toList, c.toNat ∉ [0x2028, 0x2029]

instance : DecidablePred SeparatorFree := fun value =>
  decidable_of_iff ((texts value).all fun text =>
      text.toList.all fun c => decide (c.toNat ∉ [0x2028, 0x2029]))
    (by simp only [SeparatorFree, List.all_eq_true, decide_eq_true_eq])

/-- The dictionary without some keys. -/
def without (keys : List String) : Json → Json
  | .object members => .object (Assoc.keep (fun key => decide (key ∉ keys)) members)
  | value => value

/-- The digest of a text, in hexadecimal. -/
def sha256Hex (sha256 : String → List UInt8) (text : String) : String :=
  Text.hexEncode (sha256 text)

/-! ## The SDK -/

namespace Sdk

/-- Numbers that Python reads and writes but that are no JSON. -/
def isNonFinite (literal : String) : Bool := literal ∈ ["NaN", "Infinity", "-Infinity"]

/-- The canonical text of a dictionary, in the order of its keys. -/
def canonicalText (value : Json) : String := String.ofList (print serdeEscape (normal value))

/-- Fails with a {lit}`CanonicalizationError` if there is a number that is not finite. -/
def canonicalJsonBytes (value : Json) : Option String :=
  if (literals value).any isNonFinite then none else some (canonicalText value)

/-- How a value is put into a request: in the order of insertion, with white space.
Evidence is transmitted with the escapes of {lit}`serdeEscape`; contracts escape every
character beyond ASCII. -/
def transmit (escape : Char → List Char) (value : Json) : List Char :=
  printSep escape [',', ' '] [':', ' '] value

section Hashes

variable (sha256 : String → List UInt8)

def unsignedPayload (event : Json) : Json := without ["event_hash", "signature"] event

def eventHash (event : Json) : String := sha256Hex sha256 (canonicalText (unsignedPayload event))

def contractHash (contract : Json) : String :=
  sha256Hex sha256 (canonicalText (without ["contract_hash"] contract))

/-- The request that carries a batch. -/
def submissionBody (keyID publicKeyPEM : String) (firstPrev : Option String)
    (events : List Json) : Json :=
  .object [("key_id", .string keyID), ("public_key_pem", .string publicKeyPEM),
    ("journal_segment", .object [
      ("first_previous_event_hash", (firstPrev.map Json.string).getD .null),
      ("events", .array events)])]

def batchContentHash (keyID : String) (events : List Json) : String :=
  let byteHashes := events.map fun event => sha256Hex sha256 (canonicalText event)
  sha256Hex sha256 ("igris-evidence-batch:v1:" ++ keyID ++ ":" ++ ",".intercalate byteHashes)

end Hashes

end Sdk

/-! ## The server -/

namespace Api

/-- Encode a decoded value; its members are in order. -/
def canonicalEncode (value : Json) : String := String.ofList (print goPlainEscape value)

/-- Decode an object.  What follows it must not look like another value; a null stands for
the empty map. -/
def decodeObjectPreserving (text : List Char) : Option Json :=
  match readValue false (2 * text.length + 2) text with
  | none => none
  | some (value, rest) =>
      let more := (skipBlanks rest).head?.any fun c => c != ']' && c.toNat != 0x7D
      match value with
      | .object _ | .null => if more then none else some value
      | _ => none

section Hashes

variable (sha256 : String → List UInt8)

/-- The event hash that the server recomputes. -/
def recomputedHash (event : Json) : String :=
  sha256Hex sha256 (canonicalEncode (without ["event_hash", "signature"] event))

def contractHash (contract : Json) : String :=
  sha256Hex sha256 (canonicalEncode (without ["contract_hash"] contract))

def evidenceContentHash (keyID : String) (eventByteHashes : List String) : String :=
  sha256Hex sha256 ("igris-evidence-batch:v1:" ++ keyID ++ ":" ++ ",".intercalate eventByteHashes)

/-- The events of a request. -/
def submittedEvents (request : Json) : Option (List Json) :=
  match (request.get "journal_segment").bind (·.get "events") with
  | some (.array events) => some events
  | _ => none

/-- The content hash of decoded events. -/
def submissionContentHash (keyID : String) (events : List Json) : String :=
  evidenceContentHash sha256 keyID
    (events.map fun event => sha256Hex sha256 (canonicalEncode event))

end Hashes

end Api

/-! ## Transmission -/

theorem decodeObjectPreserving_transmit {escape : Char → List Char} (hescape : Scans escape)
    {members : List (String × Json)} (hnumeric : Numeric (.object members)) :
    Api.decodeObjectPreserving (Sdk.transmit escape (.object members)) =
      some (normal (.object members)) := by
  have hread := readValue_printed hescape [' '] [' '] (by simp [isBlank]) (by simp [isBlank])
    false hnumeric
  simp only [Api.decodeObjectPreserving, Sdk.transmit, hread, normal]
  rfl

theorem normal_without (keys : List String) (value : Json) :
    normal (without keys value) = without keys (normal value) := by
  match value with
  | .object members =>
      simp only [without, normal, normalMembers_eq_map]
      congr 1
      rw [Assoc.keep_insertAll List.Pairwise.nil]
      congr 1
      simp [Assoc.keep, List.filter_map, Function.comp_def]
  | .null | .bool _ | .number _ | .string _ | .array _ => rfl

theorem submittedEvents_transmit {keyID publicKeyPEM : String} {firstPrev : Option String}
    {events : List Json} (hnumeric : ∀ event ∈ events, Numeric event) :
    (Api.decodeObjectPreserving (Sdk.transmit serdeEscape
        (Sdk.submissionBody keyID publicKeyPEM firstPrev events))).bind Api.submittedEvents =
      some (events.map normal) := by
  have hbody : Numeric (Sdk.submissionBody keyID publicKeyPEM firstPrev events) := by
    intro literal hmem
    have hevents : literal ∈ literalsOfItems events := by
      cases firstPrev <;>
        simpa [Sdk.submissionBody, literals, literalsOfMembers] using hmem
    obtain ⟨event, hevent, hliteral⟩ := mem_literalsOfItems.mp hevents
    exact hnumeric event hevent literal hliteral
  have hdecode := decodeObjectPreserving_transmit scans_serdeEscape hbody
  rw [Sdk.submissionBody, hdecode, Option.bind_some]
  have hsegment : (normal (Sdk.submissionBody keyID publicKeyPEM firstPrev events)).get
      "journal_segment" = some (normal (.object [
        ("first_previous_event_hash", (firstPrev.map Json.string).getD .null),
        ("events", .array events)])) := by
    rw [Sdk.submissionBody, normal, normalMembers_eq_map]
    exact Assoc.get_insertAll_of_nodup (by simp) (by simp)
  have hlist : (normal (.object [
      ("first_previous_event_hash", (firstPrev.map Json.string).getD .null),
      ("events", .array events)])).get "events" = some (.array (events.map normal)) := by
    rw [normal, normalMembers_eq_map]
    exact Assoc.get_insertAll_of_nodup (by simp) (by simp [normal, normalItems_eq_map])
  rw [Sdk.submissionBody] at hsegment
  simp only [Api.submittedEvents, hsegment, Option.bind_some, hlist]

/-! ## Agreement -/

theorem serdeEscape_of_separator {c : Char} (h : c.toNat ∈ [0x2028, 0x2029]) :
    serdeEscape c = [c] := by
  apply serdeEscape_of_htmlEscaped
  simp only [List.mem_cons, List.not_mem_nil, or_false] at h
  simp only [htmlEscaped, List.mem_cons, List.not_mem_nil, or_false, decide_eq_true_eq]
  omega

theorem length_goPlainEscape_of_separator {c : Char} (h : c.toNat ∈ [0x2028, 0x2029]) :
    (goPlainEscape c).length = 6 := by
  rw [goPlainEscape, if_pos h]
  simp [unicodeEscape]

theorem serdeEscape_eq_goPlainEscape_iff {c : Char} :
    serdeEscape c = goPlainEscape c ↔ c.toNat ∉ [0x2028, 0x2029] := by
  constructor
  · intro heq hseparator
    have hlength := length_goPlainEscape_of_separator hseparator
    rw [← heq, serdeEscape_of_separator hseparator] at hlength
    simp at hlength
  · intro hplain
    rw [goPlainEscape, if_neg hplain]

theorem serdeEscape_dominated_goPlainEscape (c : Char) :
    Dominated (serdeEscape c) (goPlainEscape c) (serdeEscape c = goPlainEscape c) := by
  by_cases hseparator : c.toNat ∈ [0x2028, 0x2029]
  · have hone := serdeEscape_of_separator hseparator
    have hsix := length_goPlainEscape_of_separator hseparator
    refine ⟨by simp [hone, hsix], ?_, id⟩
    intro hlength
    simp [hone, hsix] at hlength
  · have hsame := serdeEscape_eq_goPlainEscape_iff.mpr hseparator
    exact ⟨by rw [hsame], fun _ => hsame, id⟩

/-- The two encoders agree on a dictionary exactly if it has no line separator. -/
theorem canonicalEncode_normal_iff (value : Json) :
    Api.canonicalEncode (normal value) = Sdk.canonicalText value ↔
      SeparatorFree (normal value) := by
  rw [Api.canonicalEncode, Sdk.canonicalText, String.ofList_inj, eq_comm,
    print_eq_iff serdeEscape_dominated_goPlainEscape]
  simp only [serdeEscape_eq_goPlainEscape_iff, SeparatorFree]

theorem canonicalJsonBytes_of_numeric {value : Json} (h : Numeric value) :
    Sdk.canonicalJsonBytes value = some (Sdk.canonicalText value) := by
  have hfinite : (literals value).any Sdk.isNonFinite = false := by
    rw [List.any_eq_false]
    intro literal hmem hnonFinite
    have hliteral := h literal hmem
    simp only [Sdk.isNonFinite, List.mem_cons, List.not_mem_nil, or_false,
      decide_eq_true_eq] at hnonFinite
    obtain rfl | rfl | rfl := hnonFinite <;> revert hliteral <;> decide
  simp [Sdk.canonicalJsonBytes, hfinite]

section Hashes

variable {sha256 : String → List UInt8}

theorem sha256Hex_inj (hsha : Function.Injective sha256) {a b : String} :
    sha256Hex sha256 a = sha256Hex sha256 b ↔ a = b := by
  constructor
  · intro h
    exact hsha (Text.hexEncode_injective h)
  · rintro rfl
    rfl

/-- A list of hashes is determined by its text. -/
theorem intercalate_hashes_inj {a b : List String} (hlength : a.length = b.length)
    (ha : ∀ hash ∈ a, ',' ∉ hash.toList) (hb : ∀ hash ∈ b, ',' ∉ hash.toList)
    (h : ",".intercalate a = ",".intercalate b) : a = b := by
  match a, b with
  | [], [] => rfl
  | first :: a, second :: b =>
      have hchars := congrArg String.toList h
      rw [String.toList_intercalate, String.toList_intercalate] at hchars
      have hsplit := congrArg (List.splitOn ',') hchars
      have hcomma : ",".toList = [','] := rfl
      rw [hcomma, List.splitOn_intercalate _ (by simpa using ha) (by simp),
        List.splitOn_intercalate _ (by simpa using hb) (by simp)] at hsplit
      exact List.map_injective_iff.mpr (fun _ _ => String.toList_inj.mp) hsplit

theorem comma_notMem_sha256Hex (text : String) : ',' ∉ (sha256Hex sha256 text).toList := by
  intro hcomma
  obtain ⟨n, hn, hdigit⟩ := Text.exists_of_mem_hexEncode hcomma
  revert hdigit
  revert n
  decide

theorem contentHash_eq_iff (hsha : Function.Injective sha256) (keyID : String)
    (events : List Json) :
    Api.submissionContentHash sha256 keyID (events.map normal) =
        Sdk.batchContentHash sha256 keyID events ↔
      ∀ event ∈ events, SeparatorFree (normal event) := by
  have hcommas (encode : Json → String) (list : List Json) :
      ∀ hash ∈ list.map fun event => sha256Hex sha256 (encode event), ',' ∉ hash.toList := by
    intro hash hmem
    obtain ⟨event, -, rfl⟩ := List.mem_map.mp hmem
    exact comma_notMem_sha256Hex _
  rw [Api.submissionContentHash, Api.evidenceContentHash, Sdk.batchContentHash,
    sha256Hex_inj hsha, String.append_right_inj]
  constructor
  · intro h
    have hlists := intercalate_hashes_inj (by simp) (hcommas _ _) (hcommas _ _) h
    intro event hevent
    rw [List.map_map] at hlists
    have hhash := List.map_inj_left.mp hlists event hevent
    exact (canonicalEncode_normal_iff event).mp ((sha256Hex_inj hsha).mp hhash)
  · intro h
    rw [List.map_map]
    congr 1
    refine List.map_congr_left ?_
    intro event hevent
    exact (sha256Hex_inj hsha).mpr ((canonicalEncode_normal_iff event).mpr (h event hevent))

/-- An event, a contract or any other dictionary that the SDK sends: the server's bytes and
hashes are those of the SDK exactly if no text that they cover has a line separator.  The
same holds for the events of a batch. -/
theorem hashes_agree_iff (hsha : Function.Injective sha256) :
    (∀ (escape : Char → List Char) (members : List (String × Json)),
      Scans escape → Numeric (.object members) →
      ∃ decoded, Api.decodeObjectPreserving (Sdk.transmit escape (.object members)) =
          some decoded ∧
        (some (Api.canonicalEncode decoded) = Sdk.canonicalJsonBytes (.object members) ↔
          SeparatorFree (normal (.object members))) ∧
        (Api.recomputedHash sha256 decoded = Sdk.eventHash sha256 (.object members) ↔
          SeparatorFree (normal (Sdk.unsignedPayload (.object members)))) ∧
        (Api.contractHash sha256 decoded = Sdk.contractHash sha256 (.object members) ↔
          SeparatorFree (normal (without ["contract_hash"] (.object members))))) ∧
    ∀ (keyID publicKeyPEM : String) (firstPrev : Option String) (events : List Json),
      (∀ event ∈ events, Numeric event) →
      ∃ decoded, (Api.decodeObjectPreserving (Sdk.transmit serdeEscape
          (Sdk.submissionBody keyID publicKeyPEM firstPrev events))).bind Api.submittedEvents =
            some decoded ∧
        (Api.submissionContentHash sha256 keyID decoded =
            Sdk.batchContentHash sha256 keyID events ↔
          ∀ event ∈ events, SeparatorFree (normal event)) := by
  refine ⟨?_, ?_⟩
  · intro escape members hescape hnumeric
    refine ⟨_, decodeObjectPreserving_transmit hescape hnumeric, ?_, ?_, ?_⟩
    · rw [canonicalJsonBytes_of_numeric hnumeric, Option.some.injEq]
      exact canonicalEncode_normal_iff _
    · rw [Api.recomputedHash, Sdk.eventHash, sha256Hex_inj hsha, ← normal_without]
      exact canonicalEncode_normal_iff _
    · rw [Api.contractHash, Sdk.contractHash, sha256Hex_inj hsha, ← normal_without]
      exact canonicalEncode_normal_iff _
  · intro keyID publicKeyPEM firstPrev events hnumeric
    exact ⟨_, submittedEvents_transmit hnumeric, contentHash_eq_iff hsha keyID events⟩

end Hashes

/-- A digest without collisions: the bytes of the text. -/
def plainDigest (text : String) : List UInt8 := text.toByteArray.data.toList

theorem plainDigest_injective : Function.Injective plainDigest := by
  intro a b h
  simpa [plainDigest, Array.toList_inj, ← ByteArray.ext_iff, String.toByteArray_inj] using h

/-- A dictionary with one text. -/
def summaryEvent (summary : String) : Json :=
  .object [("redacted_input_summary", .string summary), ("event_type", .string "decision")]

theorem numeric_summaryEvent (summary : String) : Numeric (summaryEvent summary) := by
  intro literal hmem
  simp [summaryEvent, literals, literalsOfMembers] at hmem

theorem summaryEvent_hashes_agree :
    ∃ decoded, Api.decodeObjectPreserving (Sdk.transmit serdeEscape (summaryEvent "x=1 & y")) =
        some decoded ∧
      Api.recomputedHash plainDigest decoded =
        Sdk.eventHash plainDigest (summaryEvent "x=1 & y") := by
  obtain ⟨decoded, hdecoded, -, hhash, -⟩ := (hashes_agree_iff plainDigest_injective).1
    serdeEscape _ scans_serdeEscape (numeric_summaryEvent "x=1 & y")
  refine ⟨decoded, hdecoded, hhash.mpr ?_⟩
  decide +kernel

/-- One line separator in a text, and no digest without collisions agrees. -/
theorem separator_hashes_differ :
    ∃ decoded, Api.decodeObjectPreserving (Sdk.transmit serdeEscape
        (summaryEvent (String.ofList [Char.ofNat 0x2028]))) = some decoded ∧
      some (Api.canonicalEncode decoded) ≠
        Sdk.canonicalJsonBytes (summaryEvent (String.ofList [Char.ofNat 0x2028])) ∧
      ∀ sha256 : String → List UInt8, Function.Injective sha256 →
        Api.recomputedHash sha256 decoded ≠
          Sdk.eventHash sha256 (summaryEvent (String.ofList [Char.ofNat 0x2028])) := by
  have hnumeric := numeric_summaryEvent (String.ofList [Char.ofNat 0x2028])
  have hseparator : ¬ SeparatorFree (normal (summaryEvent (String.ofList [Char.ofNat 0x2028]))) := by
    decide +kernel
  have hpayload : ¬ SeparatorFree (normal
      (Sdk.unsignedPayload (summaryEvent (String.ofList [Char.ofNat 0x2028])))) := by
    decide +kernel
  refine ⟨_, decodeObjectPreserving_transmit scans_serdeEscape hnumeric, ?_, ?_⟩
  · intro hbytes
    rw [canonicalJsonBytes_of_numeric hnumeric, Option.some.injEq] at hbytes
    exact hseparator ((canonicalEncode_normal_iff _).mp hbytes)
  · intro sha256 hsha hhash
    rw [Api.recomputedHash, Sdk.eventHash, sha256Hex_inj hsha, ← normal_without] at hhash
    exact hpayload ((canonicalEncode_normal_iff _).mp hhash)

end Igris
