import Igris.Lib.Encoding
import Igris.Task.Record
import Igris.Wal.Resume

/-!
# Log entries between runtime and coordinator

A runtime writes byte fields of an entry as arrays of numbers.  The coordinator keeps
them as text, stores them as base64 and forwards them that way, and the next runtime
turns the text back into bytes.

Main results:

- Theorem {lit}`Entry.report_reload`: storing a reported entry and reading it back does
  not change it.
- Theorem {lit}`Entry.ofJSON_report`: the runtime that receives a signed entry has the
  entry that was reported.
-/

namespace Igris
namespace Wal

/-! ## From the runtime to the coordinator -/

/-- The status as the coordinator reads it: the name of the variant in lower case. -/
def WalStatus.name : WalStatus → String
  | .intent => "intent"
  | .executing => "executing"
  | .committed => "committed"
  | .failed _ => "failed"

/-- An entry as the coordinator decodes it. -/
def Entry.report (entry : Entry) : WalEntry where
  entryID := entry.entryID
  taskID := entry.taskID
  stepIndex := entry.stepIndex.toNat
  stepType := entry.stepType
  status := entry.status.name
  inputDigest := Text.hexEncode entry.inputDigest.1
  outputDigest := entry.outputDigest.map fun digest => Text.hexEncode digest.1
  timestampMs := entry.timestampMs.toNat
  runtimeID := entry.runtimeID
  signature := entry.signature.map Text.base64Encode

/-- A token as the coordinator decodes it. -/
def ResumeToken.report (token : ResumeToken) : Igris.ResumeToken where
  lastCommittedStep := token.lastCommittedStep.toNat
  checkpointDigest := Text.hexEncode token.checkpointDigest.1
  runtimeID := token.runtimeID

/-! ## From the coordinator to the next runtime -/

/-- Bytes of a text field: hexadecimal if it consists of pairs of such digits, otherwise
base64 in one of its variants. -/
def decodeHexOrBase64Bytes (raw : String) : Option (List UInt8) :=
  let trimmed := Text.trimSpace raw
  if trimmed.toList.length % 2 = 0 ∧ trimmed.toList.all fun c => (Text.hexDigit? c).isSome then
    Text.hexDecode trimmed
  else
    ((((Text.base64DecodeStrict .std true trimmed).or (Text.base64DecodeStrict .std false trimmed)).or
      (Text.base64DecodeStrict .url true trimmed)).or
        (Text.base64DecodeStrict .url false trimmed)).or
          -- the last attempt tolerates bits beyond the last byte
          (Text.base64DecodeChars .std true trimmed.toList)

/-- A digest field has to decode to 32 bytes. -/
def decodeDigest (raw : String) : Option Digest :=
  match decodeHexOrBase64Bytes raw with
  | none => none
  | some bytes => if h : bytes.length = 32 then some ⟨bytes, h⟩ else none

/-- A field that may be absent. -/
def decodeOptional {α : Type} (decode : String → Option α) : Option String → Option (Option α)
  | none => some none
  | some raw => (decode raw).map some

/-- The variants that are written as a plain string. -/
def decodeStatus (raw : String) : Option WalStatus :=
  let normalized := Text.toAsciiLower (Text.trimSpace raw)
  if normalized = "intent" then some .intent
  else if normalized = "executing" then some .executing
  else if normalized = "committed" ∨ normalized = "completed" then some .committed
  else none

/-- An entry as the runtime decodes it. -/
def Entry.ofJSON (json : WalEntryJSON) : Option Entry :=
  match decodeDigest json.inputDigest, decodeOptional decodeDigest json.outputDigest,
      decodeOptional decodeHexOrBase64Bytes json.signature, decodeStatus json.status with
  | some inputDigest, some outputDigest, some signature, some status =>
      if json.stepIndex < UInt32.size ∧ json.timestampMs < UInt64.size then
        some {
          entryID := json.entryID
          taskID := json.taskID
          stepIndex := UInt32.ofNat json.stepIndex
          stepType := json.stepType
          status := status
          inputDigest := inputDigest
          outputDigest := outputDigest
          timestampMs := UInt64.ofNat json.timestampMs
          runtimeID := json.runtimeID
          signature := signature }
      else none
  | _, _, _, _ => none

/-- Two digits of a token's digest.  The number parser also takes a plus sign. -/
def decodeHexPair (hi lo : Char) : Option UInt8 :=
  match (if hi = '+' then some 0 else Text.hexDigit? hi), Text.hexDigit? lo with
  | some h, some l => some (UInt8.ofNat (16 * h + l))
  | _, _ => none

def decodeHexPairs : List Char → Option (List UInt8)
  | [] => some []
  | [_] => none
  | hi :: lo :: rest =>
      match decodeHexPair hi lo, decodeHexPairs rest with
      | some byte, some bytes => some (byte :: bytes)
      | _, _ => none

/-- A token as the runtime decodes it. -/
def ResumeToken.ofJSON (token : Igris.ResumeToken) : Option ResumeToken :=
  match decodeHexPairs token.checkpointDigest.toList with
  | none => none
  | some bytes =>
      if h : bytes.length = 32 then
        if token.lastCommittedStep < UInt32.size then
          some ⟨UInt32.ofNat token.lastCommittedStep, ⟨bytes, h⟩, token.runtimeID⟩
        else none
      else none

/-- Entries as the runtime decodes them. -/
def decodeEntries : List WalEntry → Option (List Entry)
  | [] => some []
  | entry :: entries =>
      (Entry.ofJSON entry.marshalJSON).bind fun decoded =>
        (decodeEntries entries).map fun rest => decoded :: rest

/-- A checkpoint as the runtime decodes it. -/
def CheckpointPayload.ofJSON (cp : Igris.CheckpointPayload) : Option CheckpointPayload :=
  match ResumeToken.ofJSON cp.resumeToken, decodeEntries cp.walEntries with
  | some token, some entries => some ⟨cp.taskID, token, entries⟩
  | _, _ => none

/-! ## Round trips -/

theorem marshalHexByteArrayField_hexEncode (digest : Digest) :
    marshalHexByteArrayField (Text.hexEncode digest.1) 32 = Text.base64Encode digest.1 := by
  have hne : Text.hexEncode digest.1 ≠ "" := by
    intro hempty
    have hdecode := Text.hexDecode_hexEncode digest.1
    rw [hempty] at hdecode
    have hnil : digest.1 = [] := by simpa [Text.hexDecode, Text.hexDecodeChars] using hdecode.symm
    simpa [hnil] using digest.2
  simp only [marshalHexByteArrayField, Text.trimSpace_of_noSpace (Text.noSpace_hexEncode _), hne,
    if_false, Text.hexDecode_hexEncode, digest.2]
  simp

theorem toList_base64Encode (bytes : List UInt8) :
    (Text.base64Encode bytes).toList = Text.base64EncodeBytes .std bytes := by
  rw [Text.base64Encode, String.toList_ofList]

theorem unmarshalHexByteArrayField_base64Encode (digest : Digest) :
    unmarshalHexByteArrayField (Text.base64Encode digest.1) 32 = Text.hexEncode digest.1 := by
  have hlength : (Text.base64Encode digest.1).toList.length = 44 := by
    rw [toList_base64Encode, Text.length_base64EncodeBytes, digest.2]
  have hne : Text.base64Encode digest.1 ≠ "" := by
    intro hempty
    simp [hempty] at hlength
  have hbase64 : decodeBase64ByteArrayField (Text.base64Encode digest.1) 32 = some digest.1 := by
    simp [decodeBase64ByteArrayField, Text.trimSpace_of_noSpace (Text.noSpace_base64Encode _), hne,
      Text.base64Decode_base64Encode, digest.2]
  -- read as hexadecimal digits the text has another length, so it is read as base64
  cases hhex : Text.hexDecode (Text.base64Encode digest.1) with
  | none => simp [unmarshalHexByteArrayField, hne, hhex, hbase64]
  | some bytes =>
      have hbytes := Text.length_hexDecodeChars hhex
      have hshort : bytes.length ≠ 32 := by omega
      simp [unmarshalHexByteArrayField, hne, hhex, hbase64, hshort]

theorem decodeHexOrBase64Bytes_base64Encode {bytes : List UInt8} (h : bytes.length % 3 ≠ 0) :
    decodeHexOrBase64Bytes (Text.base64Encode bytes) = some bytes := by
  have hpad : '=' ∈ (Text.base64Encode bytes).toList := by
    rw [toList_base64Encode]
    exact Text.pad_mem_base64EncodeBytes .std bytes h
  have hnotHex : ¬((Text.base64Encode bytes).toList.all fun c => (Text.hexDigit? c).isSome) = true := by
    intro hall
    have hdigit := List.all_eq_true.mp hall '=' hpad
    revert hdigit
    decide
  simp only [decodeHexOrBase64Bytes, Text.trimSpace_of_noSpace (Text.noSpace_base64Encode _),
    Text.base64DecodeStrict_base64Encode, Option.some_or]
  rw [if_neg]
  exact fun hhex => hnotHex hhex.2

theorem decodeDigest_base64Encode (digest : Digest) :
    decodeDigest (Text.base64Encode digest.1) = some digest := by
  have hbytes : decodeHexOrBase64Bytes (Text.base64Encode digest.1) = some digest.1 :=
    decodeHexOrBase64Bytes_base64Encode (by rw [digest.2]; decide)
  simp [decodeDigest, hbytes, digest.2]

theorem marshalBinaryArrayField_base64Encode (bytes : List UInt8) :
    marshalBinaryArrayField (Text.base64Encode bytes) = Text.base64Encode bytes := by
  simp [marshalBinaryArrayField, Text.base64Decode_base64Encode]

theorem normalizeWalStatus_marshal (status : WalStatus) :
    normalizeWalStatus (marshalWalStatusField status.name) = status.name := by
  have hnames : ∀ name ∈ ["intent", "executing", "committed", "failed"],
      normalizeWalStatus (marshalWalStatusField name) = name := by
    decide
  cases status <;> exact hnames _ (by simp [WalStatus.name])

theorem Entry.report_reload (entry : Entry) : entry.report.reload = entry.report := by
  have hdigest : ∀ digest : Option Digest,
      (digest.map fun d => Text.hexEncode d.1).map
        ((fun raw => unmarshalHexByteArrayField raw 32) ∘ fun raw => marshalHexByteArrayField raw 32) =
          digest.map fun d => Text.hexEncode d.1 := by
    intro digest
    cases digest with
    | none => rfl
    | some d => simp [marshalHexByteArrayField_hexEncode, unmarshalHexByteArrayField_base64Encode]
  have hsignature : (entry.signature.map Text.base64Encode).map marshalBinaryArrayField =
      entry.signature.map Text.base64Encode := by
    cases entry.signature <;> simp [marshalBinaryArrayField_base64Encode]
  simp only [WalEntry.reload, WalEntry.marshalJSON, WalEntryJSON.unmarshalJSON, Entry.report,
    normalizeWalStatus_marshal, marshalHexByteArrayField_hexEncode,
    unmarshalHexByteArrayField_base64Encode, Option.map_map (g := fun raw =>
      marshalHexByteArrayField raw 32), hdigest, hsignature]

theorem Entry.ofJSON_report {entry : Entry}
    (hstatus : ∀ reason, entry.status ≠ .failed reason)
    (hsigned : ∀ signature, entry.signature = some signature → signature.length % 3 ≠ 0) :
    Entry.ofJSON entry.report.marshalJSON = some entry := by
  have hname : decodeStatus (marshalWalStatusField entry.status.name) = some entry.status := by
    have hplain : ∀ status ∈ [WalStatus.intent, .executing, .committed],
        decodeStatus (marshalWalStatusField status.name) = some status := by
      decide
    cases hcase : entry.status with
    | failed reason => exact absurd hcase (hstatus reason)
    | _ => exact hplain _ (by simp)
  have houtput : decodeOptional decodeDigest
      ((entry.outputDigest.map fun d => Text.hexEncode d.1).map fun raw =>
        marshalHexByteArrayField raw 32) = some entry.outputDigest := by
    cases entry.outputDigest with
    | none => rfl
    | some d => simp [decodeOptional, marshalHexByteArrayField_hexEncode, decodeDigest_base64Encode]
  have hsignature : decodeOptional decodeHexOrBase64Bytes
      ((entry.signature.map Text.base64Encode).map marshalBinaryArrayField) =
        some entry.signature := by
    cases hsig : entry.signature with
    | none => rfl
    | some signature =>
        simp [decodeOptional, marshalBinaryArrayField_base64Encode,
          decodeHexOrBase64Bytes_base64Encode (hsigned signature hsig)]
  have hbounds : entry.stepIndex.toNat < UInt32.size ∧ entry.timestampMs.toNat < UInt64.size :=
    ⟨entry.stepIndex.toNat_lt, entry.timestampMs.toNat_lt⟩
  simp only [Entry.ofJSON, WalEntry.marshalJSON, Entry.report, marshalHexByteArrayField_hexEncode,
    decodeDigest_base64Encode, houtput, hsignature, hname, hbounds, and_self, if_true,
    UInt32.ofNat_toNat, UInt64.ofNat_toNat]

theorem decodeHexPairs_hexEncode (bytes : List UInt8) :
    decodeHexPairs (Text.hexEncode bytes).toList = some bytes := by
  rw [Text.hexEncode, String.toList_ofList]
  induction bytes with
  | nil => rfl
  | cons b bytes ih =>
      have hb := b.toNat_lt
      have hplus : ∀ n < 16, Text.hexDigit n ≠ '+' := by decide
      have hhi := Text.hexDigit?_hexDigit (n := b.toNat / 16) (by omega)
      have hlo := Text.hexDigit?_hexDigit (n := b.toNat % 16) (by omega)
      have hjoin : 16 * (b.toNat / 16) + b.toNat % 16 = b.toNat := by omega
      have hpair : decodeHexPair (Text.hexDigit (b.toNat / 16)) (Text.hexDigit (b.toNat % 16)) =
          some b := by
        simp [decodeHexPair, hplus (b.toNat / 16) (by omega), hhi, hlo, hjoin]
      simp only [List.flatMap_cons, List.cons_append, List.nil_append, decodeHexPairs, hpair, ih]

/-- A token over a digest of the runtime comes back as it was. -/
theorem ResumeToken.ofJSON_hexEncode {step : Nat} {digest : Digest} {runtimeID : String}
    (h : step < UInt32.size) :
    ResumeToken.ofJSON ⟨step, Text.hexEncode digest.1, runtimeID⟩ =
      some ⟨UInt32.ofNat step, digest, runtimeID⟩ := by
  simp only [ResumeToken.ofJSON, decodeHexPairs_hexEncode]
  rw [dif_pos digest.2, if_pos h]

theorem ResumeToken.ofJSON_report (token : ResumeToken) :
    ResumeToken.ofJSON token.report = some token := by
  rw [ResumeToken.report, ResumeToken.ofJSON_hexEncode token.lastCommittedStep.toNat_lt,
    UInt32.ofNat_toNat]

/-- The entry can be handed over: it is committed with an output and its signature, if
any, is read back as base64. -/
structure Entry.Portable (entry : Entry) : Prop where
  committed : entry.status = .committed
  output : entry.outputDigest.isSome
  signed : ∀ signature, entry.signature = some signature → signature.length % 3 ≠ 0

theorem decodeEntries_report {entries : List Entry} (h : ∀ entry ∈ entries, entry.Portable) :
    decodeEntries (entries.map Entry.report) = some entries := by
  induction entries with
  | nil => rfl
  | cons entry entries ih =>
      have hfirst := h entry List.mem_cons_self
      have hrest := ih fun e he => h e (List.mem_cons_of_mem _ he)
      rw [List.map_cons, decodeEntries, Entry.ofJSON_report (by simp [hfirst.committed]) hfirst.signed,
        hrest]
      rfl

end Wal
end Igris
