import Igris.Lib.Record
import Igris.Lib.RoundTrip
import Igris.Lib.Signature
import Igris.Wal.Transfer

/-!
# Log entries on the wire

An entry goes from a runtime to the coordinator, into its database and out again, and on
to another runtime.  The first runtime writes bytes as arrays of numbers, the
coordinator writes them as base64, and it reads a step type as any JSON value and
writes that value in its own way.

Main results:

- Theorem {lit}`unmarshalJSON_serialize`: the coordinator reads the entry that was reported,
  with its step type as it writes it itself.
- Theorem {lit}`roundTrip_eq`: the second runtime has the entry of the first one.
-/

namespace Igris
namespace Wal

open Json (goText serdeText parse)

/-! ## Step types -/

/-- The type of work of a step. -/
inductive StepType where
  | inference (provider model : String)
  | roboticsAction (action : String) (target : Option String)
  | toolCall (toolName : String)
  | btNode (nodeID nodeType : String)
  | checkpoint
  deriving Repr, DecidableEq

namespace StepType

def toJson : StepType → Json
  | inference provider model =>
      .object [("Inference", .object [("provider", .string provider), ("model", .string model)])]
  | roboticsAction action target =>
      .object [("RoboticsAction", .object [("action", .string action),
        ("target", (target.map Json.string).getD .null)])]
  | toolCall toolName => .object [("ToolCall", .object [("tool_name", .string toolName)])]
  | btNode nodeID nodeType =>
      .object [("BtNode", .object [("node_id", .string nodeID), ("node_type", .string nodeType)])]
  | checkpoint => .string "Checkpoint"

def ofJson : Json → Option StepType
  | .object [("Inference", fields)] =>
      (Json.Codec.text.required fields "provider").bind fun provider =>
        (Json.Codec.text.required fields "model").map (inference provider)
  | .object [("RoboticsAction", fields)] =>
      (Json.Codec.text.required fields "action").bind fun action =>
        (Json.Codec.text.optional fields "target").map (roboticsAction action)
  | .object [("ToolCall", fields)] =>
      (Json.Codec.text.required fields "tool_name").map toolCall
  | .object [("BtNode", fields)] =>
      (Json.Codec.text.required fields "node_id").bind fun nodeID =>
        (Json.Codec.text.required fields "node_type").map (btNode nodeID)
  | .string "Checkpoint" => some checkpoint
  | _ => none

/-- The text of a step type in an entry of a runtime. -/
def encode (stepType : StepType) : String :=
  serdeText stepType.toJson

def decode (raw : String) : Option StepType :=
  (parse false raw.toList).bind ofJson

theorem literals_toJson (stepType : StepType) : Json.literals stepType.toJson = [] := by
  cases stepType with
  | roboticsAction action target =>
      cases target <;> simp [toJson, Json.literals, Json.literalsOfMembers]
  | _ => simp [toJson, Json.literals, Json.literalsOfMembers]

theorem insert_nil (key : String) (value : Json) : Assoc.insert key value [] = [(key, value)] :=
  rfl

theorem literals_normal (stepType : StepType) :
    Json.literals (Json.normal stepType.toJson) = [] := by
  have hpair : ∀ (key key' : String) (first second : Json), Json.literals first = [] →
      Json.literals second = [] →
        Json.literalsOfMembers (Assoc.insert key' second [(key, first)]) = [] := by
    intro key key' first second hfirst hsecond
    by_cases hlt : key' < key <;> by_cases heq : key' = key <;>
      simp [Assoc.insert, hlt, heq, Json.literalsOfMembers, hfirst, hsecond]
  cases stepType with
  | checkpoint => rfl
  | roboticsAction action target =>
      have htarget : Json.literals (Json.normal ((target.map Json.string).getD .null)) = [] := by
        cases target <;> rfl
      simp only [toJson, Json.normal, Json.normalMembers, Assoc.insertAll, List.foldl_cons,
        List.foldl_nil, insert_nil, Json.literals, Json.literalsOfMembers, List.append_nil]
      exact hpair _ _ _ _ rfl htarget
  | toolCall toolName => rfl
  | _ =>
      simp only [toJson, Json.normal, Json.normalMembers, Assoc.insertAll, List.foldl_cons,
        List.foldl_nil, insert_nil, Json.literals, Json.literalsOfMembers, List.append_nil]
      exact hpair _ _ _ _ rfl rfl

/-- The order of the members does not matter. -/
theorem ofJson_normal (stepType : StepType) :
    ofJson (Json.normal stepType.toJson) = some stepType := by
  cases stepType with
  | checkpoint => rfl
  | roboticsAction action target =>
      cases target <;> simp [toJson, Json.normal, Json.normalMembers, Assoc.insertAll, insert_nil,
        ofJson, Json.Codec.required, Json.Codec.optional, Json.get, Assoc.get_insert, Assoc.get,
        Json.Codec.text, Json.asString]
  | _ =>
      simp [toJson, Json.normal, Json.normalMembers, Assoc.insertAll, insert_nil, ofJson,
        Json.Codec.required, Json.get, Assoc.get_insert, Assoc.get, Json.Codec.text, Json.asString]

end StepType

/-- A step type that the coordinator has read, in the text it writes for it. -/
def goStepType (raw : String) : Option String :=
  (parse false raw.toList).map goText

theorem numeric_of_literals {value : Json} (h : Json.literals value = []) : Json.Numeric value := by
  simp [Json.Numeric, h]

theorem parse_encode (stepType : StepType) :
    parse false stepType.encode.toList = some (Json.normal stepType.toJson) := by
  rw [StepType.encode, serdeText, String.toList_ofList,
    Json.parse_print Json.scans_serdeEscape false (numeric_of_literals stepType.literals_toJson)]

/-- The coordinator keeps the value of a step type however often it reads and writes it. -/
theorem goStepType_encode (stepType : StepType) :
    goStepType stepType.encode = some (goText (Json.normal stepType.toJson)) := by
  rw [goStepType, parse_encode, Option.map_some]

theorem parse_goText (stepType : StepType) :
    parse false (goText (Json.normal stepType.toJson)).toList =
      some (Json.normal stepType.toJson) := by
  have hordered := Json.ordered_of_parse (parse_encode stepType)
  rw [goText, String.toList_ofList, Json.parse_print Json.scans_goEscape false
    (numeric_of_literals stepType.literals_normal), hordered.normal]

/-! ## Entries on the wire -/

/-- Bytes in JSON: an array of numbers, or a text. -/
inductive ByteField where
  | numbers (bytes : List UInt8)
  | text (raw : String)
  deriving Repr, DecidableEq

/-- A variant in JSON: its name, or an object with the name as its only key. -/
inductive StatusField where
  | text (name : String)
  | tagged (name : String)
  deriving Repr, DecidableEq

/-- The JSON object of an entry.  A field that is missing or null has no value; the step type is
given by its text. -/
structure WireEntry where
  entryID : Uuid
  taskID : Uuid
  stepIndex : Nat
  stepType : String
  status : StatusField
  inputDigest : ByteField
  outputDigest : Option ByteField
  timestampMs : Nat
  runtimeID : String
  signature : Option ByteField
  deriving Repr, DecidableEq

def WalStatus.serialize : WalStatus → StatusField
  | .intent => .text "Intent"
  | .executing => .text "Executing"
  | .committed => .text "Committed"
  | .failed _ => .tagged "Failed"

/-- What a runtime writes. -/
def Entry.serialize (entry : Entry) : WireEntry where
  entryID := entry.entryID
  taskID := entry.taskID
  stepIndex := entry.stepIndex.toNat
  stepType := entry.stepType
  status := entry.status.serialize
  inputDigest := .numbers entry.inputDigest.1
  outputDigest := entry.outputDigest.map fun digest => .numbers digest.1
  timestampMs := entry.timestampMs.toNat
  runtimeID := entry.runtimeID
  signature := entry.signature.map .numbers

/-- What the coordinator writes. -/
def wireOf (json : WalEntryJSON) : WireEntry where
  entryID := json.entryID
  taskID := json.taskID
  stepIndex := json.stepIndex
  stepType := json.stepType
  status := .text json.status
  inputDigest := .text json.inputDigest
  outputDigest := json.outputDigest.map .text
  timestampMs := json.timestampMs
  runtimeID := json.runtimeID
  signature := json.signature.map .text

/-! ## The coordinator -/

def unmarshalDigestField (expectedLen : Nat) : ByteField → Option String
  | .numbers bytes =>
      if 0 < expectedLen ∧ bytes.length ≠ expectedLen then none else some (Text.hexEncode bytes)
  | .text raw => some (unmarshalHexByteArrayField raw expectedLen)

def unmarshalOptionalDigestField (expectedLen : Nat) : Option ByteField → Option (Option String)
  | none => some none
  | some field => (unmarshalDigestField expectedLen field).map some

def unmarshalBinaryField : ByteField → String
  | .numbers bytes => Text.base64Encode bytes
  | .text raw => raw

def unmarshalStatusField : StatusField → String
  | .text name | .tagged name => normalizeWalStatus name

def WireEntry.unmarshalJSON (w : WireEntry) : Option WalEntry :=
  (goStepType w.stepType).bind fun stepType =>
    (unmarshalDigestField 32 w.inputDigest).bind fun inputDigest =>
      (unmarshalOptionalDigestField 32 w.outputDigest).map fun outputDigest =>
        { entryID := w.entryID
          taskID := w.taskID
          stepIndex := w.stepIndex
          stepType := stepType
          status := unmarshalStatusField w.status
          inputDigest := inputDigest
          outputDigest := outputDigest
          timestampMs := w.timestampMs
          runtimeID := w.runtimeID
          signature := w.signature.map unmarshalBinaryField }

/-! ## The round trip -/

/-- The entry that the second runtime decodes, with its step type. -/
def Entry.deserialize (json : WalEntryJSON) : Option Entry :=
  (Entry.ofJSON json).bind fun entry =>
    (StepType.decode json.stepType).map fun stepType =>
      { entry with stepType := stepType.encode }

/-- From a runtime to the coordinator, to its database and back, and to another runtime. -/
def roundTrip (entry : Entry) : Option Entry :=
  entry.serialize.unmarshalJSON.bind fun received =>
    (wireOf received.marshalJSON).unmarshalJSON.bind fun stored =>
      Entry.deserialize stored.marshalJSON

/-- The coordinator reads what a runtime wrote; the step type is written in its own way. -/
theorem unmarshalJSON_serialize (entry : Entry) (stepType : StepType)
    (hstep : entry.stepType = stepType.encode) :
    entry.serialize.unmarshalJSON =
      some { entry with stepType := goText (Json.normal stepType.toJson) }.report := by
  have hstatus : unmarshalStatusField entry.status.serialize = entry.status.name := by
    have hnames : ∀ name ∈ [("Intent", "intent"), ("Executing", "executing"),
        ("Committed", "committed"), ("Failed", "failed")],
          normalizeWalStatus name.1 = name.2 := by
      decide
    cases entry.status with
    | intent => exact hnames ("Intent", "intent") (by simp)
    | executing => exact hnames ("Executing", "executing") (by simp)
    | committed => exact hnames ("Committed", "committed") (by simp)
    | failed reason => exact hnames ("Failed", "failed") (by simp)
  have hdigest : ∀ digest : Digest,
      unmarshalDigestField 32 (.numbers digest.1) = some (Text.hexEncode digest.1) := by
    intro digest
    simp [unmarshalDigestField, digest.2]
  have houtput : unmarshalOptionalDigestField 32
      (entry.outputDigest.map fun digest => .numbers digest.1) =
        some (entry.outputDigest.map fun digest => Text.hexEncode digest.1) := by
    cases entry.outputDigest with
    | none => rfl
    | some digest => simp [unmarshalOptionalDigestField, hdigest]
  simp only [WireEntry.unmarshalJSON, Entry.serialize, hstep, goStepType_encode, hdigest, houtput,
    hstatus, Entry.report, unmarshalBinaryField, Option.map_map, Function.comp_def,
    Option.bind_some, Option.map_some]

/-- What the coordinator wrote to its database, it reads as the entry it had. -/
theorem unmarshalJSON_wireOf (entry : Entry) (stepType : StepType)
    (hstep : entry.stepType = goText (Json.normal stepType.toJson)) :
    (wireOf entry.report.marshalJSON).unmarshalJSON = some entry.report := by
  have hread : goStepType entry.stepType = some entry.stepType := by
    rw [hstep, goStepType, parse_goText, Option.map_some]
  have hreload : (wireOf entry.report.marshalJSON).unmarshalJSON =
      some entry.report.reload := by
    have hoptional : ∀ digest : Option String,
        unmarshalOptionalDigestField 32 (digest.map .text) =
          some (digest.map fun raw => unmarshalHexByteArrayField raw 32) := by
      intro digest
      cases digest <;> rfl
    have hsignature : ∀ signature : Option String,
        (signature.map ByteField.text).map unmarshalBinaryField = signature := by
      intro signature
      cases signature <;> rfl
    simp only [WireEntry.unmarshalJSON, wireOf, WalEntry.marshalJSON, Entry.report, hread,
      unmarshalDigestField, hoptional, hsignature, unmarshalStatusField, WalEntry.reload,
      WalEntryJSON.unmarshalJSON, Option.bind_some, Option.map_some]
  rw [hreload, Entry.report_reload]

/-- An entry that is not failed, with a signature of 64 bytes or none, reaches the second runtime
as it left the first one. -/
theorem roundTrip_eq (entry : Entry) (stepType : StepType)
    (hstep : entry.stepType = stepType.encode)
    (hstatus : ∀ reason, entry.status ≠ .failed reason)
    (hsigned : ∀ signature, entry.signature = some signature → signature.length = 64) :
    roundTrip entry = some entry := by
  have hofJSON : Entry.ofJSON
      { entry with stepType := goText (Json.normal stepType.toJson) }.report.marshalJSON =
        some { entry with stepType := goText (Json.normal stepType.toJson) } :=
    Entry.ofJSON_report hstatus fun signature hsignature => by
      rw [hsigned signature hsignature]
      decide
  have hdecode : StepType.decode (goText (Json.normal stepType.toJson)) = some stepType := by
    rw [StepType.decode, parse_goText, Option.bind_some, stepType.ofJson_normal]
  rw [roundTrip, unmarshalJSON_serialize entry stepType hstep, Option.bind_some,
    unmarshalJSON_wireOf _ stepType rfl, Option.bind_some, Entry.deserialize, hofJSON,
    Option.bind_some]
  simp only [WalEntry.marshalJSON, Entry.report, hdecode, Option.map_some, ← hstep]

/-- A signed entry whose step type has the escaped characters of both encoders. -/
def signedEntry : Entry where
  entryID := 2
  taskID := 1
  stepIndex := 7
  stepType := (StepType.roboticsAction "grip <a>" none).encode
  status := .committed
  inputDigest := ⟨List.replicate 32 171, rfl⟩
  outputDigest := some ⟨List.replicate 32 205, rfl⟩
  timestampMs := 1700000000000
  runtimeID := "edge-1"
  signature := some (List.replicate 64 255)

theorem signedEntry_roundTrip :
    signedEntry.status = .committed ∧ roundTrip signedEntry = some signedEntry :=
  ⟨rfl, roundTrip_eq signedEntry (.roboticsAction "grip <a>" none) rfl (by simp [signedEntry])
    (by simp [signedEntry])⟩

end Wal
end Igris
