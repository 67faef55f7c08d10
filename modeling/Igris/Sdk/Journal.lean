import Igris.Lib.Bytes
import Igris.Lib.HashChain
import Igris.Lib.Numbers
import Igris.Lib.Record
import Igris.Sdk.Canonical

/-!
# The journal of the SDK

The SDK appends signed events to a file, one JSON object on each line.  Each event carries
the hash of the one before it.  Verification reads the file again.

Main results:

- Theorem {lit}`loadJournalSnapshot_valid_iff`: a file verifies exactly if its lines are
  events that verify one after the other.
- Theorem {lit}`EventDraft.event_sound`: an event that is appended verifies by itself.
-/

namespace Igris
namespace Sdk

open Json

/-! ## The interpreter -/

/-- What the Python interpreter does with numbers and other values. -/
structure Interpreter where
  /-- The text that is written for a number that was read; {lit}`none` if it is refused. -/
  numberText : String → Option String
  numberText_spec : ∀ literal text, numberText literal = some text →
    isNumberLiteral text.toList = true ∨ isNonFinite text = true
  /-- The text of a value that is no text. -/
  str : Json → String

inductive PyError where
  | journalError
  | typeError
  | canonicalizationError
deriving DecidableEq, Repr

section Loads

variable (py : Interpreter)

mutual

/-- The numbers of a parsed text, as Python holds them. -/
def readNumbers : Json → Option Json
  | .number literal => (py.numberText literal).map .number
  | .array items => (readNumbersOfItems items).map .array
  | .object members => (readNumbersOfMembers members).map .object
  | .null => some .null
  | .bool value => some (.bool value)
  | .string text => some (.string text)

def readNumbersOfItems : List Json → Option (List Json)
  | [] => some []
  | item :: items =>
      match readNumbers item, readNumbersOfItems items with
      | some item, some items => some (item :: items)
      | _, _ => none

def readNumbersOfMembers : List (String × Json) → Option (List (String × Json))
  | [] => some []
  | (key, value) :: members =>
      match readNumbers value, readNumbersOfMembers members with
      | some value, some members => some ((key, value) :: members)
      | _, _ => none

end

/-- Python also reads numbers that are not finite. -/
def loads (text : List Char) : Option Json := (parse true text).bind (readNumbers py)

/-- The numbers are written as Python writes them. -/
def Stable (value : Json) : Prop :=
  ∀ literal ∈ literals value,
    isNumberLiteral literal.toList = true ∧ py.numberText literal = some literal

variable {py}

mutual

/-- Python reads a value if it reads all of its numbers. -/
theorem readNumbers_eq_decodeNumbers : (value : Json) →
    readNumbers py value = decodeNumbers py.numberText value
  | .null | .bool _ | .string _ => rfl
  | .number literal => by
      cases h : py.numberText literal <;> simp [readNumbers, decodeNumbers, literals, mapNumbers, h]
  | .array items => by
      rw [readNumbers, readNumbersOfItems_eq items, decodeNumbers, literals]
      split <;> rfl
  | .object members => by
      rw [readNumbers, readNumbersOfMembers_eq members, decodeNumbers, literals]
      split <;> rfl

theorem readNumbersOfItems_eq : (items : List Json) → readNumbersOfItems py items =
    if (literalsOfItems items).all fun literal => (py.numberText literal).isSome then
      some (mapNumbersItems (fun literal => (py.numberText literal).getD literal) items)
    else none
  | [] => rfl
  | item :: items => by
      rw [readNumbersOfItems, readNumbers_eq_decodeNumbers item, readNumbersOfItems_eq items,
        literalsOfItems, List.all_append, decodeNumbers]
      cases (literals item).all fun literal => (py.numberText literal).isSome <;>
        cases (literalsOfItems items).all fun literal => (py.numberText literal).isSome <;> rfl

theorem readNumbersOfMembers_eq : (members : List (String × Json)) →
    readNumbersOfMembers py members =
      if (literalsOfMembers members).all fun literal => (py.numberText literal).isSome then
        some (mapNumbersMembers (fun literal => (py.numberText literal).getD literal) members)
      else none
  | [] => rfl
  | (_, value) :: members => by
      rw [readNumbersOfMembers, readNumbers_eq_decodeNumbers value, readNumbersOfMembers_eq members,
        literalsOfMembers, List.all_append, decodeNumbers]
      cases (literals value).all fun literal => (py.numberText literal).isSome <;>
        cases (literalsOfMembers members).all fun literal => (py.numberText literal).isSome <;> rfl

end

variable {value : Json}

theorem Stable.numeric (h : Stable py value) : Numeric value :=
  fun literal hmem => (h literal hmem).1

/-- What is written is read back. -/
theorem loads_print (hordered : Ordered value) (h : Stable py value) :
    loads py (print serdeEscape value) = some value := by
  rw [loads, parse_print scans_serdeEscape true h.numeric, hordered.normal, Option.bind_some]
  rw [readNumbers_eq_decodeNumbers]
  exact decodeNumbers_eq_self fun literal hmem => (h literal hmem).2

theorem ordered_of_loads {text : List Char} (h : loads py text = some value) :
    Ordered value := by
  obtain ⟨parsed, hparsed, hread⟩ := Option.bind_eq_some_iff.mp h
  rw [readNumbers_eq_decodeNumbers] at hread
  exact (ordered_of_parse hparsed).of_decodeNumbers hread

theorem literals_of_loads {text : List Char} (h : loads py text = some value) :
    ∀ literal ∈ literals value,
      isNumberLiteral literal.toList = true ∨ isNonFinite literal = true := by
  obtain ⟨parsed, -, hread⟩ := Option.bind_eq_some_iff.mp h
  rw [readNumbers_eq_decodeNumbers] at hread
  exact literals_of_decodeNumbers hread py.numberText_spec

end Loads

/-! ## Events -/

/-- A key and the name it goes by.  Nothing is assumed about signatures that the key did
not make. -/
structure SigningIdentity where
  keyID : String
  sha256 : String → List UInt8
  length_sha256 : ∀ text, (sha256 text).length = 32
  sign : List UInt8 → List UInt8
  verify : List UInt8 → List UInt8 → Bool
  verify_sign : ∀ digest, verify digest (sign digest) = true

/-- A digest may serve as its own signature. -/
theorem verify_digest (digest : List UInt8) : decide (digest = digest) = true :=
  decide_eq_true rfl

/-- How a guarded call ended. -/
inductive OutcomeResult where
  | succeeded (observedResultType : String) (redactedOutputHash : Option String)
  | failed (exceptionType sanitizedErrorSummary : String)
deriving DecidableEq, Repr

/-- What an event records.  Metadata is canonical: its dictionaries are in order, and its
numbers are written as Python writes them. -/
inductive Evidence (py : Interpreter) where
  | decision (allowed : Bool) (risk approvalMode redactedInputSummary inputHash : String)
      (metadata : Option { value : Json // Ordered value ∧ Stable py value })
  | outcome (result : OutcomeResult) (decisionEventID : String)

/-- An event before it is put into the chain. -/
structure EventDraft (py : Interpreter) where
  eventID : String
  actionID : String
  actionName : String
  contractHash : String
  timestampUTC : String
  evidence : Evidence py

variable {py : Interpreter}

def Evidence.eventType : Evidence py → String
  | .decision .. => "decision"
  | .outcome .. => "outcome"

/-- The fields that depend on the type of the event. -/
def Evidence.extraFields : Evidence py → List (String × Option Json)
  | .decision allowed risk approvalMode redactedInputSummary inputHash metadata =>
      [("decision", some (.string (if allowed then "allowed" else "denied"))),
        ("risk", some (.string risk)),
        ("approval_mode", some (.string approvalMode)),
        ("redacted_input_summary", some (.string redactedInputSummary)),
        ("input_hash", some (.string inputHash)),
        ("metadata", metadata.map Subtype.val)]
  | .outcome (.succeeded observedResultType redactedOutputHash) decisionEventID =>
      [("status", some (.string "succeeded")),
        ("decision_event_id", some (.string decisionEventID)),
        ("observed_result_type", some (.string observedResultType)),
        ("redacted_output_hash", redactedOutputHash.map .string)]
  | .outcome (.failed exceptionType sanitizedErrorSummary) decisionEventID =>
      [("status", some (.string "failed")),
        ("decision_event_id", some (.string decisionEventID)),
        ("observed_result_type", some .null),
        ("exception_type", some (.string exceptionType)),
        ("sanitized_error_summary", some (.string sanitizedErrorSummary))]

def previousValue (previous : Option String) : Json := (previous.map Json.string).getD .null

/-- The fields of the unsigned payload. -/
def EventDraft.fields (draft : EventDraft py) (keyID : String) (previous : Option String) :
    List (String × Option Json) :=
  [("schema_version", some (.string "1")),
    ("event_type", some (.string draft.evidence.eventType)),
    ("event_id", some (.string draft.eventID)),
    ("action_id", some (.string draft.actionID)),
    ("action_name", some (.string draft.actionName)),
    ("contract_hash", some (.string draft.contractHash)),
    ("timestamp_utc", some (.string draft.timestampUTC)),
    ("key_id", some (.string keyID)),
    ("previous_event_hash", some (previousValue previous))] ++ draft.evidence.extraFields

def eventDigest (identity : SigningIdentity) (payload : Json) : Option (List UInt8) :=
  (canonicalJsonBytes payload).map identity.sha256

/-- Sign a payload.  Fails if it has no canonical text. -/
def finalizeEvent (identity : SigningIdentity) (payload : List (String × Json)) : Option Json :=
  (eventDigest identity (.object payload)).map fun digest =>
    .object (Assoc.insertAll [
      ("event_hash", .string (Text.hexEncode digest)),
      ("signature", .string (Text.base64Encode (identity.sign digest)))] payload)

/-- What {lit}`_append_event` hands to the journal. -/
def EventDraft.build (draft : EventDraft py) (identity : SigningIdentity)
    (previous : Option String) : Option Json :=
  finalizeEvent identity (Assoc.ofFields (draft.fields identity.keyID previous))

/-! ## Appending -/

def lineOf (event : Json) : List UInt8 := Bytes.encode (print serdeEscape (normal event))

/-- The lines without white space around them, without the blank ones. -/
def contents (lines : List (List UInt8)) : List (List UInt8) :=
  (lines.map Bytes.strip).filter fun line => !line.isEmpty

def contentLines (file : List UInt8) : List (List UInt8) := contents (Bytes.lines file)

def readLastEventHash (py : Interpreter) (file : List UInt8) : Except PyError (Option String) :=
  match (contentLines file).getLast? with
  | none => .ok none
  | some line =>
      match (Bytes.decode line).bind (loads py) with
      | none => .error .journalError
      | some (.object members) =>
          match Assoc.get members "event_hash" with
          | some (.string hash) => .ok (some hash)
          | _ => .error .journalError
      | some _ => .error .typeError

/-- The event that was appended, and the file after it. -/
def appendEvent (identity : SigningIdentity) (file : List UInt8) (draft : EventDraft py) :
    Except PyError (Json × List UInt8) :=
  match readLastEventHash py file with
  | .error error => .error error
  | .ok previous =>
      match draft.build identity previous with
      | none => .error .canonicalizationError
      | some event => .ok (event, file ++ lineOf event ++ [10])

/-! ## Verification -/

inductive IssueCode where
  | malformedJson
  | malformedEvent
  | unknownSchema
  | unknownEventType
  | missingFields
  | chainBreak
  | hashMismatch
  | unknownKey
  | badSignature
deriving DecidableEq, Repr

structure VerificationIssue where
  lineNumber : Nat
  code : IssueCode
deriving DecidableEq, Repr

/-- One read of a journal: its events, how many verified, and what is wrong. -/
structure JournalSnapshot where
  events : List Json := []
  eventsVerified : Nat := 0
  issues : List VerificationIssue := []

def JournalSnapshot.valid (snapshot : JournalSnapshot) : Bool := snapshot.issues.isEmpty

def sharedRequiredFields : List String :=
  ["schema_version", "event_type", "event_id", "action_id", "action_name", "contract_hash",
    "timestamp_utc", "key_id", "event_hash", "signature"]

def decisionRequiredFields : List String :=
  ["decision", "risk", "approval_mode", "redacted_input_summary", "input_hash"]

def outcomeRequiredFields : List String := ["status", "decision_event_id"]

def verifySignature (identity : SigningIdentity) (digest : List UInt8) (signature : String) :
    Bool :=
  match Text.base64DecodeChars .std true signature.toList with
  | none => false
  | some bytes => identity.verify digest bytes

/-- A value that cannot be looked up in a set. -/
def unhashable : Option Json → Bool
  | some (.array _) | some (.object _) => true
  | _ => false

def isText : Option Json → String → Bool
  | some (.string text), expected => text == expected
  | _, _ => false

def isPrevious : Option Json → Option String → Bool
  | some .null, none => true
  | some (.string text), some hash => text == hash
  | _, _ => false

/-- The stored hash of an event; a value that is no text is not followed. -/
def storedHash (event : Json) : Option String :=
  match event.get "event_hash" with
  | some (.string hash) => some hash
  | _ => none

/-- The signature of an event as a text. -/
def signatureText (py : Interpreter) (event : Json) : String :=
  match event.get "signature" with
  | some (.string text) => text
  | some value => py.str value
  | none => ""

def requiredFields (event : Json) : List String :=
  sharedRequiredFields ++
    (if isText (event.get "event_type") "decision" then decisionRequiredFields
      else outcomeRequiredFields) ++ ["previous_event_hash"]

/-- The checks of an event that has all its fields. -/
def verifyContent (py : Interpreter) (identity : SigningIdentity) (event : Json)
    (lineNumber : Nat) (expectedPrevious : Option String) (digest : List UInt8) :
    List VerificationIssue :=
  (if isPrevious (event.get "previous_event_hash") expectedPrevious then []
    else [⟨lineNumber, .chainBreak⟩]) ++
  (if isText (event.get "event_hash") (Text.hexEncode digest) then []
    else [⟨lineNumber, .hashMismatch⟩]) ++
  (if !isText (event.get "key_id") identity.keyID then [⟨lineNumber, .unknownKey⟩]
    else if verifySignature identity digest (signatureText py event) then []
    else [⟨lineNumber, .badSignature⟩])

def verifyEvent (py : Interpreter) (identity : SigningIdentity) (event : Json)
    (lineNumber : Nat) (expectedPrevious : Option String) :
    Except PyError (List VerificationIssue) :=
  if unhashable (event.get "schema_version") then .error .typeError
  else if !isText (event.get "schema_version") "1" then .ok [⟨lineNumber, .unknownSchema⟩]
  else if unhashable (event.get "event_type") then .error .typeError
  else if !(isText (event.get "event_type") "decision" ||
      isText (event.get "event_type") "outcome") then
    .ok [⟨lineNumber, .unknownEventType⟩]
  else if (requiredFields event).any fun field => (event.get field).isNone then
    .ok [⟨lineNumber, .missingFields⟩]
  else
    match eventDigest identity (unsignedPayload event) with
    | none => .error .canonicalizationError
    | some digest => .ok (verifyContent py identity event lineNumber expectedPrevious digest)

/-- One pass over the lines, from the given line number on. -/
def loadLines (py : Interpreter) (identity : SigningIdentity) (lineNumber : Nat)
    (previous : Option String) (snapshot : JournalSnapshot) :
    List (List UInt8) → Except PyError JournalSnapshot
  | [] => .ok snapshot
  | line :: rest =>
      if (Bytes.strip line).isEmpty then
        loadLines py identity (lineNumber + 1) previous snapshot rest
      else
        match (Bytes.decode (Bytes.strip line)).bind (loads py) with
        -- the chain cannot be followed past a line that is no object
        | none =>
            .ok { snapshot with issues := snapshot.issues ++ [⟨lineNumber, .malformedJson⟩] }
        | some (.object members) =>
            match verifyEvent py identity (.object members) lineNumber previous with
            | .error error => .error error
            | .ok issues =>
                loadLines py identity (lineNumber + 1) (storedHash (.object members))
                  { events := snapshot.events ++ [.object members]
                    eventsVerified := snapshot.eventsVerified + if issues.isEmpty then 1 else 0
                    issues := snapshot.issues ++ issues } rest
        | some _ =>
            .ok { snapshot with issues := snapshot.issues ++ [⟨lineNumber, .malformedEvent⟩] }

def loadJournalSnapshot (py : Interpreter) (identity : SigningIdentity) (file : List UInt8) :
    Except PyError JournalSnapshot :=
  loadLines py identity 1 none {} (Bytes.lines file)

def verifyJournal (py : Interpreter) (identity : SigningIdentity) (file : List UInt8) :
    Except PyError Bool :=
  (loadJournalSnapshot py identity file).map JournalSnapshot.valid

/-! ## What verification accepts -/

theorem isText_iff {value : Option Json} {text : String} :
    isText value text = true ↔ value = some (.string text) := by
  cases value with
  | none => simp [isText]
  | some value => cases value <;> simp [isText]

variable {previous : Option String} {lineNumber : Nat}

theorem isPrevious_iff {value : Option Json} :
    isPrevious value previous = true ↔ value = some (previousValue previous) := by
  cases previous with
  | none | some =>
      cases value with
      | none => simp [isPrevious]
      | some value => cases value <;> simp [isPrevious, previousValue]

/-- All that is checked about an event by itself. -/
structure Sound (py : Interpreter) (identity : SigningIdentity) (event : Json) : Prop where
  schemaVersion : event.get "schema_version" = some (.string "1")
  eventType : event.get "event_type" = some (.string "decision") ∨
    event.get "event_type" = some (.string "outcome")
  fields : ∀ field ∈ requiredFields event, event.get field ≠ none
  keyID : event.get "key_id" = some (.string identity.keyID)
  signed : ∃ text, canonicalJsonBytes (unsignedPayload event) = some text ∧
    event.get "event_hash" = some (.string (sha256Hex identity.sha256 text)) ∧
    verifySignature identity (identity.sha256 text) (signatureText py event) = true

variable {identity : SigningIdentity}

theorem verifyContent_eq_nil_iff {event : Json} {digest : List UInt8} :
    verifyContent py identity event lineNumber previous digest = [] ↔
      event.get "previous_event_hash" = some (previousValue previous) ∧
      event.get "event_hash" = some (.string (Text.hexEncode digest)) ∧
      event.get "key_id" = some (.string identity.keyID) ∧
      verifySignature identity digest (signatureText py event) = true := by
  simp only [verifyContent, ← isText_iff, ← isPrevious_iff, List.append_eq_nil_iff]
  split_ifs <;> simp_all

/-- An event that is sound by itself is checked to the end. -/
theorem Sound.verifyEvent_eq {event : Json} (h : Sound py identity event) (lineNumber : Nat)
    (previous : Option String) :
    ∃ text, canonicalJsonBytes (unsignedPayload event) = some text ∧
      verifyEvent py identity event lineNumber previous =
        .ok (verifyContent py identity event lineNumber previous (identity.sha256 text)) := by
  obtain ⟨hschema, htype, hfields, -, text, htext, -⟩ := h
  have hversion : isText (event.get "schema_version") "1" = true := isText_iff.mpr hschema
  have hhashable : unhashable (event.get "schema_version") = false ∧
      unhashable (event.get "event_type") = false := by
    obtain htype | htype := htype <;> simp [hschema, htype, unhashable]
  have hknown : (isText (event.get "event_type") "decision" ||
      isText (event.get "event_type") "outcome") = true := by
    simpa [isText_iff] using htype
  have hpresent : ((requiredFields event).any fun field => (event.get field).isNone) = false := by
    simpa [List.any_eq_false] using hfields
  refine ⟨text, htext, ?_⟩
  simp [verifyEvent, hversion, hhashable, hknown, hpresent, eventDigest, htext]

theorem verifyEvent_eq_ok_nil_iff {event : Json} :
    verifyEvent py identity event lineNumber previous = .ok [] ↔
      Sound py identity event ∧
        event.get "previous_event_hash" = some (previousValue previous) := by
  constructor
  · intro h
    unfold verifyEvent at h
    split_ifs at h with h1 h2 h3 h4 h5
    · simp at h
    · simp at h
    · simp at h
    · cases hdigest : eventDigest identity (unsignedPayload event) with
      | none => simp [hdigest] at h
      | some digest =>
          simp only [hdigest, Except.ok.injEq, verifyContent_eq_nil_iff] at h
          obtain ⟨text, htext, rfl⟩ := Option.map_eq_some_iff.mp hdigest
          simp only [Bool.not_eq_true', Bool.not_eq_false, Bool.or_eq_true, isText_iff] at h2 h4
          simp only [List.any_eq_true, not_exists, not_and, Option.isNone_iff_eq_none] at h5
          exact ⟨⟨h2, h4, h5, h.2.2.1, text, htext, h.2.1, h.2.2.2⟩, h.1⟩
  · rintro ⟨hsound, hprevious⟩
    obtain ⟨text, htext, hverify⟩ := hsound.verifyEvent_eq lineNumber previous
    obtain ⟨text', htext', hhash, hsignature⟩ := hsound.signed
    obtain rfl := Option.some.inj (htext.symm.trans htext')
    rw [hverify, verifyContent_eq_nil_iff.mpr ⟨hprevious, hhash, hsound.keyID, hsignature⟩]

/-! ## What loading accepts -/

/-- The event on a line. -/
def readEvent (py : Interpreter) (line : List UInt8) : Option Json :=
  match (Bytes.decode line).bind (loads py) with
  | some (.object members) => some (.object members)
  | _ => none

/-- What the next event has to name. -/
def followed (event : Json) : Option Json := some (previousValue (storedHash event))

def previousField (event : Json) : Option Json := event.get "previous_event_hash"

/-- Events that verify one after the other. -/
def VerifiedFrom (py : Interpreter) (identity : SigningIdentity) (previous : Option String)
    (events : List Json) : Prop :=
  (∀ event ∈ events, Sound py identity event) ∧
    HashChain.Linked followed previousField (some (previousValue previous)) events

theorem verifiedFrom_nil (previous : Option String) : VerifiedFrom py identity previous [] :=
  ⟨by simp, trivial⟩

theorem verifiedFrom_cons {event : Json} {events : List Json} :
    VerifiedFrom py identity previous (event :: events) ↔
      (Sound py identity event ∧
        event.get "previous_event_hash" = some (previousValue previous)) ∧
      VerifiedFrom py identity (storedHash event) events := by
  simp only [VerifiedFrom, List.forall_mem_cons, HashChain.Linked, previousField, followed]
  tauto

section Load

variable {snapshot result : JournalSnapshot} {line : List UInt8} {lines : List (List UInt8)}
  {event : Json}

theorem loadLines_blank (h : Bytes.strip line = []) :
    loadLines py identity lineNumber previous snapshot (line :: lines) =
      loadLines py identity (lineNumber + 1) previous snapshot lines := by
  simp [loadLines, h]

theorem loadLines_event (h : readEvent py (Bytes.strip line) = some event) :
    loadLines py identity lineNumber previous snapshot (line :: lines) =
      (verifyEvent py identity event lineNumber previous).bind fun issues =>
        loadLines py identity (lineNumber + 1) (storedHash event)
          ⟨snapshot.events ++ [event],
            snapshot.eventsVerified + (if issues.isEmpty then 1 else 0),
            snapshot.issues ++ issues⟩ lines := by
  have hline : Bytes.strip line ≠ [] := by
    intro hnil
    have hnone : (Bytes.decode []).bind (loads py) = none := rfl
    simp [readEvent, hnil, hnone] at h
  unfold readEvent at h
  split at h
  case h_1 members hread =>
    obtain rfl := Option.some.inj h
    simp only [loadLines, List.isEmpty_iff, hline, if_false, hread]
    cases verifyEvent py identity (.object members) lineNumber previous <;> rfl
  case h_2 => simp at h

theorem loadLines_unreadable (hline : Bytes.strip line ≠ [])
    (h : readEvent py (Bytes.strip line) = none) :
    ∃ code, loadLines py identity lineNumber previous snapshot (line :: lines) =
      .ok { snapshot with issues := snapshot.issues ++ [⟨lineNumber, code⟩] } := by
  simp only [loadLines, List.isEmpty_iff, hline, if_false]
  unfold readEvent at h
  split at h
  case h_1 => simp at h
  case h_2 hread =>
    split
    case h_1 => exact ⟨_, rfl⟩
    case h_2 members hmembers => exact absurd hmembers (hread members)
    case h_3 => exact ⟨_, rfl⟩

/-- What was found wrong is not forgotten. -/
theorem issues_prefix_of_loadLines
    (h : loadLines py identity lineNumber previous snapshot lines = .ok result) :
    snapshot.issues <+: result.issues := by
  induction lines generalizing lineNumber previous snapshot with
  | nil =>
      obtain rfl := Except.ok.inj h
      exact List.prefix_refl _
  | cons line lines ih =>
      by_cases hline : Bytes.strip line = []
      · rw [loadLines_blank hline] at h
        exact ih h
      · cases hread : readEvent py (Bytes.strip line) with
        | none =>
            obtain ⟨code, hload⟩ := loadLines_unreadable hline hread
            rw [hload] at h
            obtain rfl := Except.ok.inj h
            exact List.prefix_append _ _
        | some event =>
            rw [loadLines_event hread] at h
            cases hverify : verifyEvent py identity event lineNumber previous with
            | error error => simp [hverify, Except.bind] at h
            | ok issues =>
                simp only [hverify, Except.bind] at h
                exact (List.prefix_append _ _).trans (ih h)

theorem contents_append (a b : List (List UInt8)) : contents (a ++ b) = contents a ++ contents b := by
  simp [contents]

theorem contents_cons (line : List UInt8) (lines : List (List UInt8)) :
    contents (line :: lines) =
      if Bytes.strip line = [] then contents lines else Bytes.strip line :: contents lines := by
  by_cases hline : Bytes.strip line = [] <;> simp [contents, hline]

/-- A journal verifies exactly if its lines are events that verify one after the other. -/
theorem loadLines_valid_iff (hsnapshot : snapshot.issues = []) :
    (loadLines py identity lineNumber previous snapshot lines = .ok result ∧
        result.issues = []) ↔
      ∃ events, (contents lines).map (readEvent py) = events.map some ∧
        VerifiedFrom py identity previous events ∧
        result = ⟨snapshot.events ++ events, snapshot.eventsVerified + events.length, []⟩ := by
  induction lines generalizing lineNumber previous snapshot with
  | nil =>
      obtain ⟨events, verified, issues⟩ := snapshot
      obtain rfl : issues = [] := hsnapshot
      simp only [loadLines, Except.ok.injEq, contents, List.map_nil, List.filter_nil]
      constructor
      · rintro ⟨rfl, -⟩
        exact ⟨[], rfl, verifiedFrom_nil previous, by simp⟩
      · rintro ⟨events', hevents, -, rfl⟩
        obtain rfl := List.map_eq_nil_iff.mp hevents.symm
        simp
  | cons line lines ih =>
      by_cases hline : Bytes.strip line = []
      · rw [loadLines_blank hline, contents_cons, if_pos hline]
        exact ih hsnapshot
      rw [contents_cons, if_neg hline, List.map_cons]
      cases hread : readEvent py (Bytes.strip line) with
      | none =>
          constructor
          · rintro ⟨hload, hissues⟩
            obtain ⟨code, hcode⟩ := loadLines_unreadable hline hread
            rw [hcode] at hload
            obtain rfl := Except.ok.inj hload
            simp at hissues
          · rintro ⟨events, hevents, -⟩
            cases events <;> simp at hevents
      | some event =>
          rw [loadLines_event hread]
          constructor
          · rintro ⟨hload, hissues⟩
            cases hverify : verifyEvent py identity event lineNumber previous with
            | error error => simp [hverify, Except.bind] at hload
            | ok issues =>
                simp only [hverify, Except.bind] at hload
                -- an issue would still be there at the end
                have hprefix := issues_prefix_of_loadLines hload
                obtain rfl : issues = [] := by
                  rw [hissues, List.prefix_nil] at hprefix
                  simpa [hsnapshot] using hprefix
                obtain ⟨events, hevents, hverified, rfl⟩ :=
                  (ih (by simpa using hsnapshot)).mp ⟨hload, hissues⟩
                refine ⟨event :: events, by simp [hevents], ?_, ?_⟩
                · exact verifiedFrom_cons.mpr ⟨verifyEvent_eq_ok_nil_iff.mp hverify, hverified⟩
                · simp [Nat.add_comm, Nat.add_left_comm]
          · rintro ⟨events, hevents, hverified, rfl⟩
            cases events with
            | nil => simp at hevents
            | cons first events =>
                obtain ⟨hfirst, htail⟩ := List.cons.inj hevents
                obtain rfl := Option.some.inj hfirst
                obtain ⟨hsound, hverified⟩ := verifiedFrom_cons.mp hverified
                rw [verifyEvent_eq_ok_nil_iff.mpr hsound]
                apply (ih (by simpa using hsnapshot)).mpr
                exact ⟨events, htail, hverified, by simp [Nat.add_comm, Nat.add_left_comm]⟩

end Load

theorem loadJournalSnapshot_valid_iff {file : List UInt8} {result : JournalSnapshot} :
    (loadJournalSnapshot py identity file = .ok result ∧ result.issues = []) ↔
      ∃ events, (contentLines file).map (readEvent py) = events.map some ∧
        VerifiedFrom py identity none events ∧ result = ⟨events, events.length, []⟩ := by
  rw [loadJournalSnapshot, loadLines_valid_iff rfl]
  simp [contentLines]

theorem verifyJournal_eq_true_iff {file : List UInt8} :
    verifyJournal py identity file = .ok true ↔
      ∃ events, (contentLines file).map (readEvent py) = events.map some ∧
        VerifiedFrom py identity none events := by
  rw [verifyJournal]
  constructor
  · intro h
    cases hload : loadJournalSnapshot py identity file with
    | error error => simp [hload, Except.map] at h
    | ok snapshot =>
        simp only [hload, Except.map, Except.ok.injEq, JournalSnapshot.valid,
          List.isEmpty_iff] at h
        obtain ⟨events, hread, hverified, -⟩ := loadJournalSnapshot_valid_iff.mp ⟨hload, h⟩
        exact ⟨events, hread, hverified⟩
  · rintro ⟨events, hread, hverified⟩
    rw [(loadJournalSnapshot_valid_iff.mpr ⟨events, hread, hverified, rfl⟩).1]
    rfl

/-! ## Loading that raises -/

/-- Verification raises: a set is asked for a list or a dictionary, or the payload has a number
that is not finite. -/
def raises (event : Json) : Bool :=
  unhashable (event.get "schema_version") ||
    isText (event.get "schema_version") "1" &&
      (unhashable (event.get "event_type") ||
        (isText (event.get "event_type") "decision" ||
            isText (event.get "event_type") "outcome") &&
          !((requiredFields event).any fun field => (event.get field).isNone) &&
          (literals (unsignedPayload event)).any isNonFinite)

/-- The events before the first line that is none. -/
def readableEvents (py : Interpreter) : List (List UInt8) → List Json
  | [] => []
  | line :: lines =>
      match readEvent py line with
      | none => []
      | some event => event :: readableEvents py lines

/-- Hash, signature and linkage of an event are right. -/
def correct (py : Interpreter) (identity : SigningIdentity) (previous : Option String)
    (event : Json) : Bool :=
  isPrevious (event.get "previous_event_hash") previous &&
    (eventDigest identity (unsignedPayload event)).any fun digest =>
      isText (event.get "event_hash") (Text.hexEncode digest) &&
        verifySignature identity digest (signatureText py event)

def correctCount (py : Interpreter) (identity : SigningIdentity) :
    Option String → List Json → Nat
  | _, [] => 0
  | previous, event :: events =>
      (correct py identity previous event).toNat + correctCount py identity (storedHash event) events

theorem raises_iff {event : Json} :
    raises event = true ↔
      ∃ error, verifyEvent py identity event lineNumber previous = .error error := by
  unfold raises verifyEvent eventDigest canonicalJsonBytes
  generalize (isText (event.get "event_type") "decision" ||
    isText (event.get "event_type") "outcome") = known
  split_ifs <;> simp_all

theorem correct_of_verifyEvent {event : Json}
    (h : verifyEvent py identity event lineNumber previous = .ok []) :
    correct py identity previous event = true := by
  obtain ⟨hsound, hprevious⟩ := verifyEvent_eq_ok_nil_iff.mp h
  obtain ⟨text, htext, hhash, hsignature⟩ := hsound.signed
  rw [sha256Hex, ← isText_iff] at hhash
  simp [correct, isPrevious_iff.mpr hprevious, eventDigest, htext, hhash, hsignature]

section Robust

variable {snapshot result : JournalSnapshot} {lines : List (List UInt8)}

theorem loadLines_eq_ok_iff :
    (∃ result, loadLines py identity lineNumber previous snapshot lines = .ok result) ↔
      ∀ event ∈ readableEvents py (contents lines), raises event = false := by
  induction lines generalizing lineNumber previous snapshot with
  | nil => simp [loadLines, contents, readableEvents]
  | cons line lines ih =>
      by_cases hline : Bytes.strip line = []
      · rw [loadLines_blank hline, contents_cons, if_pos hline]
        exact ih
      · rw [contents_cons, if_neg hline, readableEvents]
        cases hread : readEvent py (Bytes.strip line) with
        | none =>
            obtain ⟨code, hload⟩ := loadLines_unreadable hline hread
            exact iff_of_true ⟨_, hload⟩ nofun
        | some event =>
            rw [loadLines_event hread, List.forall_mem_cons]
            cases hverify : verifyEvent py identity event lineNumber previous with
            | error error =>
                have hraises := raises_iff.mpr ⟨error, hverify⟩
                simp [Except.bind, hraises]
            | ok issues =>
                have hraises : raises event = false := by
                  by_contra hraises
                  obtain ⟨error, herror⟩ := raises_iff.mp (by simpa using hraises)
                  rw [hverify] at herror
                  cases herror
                simp only [Except.bind, hraises, true_and]
                exact ih

theorem eventsVerified_of_loadLines
    (h : loadLines py identity lineNumber previous snapshot lines = .ok result) :
    ∃ events, result.events = snapshot.events ++ events ∧
      result.eventsVerified ≤ snapshot.eventsVerified + correctCount py identity previous events := by
  induction lines generalizing lineNumber previous snapshot with
  | nil =>
      obtain rfl := Except.ok.inj h
      exact ⟨[], by simp, by simp⟩
  | cons line lines ih =>
      by_cases hline : Bytes.strip line = []
      · rw [loadLines_blank hline] at h
        exact ih h
      · cases hread : readEvent py (Bytes.strip line) with
        | none =>
            obtain ⟨code, hload⟩ := loadLines_unreadable hline hread
            rw [hload] at h
            obtain rfl := Except.ok.inj h
            exact ⟨[], by simp, by simp⟩
        | some event =>
            rw [loadLines_event hread] at h
            cases hverify : verifyEvent py identity event lineNumber previous with
            | error error => simp [hverify, Except.bind] at h
            | ok issues =>
                simp only [hverify, Except.bind] at h
                obtain ⟨events, hevents, hle⟩ := ih h
                refine ⟨event :: events, by simp [hevents], hle.trans ?_⟩
                have hcounted : (if issues.isEmpty then 1 else 0) ≤
                    (correct py identity previous event).toNat := by
                  split_ifs with hempty
                  · rw [List.isEmpty_iff.mp hempty] at hverify
                    simp [correct_of_verifyEvent hverify]
                  · exact Nat.zero_le _
                simp only [correctCount]
                omega

end Robust

/-- A list as the version of the schema. -/
def listVersion : Json := .object [("schema_version", .array [])]

theorem stable_objectOf {fields : List (String × Option Json)}
    (h : ∀ key value, (key, some value) ∈ fields → Stable py value) :
    Stable py (objectOf fields) := by
  intro literal hliteral
  obtain ⟨member, hmember, hmem⟩ := mem_literalsOfMembers.mp hliteral
  exact h member.1 member.2 (Assoc.mem_ofFields hmember) literal hmem

/-- A member that is left out, or a value that is read back as it is written. -/
def Writable (py : Interpreter) : Option Json → Prop
  | none => True
  | some value => Ordered value ∧ Stable py value

@[simp]
theorem writable_null : Writable py (some .null) := ⟨.null, by simp [Stable, literals]⟩

@[simp]
theorem writable_string (text : String) : Writable py (some (.string text)) :=
  ⟨.string text, by simp [Stable, literals]⟩

@[simp]
theorem writable_map_string (text : Option String) : Writable py (text.map .string) := by
  cases text
  · trivial
  · exact writable_string _

@[simp]
theorem writable_previousValue (previous : Option String) :
    Writable py (some (previousValue previous)) := by
  cases previous
  · exact writable_null
  · exact writable_string _

@[simp]
theorem writable_metadata (metadata : Option { value : Json // Ordered value ∧ Stable py value }) :
    Writable py metadata.unattach := by
  cases metadata with
  | none => trivial
  | some value => exact value.2

namespace EventDraft

variable (draft : EventDraft py) (identity : SigningIdentity) (previous : Option String)

/-- The digest that is signed. -/
def digest : List UInt8 :=
  identity.sha256 (canonicalText (objectOf (draft.fields identity.keyID previous)))

/-- The fields of the event on its line. -/
def signedFields : List (String × Option Json) :=
  draft.fields identity.keyID previous ++
    [("event_hash", some (.string (Text.hexEncode (draft.digest identity previous)))),
      ("signature", some (.string
        (Text.base64Encode (identity.sign (draft.digest identity previous)))))]

def event : Json := objectOf (draft.signedFields identity previous)

/-- The three kinds of events. -/
@[elab_as_elim]
theorem byKind {motive : EventDraft py → Prop}
    (decision : ∀ eventID actionID actionName contractHash timestampUTC allowed risk approvalMode
      summary inputHash metadata, motive ⟨eventID, actionID, actionName, contractHash,
        timestampUTC, .decision allowed risk approvalMode summary inputHash metadata⟩)
    (succeeded : ∀ eventID actionID actionName contractHash timestampUTC observed output id,
      motive ⟨eventID, actionID, actionName, contractHash, timestampUTC,
        .outcome (.succeeded observed output) id⟩)
    (failed : ∀ eventID actionID actionName contractHash timestampUTC exceptionType summary id,
      motive ⟨eventID, actionID, actionName, contractHash, timestampUTC,
        .outcome (.failed exceptionType summary) id⟩) (draft : EventDraft py) : motive draft :=
  match draft with
  | ⟨_, _, _, _, _, .decision ..⟩ => decision ..
  | ⟨_, _, _, _, _, .outcome (.succeeded ..) _⟩ => succeeded ..
  | ⟨_, _, _, _, _, .outcome (.failed ..) _⟩ => failed ..

theorem nodup_signedFields : ((draft.signedFields identity previous).map Prod.fst).Nodup := by
  cases draft using byKind <;> simp [signedFields, fields, Evidence.extraFields]

theorem writable_signedFields :
    ∀ field ∈ draft.signedFields identity previous, Writable py field.2 := by
  cases draft using byKind <;> simp [signedFields, fields, Evidence.extraFields]

theorem event_ordered : Ordered (draft.event identity previous) :=
  ordered_objectOf fun key value h =>
    (draft.writable_signedFields identity previous (key, some value) h).1

theorem event_stable : Stable py (draft.event identity previous) :=
  stable_objectOf fun key value h =>
    (draft.writable_signedFields identity previous (key, some value) h).2

theorem unsignedPayload_event :
    unsignedPayload (draft.event identity previous) =
      objectOf (draft.fields identity.keyID previous) := by
  have hkept : Assoc.keep (fun key => decide (key ∉ ["event_hash", "signature"]))
      (draft.signedFields identity previous) = draft.fields identity.keyID previous := by
    cases draft using byKind <;> simp [Assoc.keep, signedFields, fields, Evidence.extraFields]
  rw [event, unsignedPayload, objectOf, without, Assoc.keep_ofFields, hkept, objectOf]

theorem payload_numeric : Numeric (objectOf (draft.fields identity.keyID previous)) := by
  have hstable : Stable py (objectOf (draft.fields identity.keyID previous)) := by
    apply stable_objectOf
    intro key value h
    have hmem : (key, some value) ∈ draft.signedFields identity previous :=
      List.mem_append_left _ h
    exact (draft.writable_signedFields identity previous _ hmem).2
  exact hstable.numeric

theorem build_eq : draft.build identity previous = some (draft.event identity previous) := by
  have hdigest := canonicalJsonBytes_of_numeric (draft.payload_numeric identity previous)
  rw [build, finalizeEvent, eventDigest]
  simp only [objectOf] at hdigest
  rw [hdigest, event, objectOf, signedFields, Assoc.ofFields_append]
  rfl

theorem get_event (key : String) :
    (draft.event identity previous).get key =
      ((draft.signedFields identity previous).lookup key).join :=
  get_objectOf (draft.nodup_signedFields identity previous) key

@[simp]
theorem previousField_event :
    previousField (draft.event identity previous) = some (previousValue previous) := by
  rw [previousField, get_event]
  rfl

theorem get_eventHash :
    (draft.event identity previous).get "event_hash" =
      some (.string (Text.hexEncode (draft.digest identity previous))) := by
  rw [get_event]
  cases draft using byKind <;> rfl

theorem get_signature :
    (draft.event identity previous).get "signature" = some (.string
      (Text.base64Encode (identity.sign (draft.digest identity previous)))) := by
  rw [get_event]
  cases draft using byKind <;> rfl

theorem signatureText_event :
    signatureText py (draft.event identity previous) =
      Text.base64Encode (identity.sign (draft.digest identity previous)) := by
  simp [signatureText, get_signature]

theorem storedHash_event :
    storedHash (draft.event identity previous) =
      some (Text.hexEncode (draft.digest identity previous)) := by
  simp [storedHash, get_eventHash]

theorem get_eventType :
    (draft.event identity previous).get "event_type" =
      some (.string draft.evidence.eventType) := by
  rw [get_event]
  rfl

theorem get_requiredFields :
    ∀ field ∈ requiredFields (draft.event identity previous),
      (draft.event identity previous).get field ≠ none := by
  rw [requiredFields, get_eventType]
  simp only [get_event]
  cases draft using byKind <;>
    simp [isText, Evidence.eventType, sharedRequiredFields, decisionRequiredFields,
      outcomeRequiredFields, signedFields, fields, Evidence.extraFields, List.lookup_cons]

theorem event_sound : Sound py identity (draft.event identity previous) where
  schemaVersion := by
    rw [get_event]
    rfl
  eventType := by
    rw [get_eventType]
    cases draft.evidence
    · exact .inl rfl
    · exact .inr rfl
  fields := draft.get_requiredFields identity previous
  keyID := by
    rw [get_event]
    rfl
  signed := by
    refine ⟨canonicalText (objectOf (draft.fields identity.keyID previous)), ?_, ?_, ?_⟩
    · rw [unsignedPayload_event]
      exact canonicalJsonBytes_of_numeric (draft.payload_numeric identity previous)
    · exact draft.get_eventHash identity previous
    · simp only [signatureText_event, verifySignature, Text.base64Encode, String.toList_ofList,
        Text.base64DecodeChars_encode]
      exact identity.verify_sign _

end EventDraft

end Sdk
end Igris
