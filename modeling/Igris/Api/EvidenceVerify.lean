import Igris.Sdk.Canonical

/-!
# Verification of submitted evidence

The server verifies a batch of events against the public key, the expected start of the
chain, and the decisions of earlier batches.

Main results:

- Theorem {lit}`verifyEvidenceEvents_accepted_iff`: a batch is accepted exactly if each of
  its events is, one after the other.
- Theorem {lit}`acceptEvent_eq_some_iff`: what it takes for one event to be accepted.
-/

namespace Igris
namespace Evidence

open Json

/-! ## Patterns -/

def isLetter (c : Char) : Bool := ('a' ≤ c && c ≤ 'z') || ('A' ≤ c && c ≤ 'Z')

def isDigitChar (c : Char) : Bool := '0' ≤ c && c ≤ '9'

/-- A character of an action name, after the first one. -/
def isActionChar (c : Char) : Bool :=
  isLetter c || isDigitChar c || c == '_' || c == '.' || c == ':' || c == '-'

/-- The pattern of {lit}`contractActionNamePattern`: a letter and at most 127 more
characters. -/
def isActionName (name : String) : Bool :=
  match name.toList with
  | [] => false
  | c :: rest => isLetter c && rest.all isActionChar && decide (rest.length ≤ 127)

/-- The pattern of {lit}`contractHashPattern`. -/
def isHash (text : String) : Bool :=
  decide (text.toList.length = 64) &&
    text.toList.all fun c => isDigitChar c || ('a' ≤ c && c ≤ 'f')

/-! ## Fields -/

inductive IssueCode where
  | unknownSchema
  | unknownEventType
  | missingFields
  | invalidField
  | invalidTimestamp
  | chainBreak
  | hashMismatch
  | unknownKey
  | badSignature
  | unknownDecisionReference
  | invalidTransition
deriving DecidableEq, Repr

structure Issue where
  index : Nat
  code : IssueCode
deriving DecidableEq, Repr

/-- What events are verified with: the digest, the submitted key and the parser of times. -/
structure Verifier where
  sha256 : String → List UInt8
  verify : List UInt8 → List UInt8 → Bool
  keyID : String
  parseTime : String → Option Int

def stringField (event : Json) (name : String) : Option String :=
  (event.get name).bind asString

def sharedRequiredFields : List String :=
  ["schema_version", "event_type", "event_id", "action_id", "action_name", "contract_hash",
    "timestamp_utc", "key_id", "event_hash", "signature"]

def requiredFields (eventType : String) : List String :=
  sharedRequiredFields ++
    (if eventType = "decision" then
      ["decision", "risk", "approval_mode", "redacted_input_summary", "input_hash"]
    else ["status", "decision_event_id"]) ++ ["previous_event_hash"]

/-- The previous hash of an event; {lit}`none` if it is neither null nor a text. -/
def previousHash (event : Json) : Option (Option String) :=
  match event.get "previous_event_hash" with
  | some .null => some none
  | some (.string hash) => some (some hash)
  | _ => none

/-- The fields of an event that are used after the checks of their types. -/
structure EventFields where
  eventType : String
  submittedHash : String
  signature : String
  eventID : String
  actionName : String
  contractHash : String
  keyID : String
  previousHash : Option String
  timestampUTC : Int
deriving DecidableEq, Repr

def need {α : Type} (code : IssueCode) : Option α → Except IssueCode α
  | some value => .ok value
  | none => .error code

def require (code : IssueCode) (ok : Bool) : Except IssueCode Unit :=
  if ok then .ok () else .error code

/-- The checks whose failure ends the verification of the batch. -/
def checkFields (verifier : Verifier) (event : Json) : Except IssueCode EventFields := do
  require .unknownSchema (decide (stringField event "schema_version" = some "1"))
  let eventType := (stringField event "event_type").getD ""
  require .unknownEventType (decide (eventType ∈ ["decision", "outcome"]))
  require .missingFields ((requiredFields eventType).all fun field => (event.get field).isSome)
  let submittedHash ← need .invalidField (stringField event "event_hash")
  require .invalidField (isHash submittedHash)
  let signature ← need .invalidField (stringField event "signature")
  let eventID ← need .invalidField (stringField event "event_id")
  let actionName ← need .invalidField (stringField event "action_name")
  let contractHash ← need .invalidField (stringField event "contract_hash")
  let keyID ← need .invalidField (stringField event "key_id")
  let timestampText ← need .invalidField (stringField event "timestamp_utc")
  require .invalidField (decide (eventID ≠ "" ∧ eventID.utf8ByteSize ≤ 128))
  require .invalidField (isActionName actionName && isHash contractHash)
  let previousHash ← need .invalidField (previousHash event)
  let timestampUTC ← need .invalidTimestamp (verifier.parseTime timestampText)
  return ⟨eventType, submittedHash, signature, eventID, actionName, contractHash, keyID,
    previousHash, timestampUTC⟩

/-! ## The loop over a batch -/

/-- The answer to a query for the decision of an earlier batch. -/
inductive Lookup where
  | found (decision : String)
  | noRows
  | failed
deriving DecidableEq, Repr

structure VerifiedEvent where
  event : Json
  canonicalEvent : String
  eventHash : String
  fields : EventFields

/-- What the loop remembers.  The last decision that was seen for an event id comes first. -/
structure Scan where
  expectedPrevious : Option String
  decisions : List (String × String) := []
  outcomesSeen : List String := []

/-- The checks that do not end the verification: the chain, the hash and the signature. -/
def contentIssues (verifier : Verifier) (scan : Scan) (event : Json) (fields : EventFields) :
    List IssueCode :=
  let digest := verifier.sha256
    (Api.canonicalEncode (without ["event_hash", "signature"] event))
  (if fields.previousHash = scan.expectedPrevious then [] else [.chainBreak]) ++
  (if Text.hexEncode digest = fields.submittedHash then [] else [.hashMismatch]) ++
  (if fields.keyID ≠ verifier.keyID then [.unknownKey]
    else
      match Text.base64Decode .std true fields.signature with
      | none => [.badSignature]
      | some signature => if verifier.verify digest signature then [] else [.badSignature])

/-- The decision that an outcome refers to, in this batch or an earlier one. -/
def findDecision (lookup : String → Lookup) (scan : Scan) (decisionEventID : String) : Lookup :=
  match scan.decisions.lookup decisionEventID with
  | some decision => .found decision
  | none => lookup decisionEventID

/-- The checks of what an event means, and what is remembered of it; {lit}`none` if a query
failed. -/
def transition (lookup : String → Lookup) (scan : Scan) (event : Json) (fields : EventFields) :
    Option (List IssueCode × Scan) :=
  if fields.eventType = "decision" then
    let decision := (stringField event "decision").getD ""
    if decision ∈ ["allowed", "denied"] then
      some ([], { scan with decisions := (fields.eventID, decision) :: scan.decisions })
    else some ([.invalidField], scan)
  else
    let status := (stringField event "status").getD ""
    let statusIssues := if status ∈ ["succeeded", "failed"] then [] else [IssueCode.invalidField]
    let decisionEventID := (stringField event "decision_event_id").getD ""
    if decisionEventID = "" then some (statusIssues ++ [.invalidField], scan)
    else
      match findDecision lookup scan decisionEventID with
      | .failed => none
      | .noRows => some (statusIssues ++ [.unknownDecisionReference], scan)
      | .found decision =>
          -- a denial is terminal, and a decision has one outcome
          if decision = "denied" ∨ decisionEventID ∈ scan.outcomesSeen then
            some (statusIssues ++ [.invalidTransition], scan)
          else
            some (statusIssues, { scan with outcomesSeen := decisionEventID :: scan.outcomesSeen })

inductive BatchResult where
  | accepted (events : List VerifiedEvent)
  | rejected (issues : List Issue)
  | failed

def maxIssues : Nat := 20

def addIssues (issues : List Issue) (index : Nat) (codes : List IssueCode) : List Issue :=
  (issues ++ codes.map (Issue.mk index)).take maxIssues

def verifiedEvent (verifier : Verifier) (event : Json) (fields : EventFields) : VerifiedEvent where
  event := event
  canonicalEvent := Api.canonicalEncode event
  eventHash := Api.recomputedHash verifier.sha256 event
  fields := fields

/-- The loop, from an index on. -/
def verifyFrom (verifier : Verifier) (lookup : String → Lookup) (index : Nat) (scan : Scan)
    (issues : List Issue) (verified : List VerifiedEvent) : List Json → BatchResult
  | [] => if issues.isEmpty then .accepted verified else .rejected issues
  | event :: events =>
      match checkFields verifier event with
      | .error code => .rejected (addIssues issues index [code])
      | .ok fields =>
          match transition lookup scan event fields with
          | none => .failed
          | some (codes, next) =>
              let found := contentIssues verifier scan event fields ++ codes
              verifyFrom verifier lookup (index + 1)
                -- the chain is followed on the submitted hash
                { next with expectedPrevious := some fields.submittedHash }
                (addIssues issues index found)
                (if found.isEmpty then verified ++ [verifiedEvent verifier event fields]
                  else verified)
                events

def verifyEvidenceEvents (verifier : Verifier) (lookup : String → Lookup)
    (firstPrevious : Option String) (events : List Json) : BatchResult :=
  verifyFrom verifier lookup 0 { expectedPrevious := firstPrevious } [] [] events

/-! ## Events that are accepted -/

/-- One event without an issue, and what is remembered after it. -/
def acceptEvent (verifier : Verifier) (lookup : String → Lookup) (scan : Scan) (event : Json) :
    Option (VerifiedEvent × Scan) :=
  match checkFields verifier event with
  | .error _ => none
  | .ok fields =>
      match transition lookup scan event fields with
      | some ([], next) =>
          if contentIssues verifier scan event fields = [] then
            some (verifiedEvent verifier event fields,
              { next with expectedPrevious := some fields.submittedHash })
          else none
      | _ => none

def acceptAll (verifier : Verifier) (lookup : String → Lookup) (scan : Scan) :
    List Json → Option (List VerifiedEvent × Scan)
  | [] => some ([], scan)
  | event :: events =>
      match acceptEvent verifier lookup scan event with
      | none => none
      | some (first, next) =>
          (acceptAll verifier lookup next events).map fun rest => (first :: rest.1, rest.2)

variable {verifier : Verifier} {lookup : String → Lookup} {scan next : Scan} {event : Json}
  {fields : EventFields}

variable {issues : List Issue} {index : Nat} {verified : List VerifiedEvent} {events : List Json}

theorem addIssues_eq_nil_iff {codes : List IssueCode} :
    addIssues issues index codes = [] ↔ issues = [] ∧ codes = [] := by
  simp [addIssues, List.take_eq_nil_iff, maxIssues]

theorem verifyFrom_cons {result : List VerifiedEvent}
    (h : verifyFrom verifier lookup index scan issues verified (event :: events) =
      .accepted result) :
    ∃ fields codes next, checkFields verifier event = .ok fields ∧
      transition lookup scan event fields = some (codes, next) ∧
      verifyFrom verifier lookup (index + 1)
        { next with expectedPrevious := some fields.submittedHash }
        (addIssues issues index (contentIssues verifier scan event fields ++ codes))
        (if (contentIssues verifier scan event fields ++ codes).isEmpty then
          verified ++ [verifiedEvent verifier event fields] else verified) events =
        .accepted result := by
  rw [verifyFrom] at h
  split at h
  · simp at h
  case h_2 fields hfields =>
    split at h
    · simp at h
    case h_2 codes next htransition => exact ⟨fields, codes, next, hfields, htransition, h⟩

/-- The loop accepts exactly if each event is accepted. -/
theorem verifyFrom_accepted_iff {result : List VerifiedEvent} :
    verifyFrom verifier lookup index scan issues verified events = .accepted result ↔
      issues = [] ∧ ∃ rest last, acceptAll verifier lookup scan events = some (rest, last) ∧
        result = verified ++ rest := by
  induction events generalizing index scan issues verified with
  | nil =>
      by_cases hissues : issues = []
      · simp [verifyFrom, acceptAll, hissues, eq_comm]
      · simp [verifyFrom, hissues]
  | cons event events ih =>
      constructor
      · intro h
        obtain ⟨fields, codes, next, hfields, htransition, hrest⟩ := verifyFrom_cons h
        obtain ⟨hissues, rest, last, haccept, rfl⟩ := ih.mp hrest
        obtain ⟨rfl, hfound⟩ := addIssues_eq_nil_iff.mp hissues
        obtain ⟨hcontent, rfl⟩ := List.append_eq_nil_iff.mp hfound
        refine ⟨rfl, verifiedEvent verifier event fields :: rest, last, ?_, by simp [hcontent]⟩
        simp [acceptAll, acceptEvent, hfields, htransition, hcontent, haccept]
      · rintro ⟨rfl, rest, last, haccept, rfl⟩
        rw [acceptAll] at haccept
        split at haccept
        · simp at haccept
        case h_2 first next hfirst =>
          obtain ⟨⟨others, last'⟩, hothers, heq⟩ := Option.map_eq_some_iff.mp haccept
          obtain ⟨rfl, rfl⟩ := Prod.mk.inj heq
          rw [acceptEvent] at hfirst
          split at hfirst
          · simp at hfirst
          case h_2 fields hfields =>
            split at hfirst
            case h_2 => simp at hfirst
            case h_1 after htransition =>
              split_ifs at hfirst with hcontent
              obtain ⟨rfl, rfl⟩ := Prod.mk.inj (Option.some.inj hfirst)
              rw [verifyFrom, hfields]
              simp only [htransition, hcontent, List.append_nil, List.isEmpty_nil, if_true]
              rw [ih]
              exact ⟨addIssues_eq_nil_iff.mpr ⟨rfl, rfl⟩, others, last', hothers, by simp⟩

theorem verifyEvidenceEvents_accepted_iff {firstPrevious : Option String} :
    verifyEvidenceEvents verifier lookup firstPrevious events = .accepted verified ↔
      ∃ last, acceptAll verifier lookup { expectedPrevious := firstPrevious } events =
        some (verified, last) := by
  rw [verifyEvidenceEvents, verifyFrom_accepted_iff]
  simp

/-! ## One event -/

theorem bind_eq_ok_iff {α β : Type} {first : Except IssueCode α} {rest : α → Except IssueCode β}
    {b : β} : (first >>= rest) = .ok b ↔ ∃ a, first = .ok a ∧ rest a = .ok b := by
  cases first <;> simp [bind, Except.bind]

theorem need_eq_ok_iff {α : Type} {code : IssueCode} {value : Option α} {a : α} :
    need code value = .ok a ↔ value = some a := by
  cases value <;> simp [need]

theorem require_eq_ok_iff {code : IssueCode} {ok : Bool} {u : Unit} :
    require code ok = .ok u ↔ ok = true := by
  cases ok <;> simp [require]

theorem getD_mem_iff {value : Option String} {texts : List String} (h : "" ∉ texts) :
    value.getD "" ∈ texts ↔ ∃ text ∈ texts, value = some text := by
  cases value <;> simp [h]

/-- An event whose fields are as they have to be. -/
structure WellTyped (verifier : Verifier) (event : Json) (fields : EventFields) : Prop where
  schemaVersion : stringField event "schema_version" = some "1"
  eventType : stringField event "event_type" = some fields.eventType
  known : fields.eventType ∈ ["decision", "outcome"]
  present : ∀ field ∈ requiredFields fields.eventType, (event.get field).isSome = true
  submittedHash : stringField event "event_hash" = some fields.submittedHash
  isHash_submittedHash : isHash fields.submittedHash = true
  signature : stringField event "signature" = some fields.signature
  eventID : stringField event "event_id" = some fields.eventID
  actionName : stringField event "action_name" = some fields.actionName
  contractHash : stringField event "contract_hash" = some fields.contractHash
  keyID : stringField event "key_id" = some fields.keyID
  eventID_size : fields.eventID ≠ "" ∧ fields.eventID.utf8ByteSize ≤ 128
  isActionName_actionName : isActionName fields.actionName = true
  isHash_contractHash : isHash fields.contractHash = true
  previousHash : previousHash event = some fields.previousHash
  timestampUTC : ∃ text, stringField event "timestamp_utc" = some text ∧
    verifier.parseTime text = some fields.timestampUTC

theorem checkFields_eq_ok_iff :
    checkFields verifier event = .ok fields ↔ WellTyped verifier event fields := by
  simp only [checkFields, bind_eq_ok_iff, need_eq_ok_iff, require_eq_ok_iff, decide_eq_true_eq,
    List.all_eq_true, Bool.and_eq_true, pure, Except.pure, Except.ok.injEq]
  constructor
  · rintro ⟨-, hversion, -, hknown, -, hpresent, hash, hhash, -, hisHash, signature, hsignature,
      eventID, heventID, actionName, hactionName, contractHash, hcontractHash, keyID, hkeyID,
      text, htext, -, hsize, -, ⟨hisName, hisContract⟩, previous, hprevious, time, htime, rfl⟩
    obtain ⟨type, -, htype⟩ := (getD_mem_iff (by decide)).mp hknown
    rw [htype, Option.getD_some] at hknown hpresent ⊢
    exact ⟨hversion, htype, hknown, hpresent, hhash, hisHash, hsignature, heventID, hactionName,
      hcontractHash, hkeyID, hsize, hisName, hisContract, hprevious, text, htext, htime⟩
  · intro h
    obtain ⟨text, htext, htime⟩ := h.timestampUTC
    have htype : (stringField event "event_type").getD "" = fields.eventType := by
      rw [h.eventType, Option.getD_some]
    rw [htype]
    exact ⟨(), h.schemaVersion, (), h.known, (), h.present, _, h.submittedHash, (),
      h.isHash_submittedHash, _, h.signature, _, h.eventID, _, h.actionName, _, h.contractHash, _,
      h.keyID, text, htext, (), h.eventID_size, (),
      ⟨h.isActionName_actionName, h.isHash_contractHash⟩, _, h.previousHash, _, htime, rfl⟩

/-- The event continues the chain and is signed. -/
structure Genuine (verifier : Verifier) (scan : Scan) (event : Json) (fields : EventFields) :
    Prop where
  previousHash : fields.previousHash = scan.expectedPrevious
  submittedHash : Api.recomputedHash verifier.sha256 event = fields.submittedHash
  keyID : fields.keyID = verifier.keyID
  signature : ∃ bytes, Text.base64Decode .std true fields.signature = some bytes ∧
    verifier.verify (verifier.sha256 (Api.canonicalEncode
      (without ["event_hash", "signature"] event))) bytes = true

theorem contentIssues_eq_nil_iff :
    contentIssues verifier scan event fields = [] ↔ Genuine verifier scan event fields := by
  have hcases : contentIssues verifier scan event fields = [] ↔
      fields.previousHash = scan.expectedPrevious ∧
      Api.recomputedHash verifier.sha256 event = fields.submittedHash ∧
      fields.keyID = verifier.keyID ∧
      ∃ bytes, Text.base64Decode .std true fields.signature = some bytes ∧
        verifier.verify (verifier.sha256 (Api.canonicalEncode
          (without ["event_hash", "signature"] event))) bytes = true := by
    simp only [contentIssues, List.append_eq_nil_iff, Api.recomputedHash, sha256Hex]
    cases Text.base64Decode .std true fields.signature with
    | none => split_ifs <;> simp_all
    | some bytes => split_ifs <;> simp_all
  rw [hcases]
  constructor
  · rintro ⟨hprevious, hhash, hkey, hsignature⟩
    exact ⟨hprevious, hhash, hkey, hsignature⟩
  · intro h
    exact ⟨h.previousHash, h.submittedHash, h.keyID, h.signature⟩

/-- A decision that is remembered. -/
def Decides (scan : Scan) (event : Json) (fields : EventFields) (next : Scan) : Prop :=
  fields.eventType = "decision" ∧ ∃ decision ∈ ["allowed", "denied"],
    stringField event "decision" = some decision ∧
    next = { scan with decisions := (fields.eventID, decision) :: scan.decisions }

/-- An outcome of a decision that was not denied and that has no outcome in the batch. -/
def Concludes (lookup : String → Lookup) (scan : Scan) (event : Json) (fields : EventFields)
    (next : Scan) : Prop :=
  fields.eventType ≠ "decision" ∧
    (∃ status ∈ ["succeeded", "failed"], stringField event "status" = some status) ∧
    ∃ id decision, stringField event "decision_event_id" = some id ∧ id ≠ "" ∧
      findDecision lookup scan id = .found decision ∧ decision ≠ "denied" ∧
      id ∉ scan.outcomesSeen ∧ next = { scan with outcomesSeen := id :: scan.outcomesSeen }

theorem transition_eq_nil_iff :
    transition lookup scan event fields = some ([], next) ↔
      Decides scan event fields next ∨ Concludes lookup scan event fields next := by
  by_cases htype : fields.eventType = "decision"
  · have hnot : ¬ Concludes lookup scan event fields next := fun h => h.1 htype
    simp only [transition, htype, if_true, hnot, or_false, Decides, true_and]
    split_ifs with hdecision
    · obtain ⟨decision, hmem, hfield⟩ := (getD_mem_iff (by decide)).mp hdecision
      simp only [hfield, Option.getD_some, Option.some.injEq, Prod.mk.injEq, true_and]
      constructor
      · intro hnext
        exact ⟨decision, hmem, rfl, hnext.symm⟩
      · rintro ⟨other, -, rfl, rfl⟩
        rfl
    · constructor
      · intro h
        simp at h
      · rintro ⟨decision, hmem, hfield, -⟩
        exact absurd ((getD_mem_iff (by decide)).mpr ⟨decision, hmem, hfield⟩) hdecision
  · have hnot : ¬ Decides scan event fields next := fun h => htype h.1
    simp only [transition, htype, if_false, hnot, false_or]
    constructor
    · intro h
      by_cases hid : (stringField event "decision_event_id").getD "" = ""
      · simp [hid] at h
      rw [if_neg hid] at h
      obtain ⟨id, hfield⟩ : ∃ id, stringField event "decision_event_id" = some id := by
        cases hfield : stringField event "decision_event_id" with
        | none => simp [hfield] at hid
        | some id => exact ⟨id, rfl⟩
      simp only [hfield, Option.getD_some] at h hid
      cases hfind : findDecision lookup scan id with
      | failed => simp [hfind] at h
      | noRows => simp [hfind] at h
      | found decision =>
          simp only [hfind] at h
          by_cases hbad : decision = "denied" ∨ id ∈ scan.outcomesSeen
          · simp [hbad] at h
          rw [if_neg hbad, Option.some.injEq, Prod.mk.injEq] at h
          have hstatus : (stringField event "status").getD "" ∈ ["succeeded", "failed"] := by
            by_contra hunknown
            simp [hunknown] at h
          obtain ⟨hdenied, hseen⟩ := not_or.mp hbad
          exact ⟨htype, (getD_mem_iff (by decide)).mp hstatus, id, decision, hfield, hid, hfind,
            hdenied, hseen, h.2.symm⟩
    · rintro ⟨-, ⟨status, hmem, hstatus⟩, id, decision, hid, hne, hfind, hdenied, hseen, rfl⟩
      have hgood : status = "succeeded" ∨ status = "failed" := by simpa using hmem
      simp [hstatus, hid, hne, hfind, hdenied, hseen, hgood]

/-- One event is accepted exactly if it is well typed, genuine and means something new. -/
theorem acceptEvent_eq_some_iff {verified : VerifiedEvent} {last : Scan} :
    acceptEvent verifier lookup scan event = some (verified, last) ↔
      ∃ fields next, WellTyped verifier event fields ∧ Genuine verifier scan event fields ∧
        (Decides scan event fields next ∨ Concludes lookup scan event fields next) ∧
        verified = verifiedEvent verifier event fields ∧
        last = { next with expectedPrevious := some fields.submittedHash } := by
  simp only [← checkFields_eq_ok_iff, ← contentIssues_eq_nil_iff, ← transition_eq_nil_iff]
  constructor
  · intro h
    rw [acceptEvent] at h
    split at h
    · simp at h
    case h_2 fields hfields =>
      split at h
      case h_2 => simp at h
      case h_1 next htransition =>
        split_ifs at h with hcontent
        obtain ⟨rfl, rfl⟩ := Prod.mk.inj (Option.some.inj h)
        exact ⟨fields, next, hfields, hcontent, htransition, rfl, rfl⟩
  · rintro ⟨fields, next, hfields, hcontent, htransition, rfl, rfl⟩
    simp [acceptEvent, hfields, htransition, hcontent]

theorem wellTyped_of_acceptAll {last : Scan}
    (h : acceptAll verifier lookup scan events = some (verified, last)) :
    ∀ event ∈ events, ∃ fields, WellTyped verifier event fields := by
  induction events generalizing scan verified last with
  | nil => simp
  | cons event events ih =>
      rw [acceptAll] at h
      split at h
      · simp at h
      case h_2 first next hfirst =>
        obtain ⟨⟨others, last'⟩, hothers, -⟩ := Option.map_eq_some_iff.mp h
        obtain ⟨fields, -, htyped, -⟩ := acceptEvent_eq_some_iff.mp hfirst
        rw [List.forall_mem_cons]
        exact ⟨⟨fields, htyped⟩, ih hothers⟩

end Evidence
end Igris
