import Igris.Sdk.Guard

/-!
# Honest evidence

The journal that guarded calls write is cut into batches, and the server verifies each
batch with the decisions of the batches before it.

Main results:

- Theorem {lit}`acceptEvent_written`: the server accepts an event of the SDK if its action
  name has the form that the server expects.
- Theorem {lit}`honest_accepted_iff`: the journal verifies locally, and its batches are
  accepted exactly if all its action names have that form.
-/

namespace Igris
namespace Sdk

open Json

variable {py : Interpreter} {identity : SigningIdentity} {parseTime : String → Option Int}

/-! ## The server's view -/

/-- The server verifies with the key and the digest that the SDK signs with. -/
def verifierOf (identity : SigningIdentity) (parseTime : String → Option Int) :
    Evidence.Verifier where
  sha256 := identity.sha256
  verify := identity.verify
  keyID := identity.keyID
  parseTime := parseTime

/-- The decision that is stored for an event id. -/
def storedLookup (earlier : List Json) (eventID : String) : Evidence.Lookup :=
  match earlier.find? fun event =>
    decide (Evidence.stringField event "event_id" = some eventID ∧
      Evidence.stringField event "event_type" = some "decision") with
  | none => .noRows
  | some event => .found ((Evidence.stringField event "decision").getD "")

/-- Batches that are accepted one after the other. -/
def AllAccepted (verifier : Evidence.Verifier) (earlier : List Json) : List (List Json) → Prop
  | [] => True
  | batch :: batches =>
      (∃ verified, Evidence.verifyEvidenceEvents verifier (storedLookup earlier)
        (lastHash earlier) batch = .accepted verified) ∧
      AllAccepted verifier (earlier ++ batch) batches

/-- The action name has the form that the server expects. -/
def HasActionName (event : Json) : Prop :=
  ∃ name, Evidence.stringField event "action_name" = some name ∧
    Evidence.isActionName name = true

/-! ## Fields of written events -/

theorem isHash_hexEncode {digest : List UInt8} (h : digest.length = 32) :
    Evidence.isHash (Text.hexEncode digest) = true := by
  have hlength : (Text.hexEncode digest).toList.length = 64 := by
    simp [Text.hexEncode, List.length_flatMap, h]
  have hdigit : ∀ n < 16, (Evidence.isDigitChar (Text.hexDigit n) ||
      (decide ('a' ≤ Text.hexDigit n) && decide (Text.hexDigit n ≤ 'f'))) = true := by
    decide
  rw [Evidence.isHash, Bool.and_eq_true, decide_eq_true_eq, List.all_eq_true]
  refine ⟨hlength, ?_⟩
  intro c hc
  obtain ⟨n, hn, rfl⟩ := Text.exists_of_mem_hexEncode hc
  exact hdigit n hn

/-- What does not depend on the action name: the hash of the contract, the id and the time. -/
structure Stamped (parseTime : String → Option Int) (draft : EventDraft py) : Prop where
  contractHash : Evidence.isHash draft.contractHash = true
  eventID : draft.eventID ≠ "" ∧ draft.eventID.utf8ByteSize ≤ 128
  timestampUTC : ∃ time, parseTime draft.timestampUTC = some time

namespace EventDraft

variable (draft : EventDraft py) (identity : SigningIdentity) (previous : Option String)

/-- The fields that the server reads. -/
def serverFields (time : Int) : Evidence.EventFields where
  eventType := draft.evidence.eventType
  submittedHash := Text.hexEncode (draft.digest identity previous)
  signature := Text.base64Encode (identity.sign (draft.digest identity previous))
  eventID := draft.eventID
  actionName := draft.actionName
  contractHash := draft.contractHash
  keyID := identity.keyID
  previousHash := previous
  timestampUTC := time

theorem stringField_event (key : String) :
    Evidence.stringField (draft.event identity previous) key =
      (((draft.signedFields identity previous).lookup key).join).bind asString := by
  rw [Evidence.stringField, get_event]

theorem stringField_eventType :
    Evidence.stringField (draft.event identity previous) "event_type" =
      some draft.evidence.eventType := by
  rw [stringField_event]
  rfl

theorem stringField_eventID :
    Evidence.stringField (draft.event identity previous) "event_id" = some draft.eventID := by
  rw [stringField_event]
  rfl

theorem stringField_actionName :
    Evidence.stringField (draft.event identity previous) "action_name" =
      some draft.actionName := by
  rw [stringField_event]
  rfl

theorem isSome_required :
    ∀ field ∈ Evidence.requiredFields draft.evidence.eventType,
      ((draft.event identity previous).get field).isSome = true := by
  simp only [get_event]
  cases draft using byKind <;>
    simp [Evidence.requiredFields, Evidence.eventType, Evidence.sharedRequiredFields,
      signedFields, fields, Evidence.extraFields, List.lookup_cons]

theorem wellTyped_event {draft : EventDraft py} {time : Int} (hstamped : Stamped parseTime draft)
    (hname : Evidence.isActionName draft.actionName = true)
    (htime : parseTime draft.timestampUTC = some time) :
    Evidence.WellTyped (verifierOf identity parseTime) (draft.event identity previous)
      (draft.serverFields identity previous time) where
  schemaVersion := by
    rw [stringField_event]
    rfl
  eventType := draft.stringField_eventType identity previous
  known := by
    rw [serverFields]
    cases draft.evidence <;> simp [Evidence.eventType]
  present := draft.isSome_required identity previous
  submittedHash := by
    rw [Evidence.stringField, get_eventHash]
    rfl
  isHash_submittedHash := isHash_hexEncode (identity.length_sha256 _)
  signature := by
    rw [Evidence.stringField, get_signature]
    rfl
  eventID := draft.stringField_eventID identity previous
  actionName := draft.stringField_actionName identity previous
  contractHash := by
    rw [stringField_event]
    rfl
  keyID := by
    rw [stringField_event]
    rfl
  eventID_size := hstamped.eventID
  isActionName_actionName := hname
  isHash_contractHash := hstamped.contractHash
  previousHash := by
    have hget : (draft.event identity previous).get "previous_event_hash" =
        some (previousValue previous) := draft.previousField_event identity previous
    rw [Evidence.previousHash, hget]
    cases previous <;> rfl
  timestampUTC := by
    refine ⟨draft.timestampUTC, ?_, htime⟩
    rw [stringField_event]
    rfl

theorem genuine_event {draft : EventDraft py} {time : Int} {scan : Evidence.Scan}
    (hprevious : scan.expectedPrevious = previous)
    (hfree : SeparatorFree (unsignedPayload (draft.event identity previous))) :
    Evidence.Genuine (verifierOf identity parseTime) scan (draft.event identity previous)
      (draft.serverFields identity previous time) := by
  have hnormal : normal (unsignedPayload (draft.event identity previous)) =
      unsignedPayload (draft.event identity previous) := by
    rw [unsignedPayload_event]
    exact Ordered.normal (ordered_objectOf fun key value h =>
      (draft.writable_signedFields identity previous (key, some value)
        (List.mem_append_left _ h)).1)
  -- the digest that the server recomputes is the one that was signed
  have hdigest : identity.sha256 (Api.canonicalEncode
      (without ["event_hash", "signature"] (draft.event identity previous))) =
      draft.digest identity previous := by
    have hencode := (canonicalEncode_normal_iff _).mpr (hnormal.symm ▸ hfree)
    rw [hnormal] at hencode
    rw [unsignedPayload] at hencode
    rw [hencode, digest, ← unsignedPayload_event]
    rfl
  refine ⟨hprevious.symm, ?_, rfl, identity.sign (draft.digest identity previous), ?_, ?_⟩
  · exact congrArg Text.hexEncode hdigest
  · exact Text.base64Decode_base64Encode _
  · show identity.verify (identity.sha256 _) _ = true
    rw [hdigest]
    exact identity.verify_sign _

end EventDraft

/-! ## Decisions and outcomes -/

def decisionText (allowed : Bool) : String := if allowed then "allowed" else "denied"

variable {allowed : Bool} {done before : List (EventDraft py)} {hash : Option String}
  {pending : List PendingCall}

namespace EventDraft

variable {draft : EventDraft py} {previous : Option String}

theorem eventType_of_decided (h : draft.decided = some allowed) :
    draft.evidence.eventType = "decision" := by
  cases draft using byKind with
  | decision => rfl
  | succeeded => simp [decided] at h
  | failed => simp [decided] at h

theorem stringField_decision (h : draft.decided = some allowed) :
    Evidence.stringField (draft.event identity previous) "decision" =
      some (decisionText allowed) := by
  rw [stringField_event]
  cases draft using byKind with
  | decision =>
      obtain rfl := Option.some.inj h
      rfl
  | succeeded | failed => simp [decided] at h

theorem fields_of_concluded (identity : SigningIdentity) (previous : Option String) {id : String}
    (h : draft.concluded = some id) :
    draft.evidence.eventType ≠ "decision" ∧
      (∃ status ∈ ["succeeded", "failed"],
        Evidence.stringField (draft.event identity previous) "status" = some status) ∧
      Evidence.stringField (draft.event identity previous) "decision_event_id" = some id := by
  simp only [stringField_event]
  cases draft using byKind with
  | decision => simp [concluded] at h
  | succeeded | failed =>
      obtain rfl := Option.some.inj h
      exact ⟨by simp [Evidence.eventType], ⟨_, by simp, rfl⟩, rfl⟩

theorem decided_or_concluded (draft : EventDraft py) :
    (∃ allowed, draft.decided = some allowed ∧ draft.concluded = none) ∨
      ∃ id, draft.concluded = some id ∧ draft.decided = none := by
  cases draft using byKind with
  | decision => exact .inl ⟨_, rfl, rfl⟩
  | succeeded => exact .inr ⟨_, rfl, rfl⟩
  | failed => exact .inr ⟨_, rfl, rfl⟩

end EventDraft

/-- What the server remembers after the drafts of a batch. -/
structure ScanOf (done : List (EventDraft py)) (previous : Option String) (scan : Evidence.Scan) :
    Prop where
  expectedPrevious : scan.expectedPrevious = previous
  decisions : ∀ id value, scan.decisions.lookup id = some value →
    ∃ draft ∈ done, draft.eventID = id ∧ draft.decided.map decisionText = some value
  remembered : ∀ draft ∈ done, draft.decided ≠ none → scan.decisions.lookup draft.eventID ≠ none
  outcomesSeen : ∀ id ∈ scan.outcomesSeen, ∃ draft ∈ done, draft.concluded = some id

theorem ScanOf.nil (previous : Option String) :
    ScanOf ([] : List (EventDraft py)) previous { expectedPrevious := previous } where
  expectedPrevious := rfl
  decisions := by simp
  remembered := by simp
  outcomesSeen := by simp

variable {draft : EventDraft py} {scan : Evidence.Scan} {previous : Option String}

theorem ScanOf.decide {previous : Option String} (h : ScanOf done previous scan)
    (hdecided : draft.decided = some allowed) :
    ScanOf (done ++ [draft]) hash
      { scan with
        decisions := (draft.eventID, decisionText allowed) :: scan.decisions
        expectedPrevious := hash } where
  expectedPrevious := rfl
  decisions := by
    intro id value hlookup
    by_cases hid : id = draft.eventID
    · subst hid
      rw [List.lookup_cons_self, Option.some.injEq] at hlookup
      exact ⟨draft, by simp, rfl, by simp [hdecided, hlookup]⟩
    · have hbeq : (id == draft.eventID) = false := by simpa using hid
      rw [List.lookup_cons, hbeq] at hlookup
      obtain ⟨other, hother, hsame⟩ := h.decisions id value hlookup
      exact ⟨other, List.mem_append_left _ hother, hsame⟩
  remembered := by
    intro other hother hdecision
    rw [List.lookup_cons]
    split
    · simp
    · obtain hbefore | hnew := List.mem_append.mp hother
      · exact h.remembered other hbefore hdecision
      · obtain rfl := List.mem_singleton.mp hnew
        simp_all
  outcomesSeen := by
    intro id hid
    obtain ⟨other, hother, hsame⟩ := h.outcomesSeen id hid
    exact ⟨other, List.mem_append_left _ hother, hsame⟩

theorem ScanOf.conclude {previous : Option String} (h : ScanOf done previous scan) {id : String}
    (hconcluded : draft.concluded = some id) (hdecided : draft.decided = none) :
    ScanOf (done ++ [draft]) hash
      { scan with outcomesSeen := id :: scan.outcomesSeen, expectedPrevious := hash } where
  expectedPrevious := rfl
  decisions := by
    intro other value hlookup
    obtain ⟨found, hfound, hsame⟩ := h.decisions other value hlookup
    exact ⟨found, List.mem_append_left _ hfound, hsame⟩
  remembered := by
    intro other hother hdecision
    obtain hbefore | hnew := List.mem_append.mp hother
    · exact h.remembered other hbefore hdecision
    · obtain rfl := List.mem_singleton.mp hnew
      exact absurd hdecided hdecision
  outcomesSeen := by
    intro other hother
    obtain rfl | hseen := List.mem_cons.mp hother
    · exact ⟨draft, by simp, hconcluded⟩
    · obtain ⟨found, hfound, hsame⟩ := h.outcomesSeen other hseen
      exact ⟨found, List.mem_append_left _ hfound, hsame⟩

theorem mem_written {drafts : List (EventDraft py)} {event : Json}
    (h : event ∈ written identity previous drafts) :
    ∃ draft ∈ drafts, ∃ hash, event = draft.event identity hash := by
  induction drafts generalizing previous with
  | nil => simp [written] at h
  | cons draft drafts ih =>
      obtain rfl | hrest := List.mem_cons.mp h
      · exact ⟨draft, List.mem_cons_self, previous, rfl⟩
      · obtain ⟨other, hother, hevent⟩ := ih hrest
        exact ⟨other, List.mem_cons_of_mem _ hother, hevent⟩

theorem exists_mem_written (identity : SigningIdentity) (previous : Option String)
    {drafts : List (EventDraft py)} (h : draft ∈ drafts) :
    ∃ hash, draft.event identity hash ∈ written identity previous drafts := by
  induction drafts generalizing previous with
  | nil => simp at h
  | cons first drafts ih =>
      obtain rfl | hrest := List.mem_cons.mp h
      · exact ⟨previous, List.mem_cons_self⟩
      · obtain ⟨hash, hmem⟩ := ih (storedHash (first.event identity previous)) hrest
        exact ⟨hash, List.mem_cons_of_mem _ hmem⟩

/-- The server finds the decision of an earlier batch. -/
theorem storedLookup_written (hids : (before.map EventDraft.eventID).Nodup)
    {decision : EventDraft py} (hmem : decision ∈ before)
    (hdecided : decision.decided = some true) :
    storedLookup (written identity none before) decision.eventID = .found "allowed" := by
  rw [storedLookup]
  split
  case h_1 hfind =>
    obtain ⟨hash, hevent⟩ := exists_mem_written identity none hmem
    have hnot := List.find?_eq_none.mp hfind _ hevent
    rw [decide_eq_true_eq, decision.stringField_eventID, decision.stringField_eventType,
      EventDraft.eventType_of_decided hdecided] at hnot
    exact absurd ⟨rfl, rfl⟩ hnot
  case h_2 event hfind =>
    obtain ⟨draft, hdraft, hash, rfl⟩ := mem_written (List.mem_of_find?_eq_some hfind)
    have hfound := List.find?_some hfind
    rw [decide_eq_true_eq, draft.stringField_eventID, Option.some.injEq] at hfound
    -- ids are unique, so it is the decision itself
    obtain rfl := List.inj_on_of_nodup_map hids hdraft hmem hfound.1
    rw [EventDraft.stringField_decision hdecided]
    rfl

theorem findDecision_of_honest (hhonest : Honest (before ++ done ++ [draft]))
    (hscan : ScanOf done previous scan) {id : String} (hconcluded : draft.concluded = some id) :
    Evidence.findDecision (storedLookup (written identity none before)) scan id =
      .found "allowed" := by
  obtain ⟨⟨decision, hdecision, rfl, hdecided⟩, -⟩ :=
    hhonest.concluded (before ++ done) draft [] rfl id hconcluded
  have hids : ((before ++ done).map EventDraft.eventID).Nodup :=
    hhonest.ids_nodup.sublist ((List.sublist_append_left _ _).map _)
  rw [Evidence.findDecision]
  cases hlookup : scan.decisions.lookup decision.eventID with
  | some value =>
      obtain ⟨other, hother, hid, hvalue⟩ := hscan.decisions _ _ hlookup
      obtain rfl := List.inj_on_of_nodup_map hids (List.mem_append_right _ hother) hdecision hid
      rw [hdecided] at hvalue
      exact congrArg Evidence.Lookup.found (Option.some.inj hvalue).symm
  | none =>
      obtain hbefore | hdone := List.mem_append.mp hdecision
      · exact storedLookup_written (hids.sublist ((List.sublist_append_left _ _).map _)) hbefore
          hdecided
      · exact absurd hlookup (hscan.remembered decision hdone (by simp [hdecided]))

/-! ## Batches -/

/-- An event of an honest history is accepted after the drafts before it. -/
theorem acceptEvent_written (hhonest : Honest (before ++ done ++ [draft]))
    (hscan : ScanOf done previous scan)
    (hstamped : ∀ other ∈ before ++ done ++ [draft], Stamped parseTime other)
    (hname : Evidence.isActionName draft.actionName = true)
    (hfree : SeparatorFree (unsignedPayload (draft.event identity previous))) :
    ∃ verified next, Evidence.acceptEvent (verifierOf identity parseTime)
        (storedLookup (written identity none before)) scan (draft.event identity previous) =
          some (verified, next) ∧
      ScanOf (done ++ [draft]) (storedHash (draft.event identity previous)) next := by
  have hself := hstamped draft (by simp)
  obtain ⟨time, htime⟩ := hself.timestampUTC
  have htyped := EventDraft.wellTyped_event identity previous hself hname htime
  have hgenuine : Evidence.Genuine (verifierOf identity parseTime) scan _
      (draft.serverFields identity previous time) :=
    EventDraft.genuine_event identity previous hscan.expectedPrevious hfree
  have hhash := draft.storedHash_event identity previous
  obtain ⟨allowed, hdecided, -⟩ | ⟨id, hconcluded, hdecided⟩ := draft.decided_or_concluded
  · have hdecides : Evidence.Decides scan (draft.event identity previous)
        (draft.serverFields identity previous time)
        { scan with decisions := (draft.eventID, decisionText allowed) :: scan.decisions } :=
      ⟨EventDraft.eventType_of_decided hdecided, decisionText allowed,
        by cases allowed <;> simp [decisionText], EventDraft.stringField_decision hdecided, rfl⟩
    refine ⟨_, _, Evidence.acceptEvent_eq_some_iff.mpr
      ⟨_, _, htyped, hgenuine, .inl hdecides, rfl, rfl⟩, ?_⟩
    rw [hhash]
    exact hscan.decide hdecided
  · obtain ⟨htype, hstatus, hfield⟩ :=
      EventDraft.fields_of_concluded identity previous hconcluded
    obtain ⟨⟨decision, hdecision, hid, -⟩, hopen⟩ :=
      hhonest.concluded (before ++ done) draft [] rfl id hconcluded
    have hne : id ≠ "" := hid ▸ (hstamped decision (List.mem_append_left _ hdecision)).eventID.1
    have hunseen : id ∉ scan.outcomesSeen := by
      intro hseen
      obtain ⟨other, hother, hsame⟩ := hscan.outcomesSeen id hseen
      exact hopen other (List.mem_append_right _ hother) hsame
    have hconcludes : Evidence.Concludes (storedLookup (written identity none before)) scan
        (draft.event identity previous) (draft.serverFields identity previous time)
        { scan with outcomesSeen := id :: scan.outcomesSeen } :=
      ⟨htype, hstatus, id, "allowed", hfield, hne,
        findDecision_of_honest hhonest hscan hconcluded, by decide, hunseen, rfl⟩
    refine ⟨_, _, Evidence.acceptEvent_eq_some_iff.mpr
      ⟨_, _, htyped, hgenuine, .inr hconcludes, rfl, rfl⟩, ?_⟩
    rw [hhash]
    exact hscan.conclude hconcluded hdecided

theorem Honest.of_beginning {a b : List (EventDraft py)} (h : Honest (a ++ b)) : Honest a where
  ids_nodup := h.ids_nodup.sublist ((List.sublist_append_left _ _).map _)
  concluded before draft after heq := h.concluded before draft (after ++ b) (by simp [heq])

/-- The rest of a batch is accepted. -/
theorem acceptAll_written {batch : List (EventDraft py)}
    (hhonest : Honest (before ++ done ++ batch)) (hscan : ScanOf done previous scan)
    (hstamped : ∀ draft ∈ before ++ done ++ batch, Stamped parseTime draft)
    (hname : ∀ draft ∈ batch, Evidence.isActionName draft.actionName = true)
    (hfree : ∀ event ∈ written identity previous batch, SeparatorFree (unsignedPayload event)) :
    ∃ verified last, Evidence.acceptAll (verifierOf identity parseTime)
      (storedLookup (written identity none before)) scan (written identity previous batch) =
        some (verified, last) := by
  induction batch generalizing done previous scan with
  | nil => exact ⟨[], scan, rfl⟩
  | cons draft batch ih =>
      have hassoc : before ++ done ++ draft :: batch = before ++ (done ++ [draft]) ++ batch := by
        simp
      rw [hassoc] at hhonest hstamped
      rw [written, List.forall_mem_cons] at hfree
      rw [List.forall_mem_cons] at hname
      have hfirst : Honest (before ++ done ++ [draft]) := by
        have hbeginning := hhonest.of_beginning
        rwa [← List.append_assoc] at hbeginning
      have hstampedFirst : ∀ other ∈ before ++ done ++ [draft], Stamped parseTime other := by
        intro other hother
        exact hstamped other (List.mem_append_left _ (by simpa using hother))
      obtain ⟨verified, next, haccept, hnext⟩ :=
        acceptEvent_written hfirst hscan hstampedFirst hname.1 hfree.1
      obtain ⟨others, last, hrest⟩ := ih hhonest hnext hstamped hname.2 hfree.2
      exact ⟨verified :: others, last, by simp [written, Evidence.acceptAll, haccept, hrest]⟩

theorem hasActionName_event :
    HasActionName (draft.event identity hash) ↔ Evidence.isActionName draft.actionName = true := by
  simp [HasActionName, draft.stringField_actionName]

/-- The batches of the rest of a journal are accepted exactly if its names are. -/
theorem allAccepted_iff {rest : List (EventDraft py)} (hhonest : Honest (before ++ rest))
    (hstamped : ∀ draft ∈ before ++ rest, Stamped parseTime draft) {batches : List (List Json)}
    (hbatches : batches.flatten =
      written identity (HashChain.tip storedHash none (written identity none before)) rest)
    (hfree : ∀ event ∈ batches.flatten, SeparatorFree (unsignedPayload event)) :
    AllAccepted (verifierOf identity parseTime) (written identity none before) batches ↔
      ∀ event ∈ batches.flatten, HasActionName event := by
  induction batches generalizing before rest with
  | nil => simp [AllAccepted]
  | cons batch batches ih =>
      rw [List.flatten_cons, List.forall_mem_append] at hfree
      rw [List.flatten_cons] at hbatches
      obtain ⟨drafts, others, rfl, hbatch, hothers⟩ := written_eq_append hbatches.symm
      have hearlier : written identity none before ++ batch =
          written identity none (before ++ drafts) := by
        rw [written_append, hbatch]
      rw [← List.append_assoc] at hhonest hstamped
      have hrest := ih hhonest hstamped (by rw [hothers, ← hearlier, HashChain.tip_append]) hfree.2
      rw [List.flatten_cons, List.forall_mem_append, AllAccepted, hearlier, hrest]
      refine and_congr_left' ?_
      simp only [Evidence.verifyEvidenceEvents_accepted_iff]
      constructor
      · rintro ⟨verified, last, haccept⟩ event hevent
        obtain ⟨fields, htyped⟩ := Evidence.wellTyped_of_acceptAll haccept event hevent
        exact ⟨fields.actionName, htyped.actionName, htyped.isActionName_actionName⟩
      · intro hnames
        have hname : ∀ draft ∈ drafts, Evidence.isActionName draft.actionName = true := by
          intro draft hdraft
          obtain ⟨hash, hmem⟩ := exists_mem_written identity
            (HashChain.tip storedHash none (written identity none before)) hdraft
          exact hasActionName_event.mp (hnames _ (hbatch ▸ hmem))
        have hbatchHonest : Honest (before ++ [] ++ drafts) := by
          simpa using hhonest.of_beginning
        have hbatchStamped : ∀ draft ∈ before ++ [] ++ drafts, Stamped parseTime draft := by
          intro draft hdraft
          exact hstamped draft (List.mem_append_left _ (by simpa using hdraft))
        rw [hbatch] at hfree ⊢
        rw [lastHash_eq_tip]
        exact acceptAll_written hbatchHonest (.nil _) hbatchStamped hname hfree.1

/-! ## Guarded calls -/

theorem isHash_contractHash {target : TargetFunction} {action : Option String}
    {risk approval : String} {contract : ActionContract}
    (h : buildContract identity.sha256 target action risk approval = .ok contract) :
    Evidence.isHash contract.contractHash = true := by
  unfold buildContract at h
  split_ifs at h
  obtain rfl := Except.ok.inj h
  exact isHash_hexEncode (identity.length_sha256 _)

theorem stamped_draft {step : GuardStep py}
    (hpending : ∀ running ∈ pending, Evidence.isHash running.contract.contractHash = true)
    (hsize : step.stamp.eventID ≠ "" ∧ step.stamp.eventID.utf8ByteSize ≤ 128)
    (htime : ∃ time, parseTime step.stamp.timestampUTC = some time)
    (h : step.draft identity.sha256 pending = some draft) : Stamped parseTime draft := by
  cases step with
  | call guarded stamp =>
      rw [GuardStep.draft] at h
      split at h
      case h_1 contract allowed hcontract hallowed =>
        obtain rfl := Option.some.inj h
        exact ⟨isHash_contractHash hcontract, hsize, htime⟩
      case h_2 => simp at h
  | finish position result stamp =>
      obtain ⟨running, hget, rfl⟩ := Option.map_eq_some_iff.mp h
      exact ⟨hpending running (List.mem_of_getElem? hget), hsize, htime⟩

theorem isHash_pendingAfter {step : GuardStep py} {recorded : Bool}
    (hpending : ∀ running ∈ pending, Evidence.isHash running.contract.contractHash = true) :
    ∀ running ∈ step.pendingAfter identity.sha256 pending recorded,
      Evidence.isHash running.contract.contractHash = true := by
  cases step with
  | call guarded stamp =>
      rw [GuardStep.pendingAfter]
      split
      case h_1 contract hcontract hallowed =>
        split_ifs
        · rw [List.forall_mem_append, List.forall_mem_singleton]
          exact ⟨hpending, isHash_contractHash hcontract⟩
        · exact hpending
      case h_2 => exact hpending
  | finish position result stamp =>
      intro running hrunning
      exact hpending running ((List.eraseIdx_sublist _ _).subset hrunning)

/-- Whatever a guarded call records carries the hash of its contract, and its own stamp. -/
theorem stamped_of_recorded {steps : List (GuardStep py)}
    (hpending : ∀ running ∈ pending, Evidence.isHash running.contract.contractHash = true)
    (hsize : ∀ step ∈ steps, step.stamp.eventID ≠ "" ∧ step.stamp.eventID.utf8ByteSize ≤ 128)
    (htime : ∀ step ∈ steps, ∃ time, parseTime step.stamp.timestampUTC = some time) :
    ∀ draft ∈ (recordedFrom identity.sha256 pending steps).1, Stamped parseTime draft := by
  induction steps generalizing pending with
  | nil => simp [recordedFrom]
  | cons step steps ih =>
      rw [List.forall_mem_cons] at hsize htime
      rw [recordedFrom, List.forall_mem_append]
      refine ⟨?_, ih (isHash_pendingAfter hpending) hsize.2 htime.2⟩
      intro draft hdraft
      exact stamped_draft hpending hsize.1 htime.1 (Option.mem_toList.mp hdraft)

theorem recorded_accepted_iff {steps : List (GuardStep py)}
    (hids : (steps.map fun step => step.stamp.eventID).Nodup)
    (hsize : ∀ step ∈ steps, step.stamp.eventID ≠ "" ∧ step.stamp.eventID.utf8ByteSize ≤ 128)
    (htime : ∀ step ∈ steps, ∃ time, parseTime step.stamp.timestampUTC = some time)
    {batches : List (List Json)}
    (hbatches : batches.flatten =
      written identity none (recordedFrom identity.sha256 [] steps).1)
    (hfree : ∀ event ∈ batches.flatten, SeparatorFree (unsignedPayload event)) :
    AllAccepted (verifierOf identity parseTime) [] batches ↔
      ∀ event ∈ batches.flatten, HasActionName event := by
  have hhonest : Honest ([] ++ (recordedFrom identity.sha256 [] steps).1) :=
    honest_of_recorded .nil .nil (by simpa using hids)
  have hstamped : ∀ draft ∈ [] ++ (recordedFrom identity.sha256 [] steps).1,
      Stamped parseTime draft := stamped_of_recorded (by simp) hsize htime
  exact allAccepted_iff hhonest hstamped hbatches hfree

/-- The journal of guarded calls verifies.  If both encoders agree on it, then the server
accepts all batches that it is cut into exactly if all action names have the form that the
server expects. -/
theorem honest_accepted_iff (py : Interpreter) (identity : SigningIdentity)
    (parseTime : String → Option Int) (steps : List (GuardStep py))
    (hids : (steps.map fun step => step.stamp.eventID).Nodup)
    (hsize : ∀ step ∈ steps, step.stamp.eventID ≠ "" ∧ step.stamp.eventID.utf8ByteSize ≤ 128)
    (htime : ∀ step ∈ steps, ∃ time, parseTime step.stamp.timestampUTC = some time) :
    ∃ events, loadJournalSnapshot py identity (guardAfter identity steps).file =
        .ok ⟨events, events.length, []⟩ ∧
      ∀ batches, batches.flatten = events →
        (∀ event ∈ events, SeparatorFree (unsignedPayload event)) →
        (AllAccepted (verifierOf identity parseTime) [] batches ↔
          ∀ event ∈ events, HasActionName event) := by
  refine ⟨written identity none (recordedFrom identity.sha256 [] steps).1, ?_, ?_⟩
  · rw [guardAfter_journal]
    exact (complete_written _).load
  · intro batches hbatches hfree
    rw [← hbatches] at hfree ⊢
    exact recorded_accepted_iff hids hsize htime hbatches hfree

/-! ## A function that is called and returns -/

/-- An identity whose digests are all the same. -/
def zeroIdentity : SigningIdentity where
  keyID := "key"
  sha256 := fun _ => List.replicate 32 0
  length_sha256 := by simp
  sign := id
  verify := fun digest signature => decide (signature = digest)
  verify_sign := verify_digest

/-- A function of a module, guarded without an explicit name. -/
def sampleCall (moduleName : String) : GuardedCall samplePython where
  target := ⟨some moduleName, some "transfer", some "transfer", true, [], none⟩
  action := none
  risk := "low"
  approval := "never"
  metadata := none
  redactedInputSummary := "s"
  inputHash := "i"
  verdict := none

def sampleSteps (moduleName : String) : List (GuardStep samplePython) :=
  [.call (sampleCall moduleName) ⟨"e1", "t1"⟩, .finish 0 (.succeeded "int" none) ⟨"e2", "t2"⟩]

/-- The journal of these steps. -/
def sampleEvents (moduleName : String) : List Json :=
  written zeroIdentity none (recordedFrom zeroIdentity.sha256 [] (sampleSteps moduleName)).1

theorem separatorFree_of_ascii {value : Json}
    (h : ((texts value).all fun text => text.toList.all fun c => decide (c.toNat < 128)) = true) :
    SeparatorFree value := by
  intro text htext c hc hseparator
  have hall := List.all_eq_true.mp (List.all_eq_true.mp h text htext) c hc
  simp only [decide_eq_true_eq] at hall
  simp only [List.mem_cons, List.not_mem_nil, or_false] at hseparator
  omega

theorem separatorFree_sampleEvents {moduleName : String}
    (h : ((sampleEvents moduleName).all fun event => (texts (unsignedPayload event)).all
      fun text => text.toList.all fun c => decide (c.toNat < 128)) = true) :
    ∀ event ∈ sampleEvents moduleName, SeparatorFree (unsignedPayload event) :=
  fun event hevent => separatorFree_of_ascii (List.all_eq_true.mp h event hevent)

theorem load_sampleEvents (moduleName : String) :
    loadJournalSnapshot samplePython zeroIdentity
      (guardAfter zeroIdentity (sampleSteps moduleName)).file =
        .ok ⟨sampleEvents moduleName, (sampleEvents moduleName).length, []⟩ := by
  rw [guardAfter_journal]
  exact (complete_written _).load

/-- In a module with a usual name, both events are accepted, each in its own batch. -/
theorem sampleSteps_accepted :
    ∃ events, loadJournalSnapshot samplePython zeroIdentity
        (guardAfter zeroIdentity (sampleSteps "ops")).file = .ok ⟨events, events.length, []⟩ ∧
      AllAccepted (verifierOf zeroIdentity fun _ => some 0) [] [events.take 1, events.drop 1] := by
  obtain ⟨events, hload, hall⟩ := honest_accepted_iff samplePython zeroIdentity (fun _ => some 0)
    (sampleSteps "ops") (by decide) (by decide) (fun _ _ => ⟨0, rfl⟩)
  have hevents : sampleEvents "ops" = events := by
    have hsame := Except.ok.inj ((load_sampleEvents "ops").symm.trans hload)
    exact congrArg JournalSnapshot.events hsame
  have hsplit : [events.take 1, events.drop 1].flatten = events := by
    rw [List.flatten_cons, List.flatten_singleton, List.take_append_drop]
  refine ⟨events, hload, (hall _ hsplit ?_).mpr ?_⟩
  · rw [← hevents]
    exact separatorFree_sampleEvents (by decide +kernel)
  · rw [← hevents]
    intro event hevent
    obtain ⟨draft, hdraft, hash, rfl⟩ := mem_written hevent
    have hnames : ∀ draft ∈ (recordedFrom zeroIdentity.sha256 [] (sampleSteps "ops")).1,
        Evidence.isActionName draft.actionName = true := by decide +kernel
    exact hasActionName_event.mpr (hnames draft hdraft)

/-- A function of the main module: its derived name starts with an underscore. -/
theorem derived_name_rejected :
    ∃ events, loadJournalSnapshot samplePython zeroIdentity
        (guardAfter zeroIdentity (sampleSteps "__main__")).file =
          .ok ⟨events, events.length, []⟩ ∧
      (∀ event ∈ events, SeparatorFree (unsignedPayload event)) ∧
      ¬ AllAccepted (verifierOf zeroIdentity fun _ => some 0) [] [events] := by
  have hfree : ∀ event ∈ sampleEvents "__main__", SeparatorFree (unsignedPayload event) :=
    separatorFree_sampleEvents (by decide +kernel)
  refine ⟨sampleEvents "__main__", load_sampleEvents "__main__", hfree, ?_⟩
  intro hall
  have hids : ((sampleSteps "__main__").map fun step => step.stamp.eventID).Nodup := by decide
  have hnames := (recorded_accepted_iff hids (by decide) (fun _ _ => ⟨0, rfl⟩)
    List.flatten_singleton (by rw [List.flatten_singleton]; exact hfree)).mp hall
  obtain ⟨draft, hdraft, hname⟩ :
      ∃ draft ∈ (recordedFrom zeroIdentity.sha256 [] (sampleSteps "__main__")).1,
        Evidence.isActionName draft.actionName = false := by decide +kernel
  obtain ⟨hash, hmem⟩ := exists_mem_written zeroIdentity none hdraft
  rw [List.flatten_singleton] at hnames
  have hgood := hasActionName_event.mp (hnames _ hmem)
  simp [hname] at hgood

end Sdk
end Igris
