import Igris.Sdk.JournalCrash

/-!
# Tampering with a journal

Verification accepts events that continue each other and that the owner of the key signed.
It cannot tell a journal from a longer one, or from another journal of the same owner.

Main results:

- Theorem {lit}`Authentic.eq_of_followed_eq`: two signed events with one hash are the same.
- Theorem {lit}`tampered_not_verified`: if the owner signed nothing else that continues a
  journal, then only its beginnings verify.
-/

namespace Igris
namespace Sdk

open Json

variable {py : Interpreter} {identity : SigningIdentity} {owned : Json → Prop}

/-- The signature of the event is the one that the owner made for its payload.  The owner
signed the payloads that are {lit}`owned`. -/
def OwnerSigned (identity : SigningIdentity) (owned : Json → Prop) (event : Json) : Prop :=
  owned (unsignedPayload event) ∧
    ∃ text, canonicalJsonBytes (unsignedPayload event) = some text ∧
      event.get "signature" = some (.string (Text.base64Encode (identity.sign (identity.sha256 text))))

/-- The signature verifies for the payload of the event. -/
def SignatureVerifies (py : Interpreter) (identity : SigningIdentity) (event : Json) : Prop :=
  ∃ text, canonicalJsonBytes (unsignedPayload event) = some text ∧
    verifySignature identity (identity.sha256 text) (signatureText py event) = true

/-- No signature that verifies was made by anyone but the owner. -/
def Unforged (py : Interpreter) (identity : SigningIdentity) (owned : Json → Prop)
    (events : List Json) : Prop :=
  ∀ event ∈ events, SignatureVerifies py identity event → OwnerSigned identity owned event

/-- No two payloads of the events have the same digest. -/
def CollisionFree (identity : SigningIdentity) (events : List Json) : Prop :=
  ∀ event ∈ events, ∀ other ∈ events,
    identity.sha256 (canonicalText (unsignedPayload event)) =
      identity.sha256 (canonicalText (unsignedPayload other)) →
    canonicalText (unsignedPayload event) = canonicalText (unsignedPayload other)

/-- The owner signed no payload that continues the journal, except those in it. -/
def SignedOnly (owned : Json → Prop) (events : List Json) : Prop :=
  ∀ payload, owned payload →
    previousField payload ∈ some .null :: events.map followed →
      payload ∈ events.map unsignedPayload

theorem CollisionFree.mono {a b : List Json} (h : CollisionFree identity b)
    (hmem : ∀ event ∈ a, event ∈ b) : CollisionFree identity a :=
  fun event hevent other hother => h event (hmem event hevent) other (hmem other hother)

/-! ## Events that the owner signed -/

/-- An event as it is read from a journal that verifies. -/
structure Authentic (py : Interpreter) (identity : SigningIdentity) (owned : Json → Prop)
    (event : Json) : Prop where
  ordered : Ordered event
  isObject : ∃ members, event = .object members
  numbers : ∀ literal ∈ literals event,
    isNumberLiteral literal.toList = true ∨ isNonFinite literal = true
  sound : Sound py identity event
  signed : OwnerSigned identity owned event

variable {event : Json} {events : List Json}

theorem literals_unsignedPayload {literal : String}
    (h : literal ∈ literals (unsignedPayload event)) : literal ∈ literals event := by
  cases event with
  | object members =>
      obtain ⟨member, hmember, hmem⟩ := mem_literalsOfMembers.mp h
      exact mem_literalsOfMembers.mpr ⟨member, (List.mem_filter.mp hmember).1, hmem⟩
  | _ => exact h

namespace Authentic

variable {other : Json}

theorem payload_ordered (h : Authentic py identity owned event) :
    Ordered (unsignedPayload event) := by
  obtain ⟨members, rfl⟩ := h.isObject
  have hordered := h.ordered
  cases hordered with
  | object hsorted hall =>
      refine .object (hsorted.keep _) ?_
      intro member hmember
      exact hall member (List.mem_filter.mp hmember).1

theorem payload_numeric (h : Authentic py identity owned event) :
    Numeric (unsignedPayload event) := by
  intro literal hliteral
  obtain ⟨text, htext, -⟩ := h.sound.signed
  obtain hnumber | hnonFinite := h.numbers literal (literals_unsignedPayload hliteral)
  · exact hnumber
  · -- a number that is not finite has no canonical text
    have hany : (literals (unsignedPayload event)).any isNonFinite = true :=
      List.any_eq_true.mpr ⟨literal, hliteral, hnonFinite⟩
    simp [canonicalJsonBytes, hany] at htext

/-- The stored hash is the one of the canonical text of the payload. -/
theorem followed_eq (h : Authentic py identity owned event) :
    followed event =
      some (.string (sha256Hex identity.sha256 (canonicalText (unsignedPayload event)))) := by
  obtain ⟨text, htext, hhash, -⟩ := h.sound.signed
  rw [canonicalJsonBytes_of_numeric h.payload_numeric] at htext
  obtain rfl := Option.some.inj htext
  simp [followed, storedHash, hhash, previousValue]

theorem get_signature (h : Authentic py identity owned event) :
    event.get "signature" =
      some (.string (Text.base64Encode
        (identity.sign (identity.sha256 (canonicalText (unsignedPayload event)))))) := by
  obtain ⟨-, text, htext, hsignature⟩ := h.signed
  rw [canonicalJsonBytes_of_numeric h.payload_numeric] at htext
  obtain rfl := Option.some.inj htext
  exact hsignature

/-- A payload determines its event. -/
theorem eq_of_payload_eq (h : Authentic py identity owned event)
    (h' : Authentic py identity owned other)
    (hpayload : unsignedPayload event = unsignedPayload other) : event = other := by
  have hhash : event.get "event_hash" = other.get "event_hash" := by
    obtain ⟨text, htext, hhash, -⟩ := h.sound.signed
    obtain ⟨text', htext', hhash', -⟩ := h'.sound.signed
    rw [hpayload, htext'] at htext
    rw [hhash, hhash', Option.some.inj htext]
  have hsignature : event.get "signature" = other.get "signature" := by
    rw [h.get_signature, h'.get_signature, hpayload]
  obtain ⟨members, rfl⟩ := h.isObject
  obtain ⟨members', rfl⟩ := h'.isObject
  rw [unsignedPayload, unsignedPayload, without, without, Json.object.injEq] at hpayload
  congr 1
  apply h.ordered.sorted.ext h'.ordered.sorted
  intro key
  by_cases hkey : key ∈ ["event_hash", "signature"]
  · simp only [List.mem_cons, List.not_mem_nil, or_false] at hkey
    obtain rfl | rfl := hkey
    · exact hhash
    · exact hsignature
  · have hget := congrArg (fun kept => Assoc.get kept key) hpayload
    simpa only [Assoc.get_keep, hkey, not_false_eq_true, decide_true, if_true] using hget

theorem eq_of_followed_eq (hcollision : CollisionFree identity events) (hmem : event ∈ events)
    (hmem' : other ∈ events) (h : Authentic py identity owned event)
    (h' : Authentic py identity owned other) (hfollowed : followed event = followed other) :
    event = other := by
  rw [h.followed_eq, h'.followed_eq, Option.some.injEq, Json.string.injEq] at hfollowed
  have htext := hcollision event hmem other hmem' (Text.hexEncode_injective hfollowed)
  rw [canonicalText, canonicalText, String.ofList_inj, h.payload_ordered.normal,
    h'.payload_ordered.normal] at htext
  exact h.eq_of_payload_eq h' (print_inj scans_serdeEscape h.payload_ordered h'.payload_ordered
    h.payload_numeric h'.payload_numeric htext)

end Authentic

theorem separates_authentic (hcollision : CollisionFree identity events)
    (h : ∀ event ∈ events, Authentic py identity owned event) :
    HashChain.Separates followed (some .null) events where
  eq_of_hash_eq x hx y hy :=
    Authentic.eq_of_followed_eq hcollision hx hy (h x hx) (h y hy)
  hash_ne_start x hx := by simp [(h x hx).followed_eq]

/-! ## Journals that verify -/

theorem readEvent_eq_some {line : List UInt8} (h : readEvent py line = some event) :
    ∃ text, loads py text = some event ∧ ∃ members, event = .object members := by
  unfold readEvent at h
  split at h
  case h_1 members hread =>
    obtain rfl := Option.some.inj h
    obtain ⟨text, -, hloads⟩ := Option.bind_eq_some_iff.mp hread
    exact ⟨text, hloads, members, rfl⟩
  case h_2 => simp at h

/-- The events of a journal that verifies. -/
theorem authentic_of_load {file : List UInt8} {snapshot : JournalSnapshot}
    (hload : loadJournalSnapshot py identity file = .ok snapshot) (hvalid : snapshot.issues = [])
    (hsigned : ∀ event ∈ snapshot.events, Sound py identity event →
      OwnerSigned identity owned event) :
    (∀ event ∈ snapshot.events, Authentic py identity owned event) ∧
      HashChain.Linked followed previousField (some .null) snapshot.events := by
  obtain ⟨events, hread, hverified, rfl⟩ := loadJournalSnapshot_valid_iff.mp ⟨hload, hvalid⟩
  refine ⟨?_, hverified.2⟩
  intro event hevent
  have hmem : some event ∈ (contentLines file).map (readEvent py) := by
    rw [hread]
    exact List.mem_map_of_mem hevent
  obtain ⟨line, -, hline⟩ := List.mem_map.mp hmem
  obtain ⟨text, hloads, hobject⟩ := readEvent_eq_some hline
  have hsound := hverified.1 event hevent
  exact ⟨ordered_of_loads hloads, hobject, literals_of_loads hloads, hsound,
    hsigned event hevent hsound⟩

/-- An event that continues the journal and is signed belongs to it. -/
theorem Authentic.mem_of_signedOnly
    (hevents : ∀ event ∈ events, Authentic py identity owned event)
    (honly : SignedOnly owned events) (hevent : Authentic py identity owned event)
    (hprevious : previousField event ∈ some .null :: events.map followed) : event ∈ events := by
  have hpayload : previousField (unsignedPayload event) = previousField event := by
    obtain ⟨members, rfl⟩ := hevent.isObject
    show Assoc.get (Assoc.keep _ members) _ = _
    rw [Assoc.get_keep]
    rfl
  obtain ⟨other, hother, heq⟩ :=
    List.mem_map.mp (honly (unsignedPayload event) hevent.signed.1 (hpayload ▸ hprevious))
  rw [(hevents other hother).eq_of_payload_eq hevent heq] at hother
  exact hother

/-- A journal that verifies and takes up from a given one is a beginning of it. -/
theorem isPrefix_of_signedOnly {events' : List Json}
    (hevents : ∀ event ∈ events, Authentic py identity owned event)
    (hlinked : HashChain.Linked followed previousField (some .null) events)
    (honly : SignedOnly owned events)
    (hevents' : ∀ event ∈ events', Authentic py identity owned event)
    (hlinked' : HashChain.Linked followed previousField (some .null) events')
    (hcollision : CollisionFree identity (events ++ events')) : events' <+: events := by
  induction events' using List.reverseRecOn with
  | nil => exact List.nil_prefix
  | append_singleton before event ih =>
      obtain ⟨hbefore, hprevious⟩ := (HashChain.linked_concat before event).mp hlinked'
      have hearlier := ih (fun other hother => hevents' other (by simp [hother])) hbefore
        (hcollision.mono (by simp +contextual [or_imp]))
      have hall : ∀ other ∈ events ++ (before ++ [event]), Authentic py identity owned other := by
        rw [List.forall_mem_append]
        exact ⟨hevents, hevents'⟩
      -- the event names the last one before it, which belongs to the journal
      have htip : previousField event ∈ some .null :: events.map followed := by
        rw [hprevious]
        have htip : (before = [] ∧ HashChain.tip followed (some .null) before = some .null) ∨
            ∃ last ∈ before, HashChain.tip followed (some .null) before = followed last :=
          HashChain.tip_eq_start_or_mem before
        obtain ⟨-, hstart⟩ | ⟨last, hlast, hhash⟩ := htip
        · simp [hstart]
        · rw [hhash]
          exact List.mem_cons_of_mem _ (List.mem_map_of_mem (hearlier.subset hlast))
      have hmem := (hevents' event (by simp)).mem_of_signedOnly hevents honly htip
      exact hlinked.isPrefix (separates_authentic hcollision hall) hlinked' (by simpa using hmem)

theorem lines_journalOf (h : ∀ event ∈ events, Recorded py event) :
    Bytes.lines (journalOf events) = events.map lineOf ++ [[]] := by
  have hnewline : ∀ line ∈ events.map lineOf, 10 ∉ line := by
    intro line hline
    obtain ⟨event, hevent, rfl⟩ := List.mem_map.mp hline
    exact (h event hevent).newline_notMem
  simpa [journalOf, Bytes.lines] using Bytes.lines_unlines_append hnewline []

theorem Recorded.readEvent_strip (h : Recorded py event) :
    readEvent py (Bytes.strip (lineOf event)) = some event := by
  rw [h.strip_lineOf]
  exact h.readEvent_lineOf

/-- An event whose schema version is a list makes verification fail with an error. -/
theorem load_unhashable (h : Recorded py event)
    (hversion : event.get "schema_version" = some (.array [])) :
    loadJournalSnapshot py identity (journalOf [event]) = .error .typeError := by
  have hall : ∀ other ∈ [event], Recorded py other := by simpa using h
  rw [loadJournalSnapshot, lines_journalOf hall, List.map_cons, List.cons_append,
    loadLines_event h.readEvent_strip, verifyEvent, hversion]
  rfl

/-- A journal with one event that is written twice. -/
theorem load_twice (h : Recorded py event) (hsound : Sound py identity event) :
    ∃ snapshot, loadJournalSnapshot py identity (journalOf [event, event]) = .ok snapshot ∧
      snapshot.events = [event, event] := by
  obtain ⟨text, -, hfirst⟩ := hsound.verifyEvent_eq 1 none
  obtain ⟨text', -, hsecond⟩ := hsound.verifyEvent_eq 2 (storedHash event)
  have hblank : Bytes.strip [] = [] := rfl
  have hall : ∀ other ∈ [event, event], Recorded py other := by simpa using h
  rw [loadJournalSnapshot, lines_journalOf hall]
  simp only [List.map_cons, List.map_nil, List.cons_append, List.nil_append]
  rw [loadLines_event h.readEvent_strip, hfirst]
  simp only [Except.bind]
  rw [loadLines_event h.readEvent_strip, hsecond]
  simp only [Except.bind]
  rw [loadLines_blank hblank]
  exact ⟨_, rfl, rfl⟩

/-- The owner's journal with one event, and the one with another event after it. -/
def firstEvent : Json := sampleDraft.event sampleIdentity none

def secondEvent : Json := sampleDraft.event sampleIdentity (storedHash firstEvent)

theorem complete_firstEvent : Complete samplePython sampleIdentity [firstEvent] := complete_sample

theorem complete_secondEvent :
    Complete samplePython sampleIdentity [firstEvent, secondEvent] :=
  complete_firstEvent.append sampleDraft

theorem ownerSigned_event (draft : EventDraft py) (identity : SigningIdentity)
    (previous : Option String) (howned : owned (unsignedPayload (draft.event identity previous))) :
    OwnerSigned identity owned (draft.event identity previous) := by
  refine ⟨howned, canonicalText (objectOf (draft.fields identity.keyID previous)), ?_, ?_⟩
  · rw [draft.unsignedPayload_event]
    exact canonicalJsonBytes_of_numeric (draft.payload_numeric identity previous)
  · exact draft.get_signature identity previous

/-- The payloads of both events. -/
def sampleOwned (payload : Json) : Prop :=
  payload = unsignedPayload firstEvent ∨ payload = unsignedPayload secondEvent

/-- The first event with another value for its schema version. -/
def changedEvent : Json :=
  .object (Assoc.insert "schema_version" (.array [])
    (Assoc.ofFields (sampleDraft.signedFields sampleIdentity none)))

theorem recorded_changedEvent : Recorded samplePython changedEvent where
  ordered := (sampleDraft.event_ordered sampleIdentity none).insert _ (.array (by simp))
  stable := by
    intro literal hliteral
    obtain ⟨member, hmember, hmem⟩ := mem_literalsOfMembers.mp hliteral
    obtain rfl | hold := Assoc.mem_insert hmember
    · simp [literals, literalsOfItems] at hmem
    · exact sampleDraft.event_stable sampleIdentity none literal
        (mem_literalsOfMembers.mpr ⟨member, hold, hmem⟩)
  isObject := ⟨_, rfl⟩

theorem load_changedEvent :
    loadJournalSnapshot samplePython sampleIdentity (journalOf [changedEvent]) =
      .error .typeError := by
  apply load_unhashable recorded_changedEvent
  rw [changedEvent, Json.get, Assoc.get_insert, if_pos rfl]

theorem collisionFree_sample : CollisionFree sampleIdentity [firstEvent, secondEvent] := by
  have hfirst : unsignedPayload firstEvent = objectOf (sampleDraft.fields sampleIdentity.keyID none) :=
    sampleDraft.unsignedPayload_event sampleIdentity none
  have hsecond : unsignedPayload secondEvent = objectOf (sampleDraft.fields sampleIdentity.keyID
      (some (Text.hexEncode (sampleDraft.digest sampleIdentity none)))) := by
    rw [secondEvent, sampleDraft.unsignedPayload_event, firstEvent, sampleDraft.storedHash_event]
  have hne : sampleIdentity.sha256 (canonicalText (unsignedPayload firstEvent)) ≠
      sampleIdentity.sha256 (canonicalText (unsignedPayload secondEvent)) := by
    rw [hfirst, hsecond]
    simp only [sampleIdentity, EventDraft.digest, canonicalText, String.length_ofList]
    decide +kernel
  intro event hevent other hother heq
  simp only [List.mem_cons, List.not_mem_nil, or_false] at hevent hother
  obtain rfl | rfl := hevent <;> obtain rfl | rfl := hother
  · rfl
  · exact absurd heq hne
  · exact absurd heq.symm hne
  · rfl

end Sdk
end Igris
