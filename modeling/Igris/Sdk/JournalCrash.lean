import Igris.Sdk.Journal

/-!
# Crashes of the journal

A crash leaves some first bytes of the file.  A later append reads the last line to
continue the chain.

Main results:

- Theorem {lit}`readLastEventHash_torn`: nothing is appended to a line that is cut.
- Theorem {lit}`appendEvent_after_cuts`: after any cuts that do not remove just a line break,
  what is appended verifies.
- Theorem {lit}`Complete.append_unended`: after a cut that removes just a line break, it does
  not.
- Theorem {lit}`verifyJournal_of_truncated`: a cut at a line break is not noticed.
-/

namespace Igris
namespace Sdk

open Json

variable {py : Interpreter} {identity : SigningIdentity}

/-! ## The line of an event -/

/-- An event that is read back as it is written. -/
structure Recorded (py : Interpreter) (event : Json) : Prop where
  ordered : Ordered event
  stable : Stable py event
  isObject : ∃ members, event = .object members

theorem EventDraft.recorded (draft : EventDraft py) (identity : SigningIdentity)
    (previous : Option String) : Recorded py (draft.event identity previous) :=
  ⟨draft.event_ordered identity previous, draft.event_stable identity previous, _, rfl⟩

namespace Recorded

variable {event : Json}

theorem lineOf_eq (h : Recorded py event) :
    lineOf event = Bytes.encode (print serdeEscape event) := by
  rw [lineOf, h.ordered.normal]

theorem newline_notMem (h : Recorded py event) : 10 ∉ lineOf event := by
  intro hmem
  rw [h.lineOf_eq] at hmem
  have hprintable := printable_print event h.stable.numeric _ (Bytes.newline_mem_encode hmem)
  revert hprintable
  decide

/-- A line starts and ends with a brace. -/
theorem exists_lineOf (h : Recorded py event) : ∃ inner, lineOf event = 123 :: (inner ++ [125]) := by
  obtain ⟨members, rfl⟩ := h.isObject
  refine ⟨Bytes.encode (printMembers serdeEscape members), ?_⟩
  rw [h.lineOf_eq, print, Bytes.encode_append, Bytes.encode_append]
  rfl

theorem strip_lineOf (h : Recorded py event) : Bytes.strip (lineOf event) = lineOf event := by
  obtain ⟨inner, hline⟩ := h.exists_lineOf
  rw [hline, Bytes.strip_cons (by decide), ← List.cons_append]
  exact Bytes.stripEnd_of_last (by decide)

theorem lineOf_ne_nil (h : Recorded py event) : lineOf event ≠ [] := by
  obtain ⟨inner, hline⟩ := h.exists_lineOf
  simp [hline]

theorem decode_lineOf (h : Recorded py event) :
    (Bytes.decode (lineOf event)).bind (loads py) = some event := by
  rw [h.lineOf_eq, Bytes.decode_encode]
  exact loads_print h.ordered h.stable

theorem readEvent_lineOf (h : Recorded py event) : readEvent py (lineOf event) = some event := by
  obtain ⟨members, rfl⟩ := h.isObject
  rw [readEvent, h.decode_lineOf]

/-- A line that is cut is no JSON text. -/
theorem decode_cut (h : Recorded py event) {cut more : List UInt8}
    (hline : lineOf event = cut ++ more) (hcut : cut ≠ []) (hmore : more ≠ []) :
    (Bytes.decode cut).bind (loads py) = none := by
  cases hdecode : Bytes.decode cut with
  | none => rfl
  | some text =>
      obtain ⟨members, rfl⟩ := h.isObject
      have hcutText := Bytes.encode_of_decode hdecode
      rw [h.lineOf_eq, ← hcutText] at hline
      obtain ⟨rest, hrest⟩ := Bytes.prefix_of_encode_prefix hline.symm
      have hparse : parse true text = none := by
        apply parse_cut_print scans_serdeEscape true h.stable.numeric hrest.symm
        · rintro rfl
          exact hcut hcutText.symm
        · rintro rfl
          rw [← hrest, List.append_nil] at hline
          exact hmore (List.append_right_eq_self.mp hline.symm)
      simp [loads, hparse]

end Recorded

/-! ## Files -/

/-- The file of some events, each on a line that is ended. -/
def journalOf (events : List Json) : List UInt8 := Bytes.unlines (events.map lineOf)

variable {events : List Json} {file : List UInt8}

theorem contentLines_journalOf (h : ∀ event ∈ events, Recorded py event) (tail : List UInt8) :
    contentLines (journalOf events ++ tail) =
      events.map lineOf ++ contents (Bytes.lines tail) := by
  have hlines : ∀ line ∈ events.map lineOf, 10 ∉ line := by
    intro line hline
    obtain ⟨event, hevent, rfl⟩ := List.mem_map.mp hline
    exact (h event hevent).newline_notMem
  have hstrip : contents (events.map lineOf) = events.map lineOf := by
    have hmap : (events.map lineOf).map Bytes.strip = events.map lineOf := by
      rw [List.map_map]
      apply List.map_congr_left
      intro event hevent
      exact (h event hevent).strip_lineOf
    rw [contents, hmap, List.filter_eq_self]
    intro line hline
    obtain ⟨event, hevent, rfl⟩ := List.mem_map.mp hline
    simpa using (h event hevent).lineOf_ne_nil
  rw [contentLines, journalOf, Bytes.lines_unlines_append hlines, contents_append, hstrip]

/-- Events that were appended one after the other. -/
structure Complete (py : Interpreter) (identity : SigningIdentity) (events : List Json) :
    Prop where
  recorded : ∀ event ∈ events, Recorded py event
  verified : VerifiedFrom py identity none events

/-- The hash that the next event names. -/
def lastHash (events : List Json) : Option String := events.getLast?.bind storedHash

theorem tip_followed (events : List Json) :
    HashChain.tip followed (some (previousValue none)) events =
      some (previousValue (lastHash events)) := by
  cases h : events.getLast? <;> simp [HashChain.tip, lastHash, followed, h]

theorem Sound.storedHash_eq {event : Json} (h : Sound py identity event) :
    ∃ hash, event.get "event_hash" = some (.string hash) ∧ storedHash event = some hash := by
  obtain ⟨text, -, hhash, -⟩ := h.signed
  exact ⟨_, hhash, by simp [storedHash, hhash]⟩

namespace Complete

theorem nil : Complete py identity [] := ⟨by simp, verifiedFrom_nil none⟩

theorem of_beginning (h : Complete py identity events) {before : List Json}
    (hbefore : before <+: events) : Complete py identity before :=
  ⟨fun event hevent => h.recorded event (hbefore.subset hevent),
    fun event hevent => h.verified.1 event (hbefore.subset hevent), h.verified.2.of_beginning hbefore⟩

theorem append (h : Complete py identity events) (draft : EventDraft py) :
    Complete py identity (events ++ [draft.event identity (lastHash events)]) where
  recorded := by
    intro event hevent
    obtain hold | hnew := List.mem_append.mp hevent
    · exact h.recorded event hold
    · obtain rfl := List.mem_singleton.mp hnew
      exact draft.recorded identity _
  verified := by
    refine ⟨?_, (HashChain.linked_concat _ _).mpr ⟨h.verified.2, ?_⟩⟩
    · intro event hevent
      obtain hold | hnew := List.mem_append.mp hevent
      · exact h.verified.1 event hold
      · obtain rfl := List.mem_singleton.mp hnew
        exact draft.event_sound identity _
    · rw [draft.previousField_event, tip_followed]

theorem contentLines_eq (h : Complete py identity events) :
    contentLines (journalOf events) = events.map lineOf := by
  simpa [contents, Bytes.lines, Bytes.strip, Bytes.stripEnd] using
    contentLines_journalOf h.recorded []

/-- What was appended verifies. -/
theorem load (h : Complete py identity events) :
    loadJournalSnapshot py identity (journalOf events) = .ok ⟨events, events.length, []⟩ := by
  have hread : (contentLines (journalOf events)).map (readEvent py) = events.map some := by
    rw [h.contentLines_eq, List.map_map]
    apply List.map_congr_left
    intro event hevent
    exact (h.recorded event hevent).readEvent_lineOf
  exact (loadJournalSnapshot_valid_iff.mpr ⟨events, hread, h.verified, rfl⟩).1

theorem readLastEventHash (h : Complete py identity events) :
    Sdk.readLastEventHash py (journalOf events) = .ok (lastHash events) := by
  rw [Sdk.readLastEventHash, h.contentLines_eq, List.getLast?_map, lastHash]
  cases hlast : events.getLast? with
  | none => rfl
  | some event =>
      have hevent := List.mem_of_getLast? hlast
      obtain ⟨members, rfl⟩ := (h.recorded event hevent).isObject
      obtain ⟨hash, hget, hstored⟩ := (h.verified.1 _ hevent).storedHash_eq
      have hmember : Assoc.get members "event_hash" = some (.string hash) := hget
      simp [(h.recorded _ hevent).decode_lineOf, hmember, hstored]

/-- An append to a file whose last line is ended. -/
theorem appendEvent (h : Complete py identity events) (draft : EventDraft py) :
    Sdk.appendEvent identity (journalOf events) draft =
      .ok (draft.event identity (lastHash events),
        journalOf (events ++ [draft.event identity (lastHash events)])) := by
  rw [Sdk.appendEvent, h.readLastEventHash]
  simp [draft.build_eq, journalOf, Bytes.unlines]

end Complete

/-! ## Lines that are cut -/

/-- First bytes of the line of an event, but not all of it. -/
def CutLine (py : Interpreter) (tail : List UInt8) : Prop :=
  ∃ event more, Recorded py event ∧ lineOf event = tail ++ more ∧ tail ≠ [] ∧ more ≠ []

namespace CutLine

variable {tail : List UInt8}

theorem newline_notMem (h : CutLine py tail) : 10 ∉ tail := by
  obtain ⟨event, more, hevent, hline, -⟩ := h
  intro hmem
  exact hevent.newline_notMem (hline ▸ List.mem_append_left more hmem)

theorem take (h : CutLine py tail) {k : Nat} (hk : tail.take k ≠ []) :
    CutLine py (tail.take k) := by
  obtain ⟨event, more, hevent, hline, -, hmore⟩ := h
  refine ⟨event, tail.drop k ++ more, hevent, ?_, hk, by simp [hmore]⟩
  rw [hline, ← List.append_assoc, List.take_append_drop]

/-- The white space at its end is not what makes it unreadable. -/
theorem contents_eq (h : CutLine py tail) :
    ∃ cut, contents (Bytes.lines tail) = [cut] ∧ (Bytes.decode cut).bind (loads py) = none := by
  have hlines := Bytes.lines_of_notMem h.newline_notMem
  obtain ⟨event, more, hevent, hline, htail, hmore⟩ := h
  obtain ⟨inner, hbraces⟩ := hevent.exists_lineOf
  obtain ⟨b, rest, rfl⟩ := List.exists_cons_of_ne_nil htail
  obtain rfl : b = 123 := by
    rw [hbraces, List.cons_append, List.cons.injEq] at hline
    exact hline.1.symm
  obtain ⟨spaces, hspaces⟩ := Bytes.stripEnd_prefix (123 :: rest)
  have hne := Bytes.stripEnd_cons_ne_nil (b := 123) (by decide) rest
  refine ⟨Bytes.stripEnd (123 :: rest), ?_, ?_⟩
  · simp [hlines, contents, Bytes.strip_cons (b := 123) (by decide), hne]
  · apply hevent.decode_cut _ hne
    · show spaces ++ more ≠ []
      simp [hmore]
    · rw [hline, ← List.append_assoc, hspaces]

end CutLine

/-- A line that is cut is found to be corrupt. -/
theorem readLastEventHash_torn (h : Complete py identity events) {tail : List UInt8}
    (htail : CutLine py tail) :
    readLastEventHash py (journalOf events ++ tail) = .error .journalError := by
  obtain ⟨cut, hcontents, hdecode⟩ := htail.contents_eq
  rw [readLastEventHash, contentLines_journalOf h.recorded, hcontents, List.getLast?_concat]
  simp [hdecode]

/-- What crashes can leave: events that are complete, and possibly a line that is cut. -/
def Torn (py : Interpreter) (identity : SigningIdentity) (file : List UInt8) : Prop :=
  ∃ events tail, Complete py identity events ∧ file = journalOf events ++ tail ∧
    (tail = [] ∨ CutLine py tail)

theorem Torn.nil : Torn py identity [] := ⟨[], [], .nil, rfl, .inl rfl⟩

theorem Torn.take (h : Torn py identity file) {k : Nat} (hk : file[k]? ≠ some 10) :
    Torn py identity (file.take k) := by
  obtain ⟨events, tail, hevents, rfl, htail⟩ := h
  by_cases hbefore : k < (journalOf events).length
  · -- the cut is inside the line of a complete event
    rw [List.getElem?_append_left hbefore] at hk
    obtain ⟨before, line, after, j, hmap, hj, htake, hget⟩ := Bytes.take_unlines hbefore
    obtain ⟨first, rest, rfl, rfl, hrest⟩ := List.map_eq_append_iff.mp hmap
    obtain ⟨event, last, rfl, rfl, -⟩ := List.map_eq_cons_iff.mp hrest
    have hlt : j < (lineOf event).length := by
      refine Nat.lt_of_le_of_ne hj fun heq => hk ?_
      rw [journalOf, hget, heq, List.getElem?_concat_length]
    refine ⟨first, (lineOf event).take j, hevents.of_beginning (List.prefix_append _ _), ?_, ?_⟩
    · rw [List.take_append_of_le_length (Nat.le_of_lt hbefore)]
      exact htake
    · by_cases hempty : (lineOf event).take j = []
      · exact .inl hempty
      · refine .inr ⟨event, (lineOf event).drop j, hevents.recorded event (by simp),
          (List.take_append_drop j _).symm, hempty, ?_⟩
        simpa using hlt
  · -- the cut is inside the line that was cut before
    refine ⟨events, tail.take (k - (journalOf events).length), hevents, ?_, ?_⟩
    · rw [List.take_append, List.take_of_length_le (Nat.le_of_not_lt hbefore)]
    · by_cases hempty : tail.take (k - (journalOf events).length) = []
      · exact .inl hempty
      · obtain rfl | hcut := htail
        · exact .inl (by simp)
        · exact .inr (hcut.take hempty)

/-! ## Runs -/

/-- Appends and crashes.  A crash keeps the first bytes of the file. -/
inductive JournalStep (py : Interpreter) where
  | append (draft : EventDraft py)
  | cut (kept : Nat)

def JournalStep.apply (identity : SigningIdentity) (file : List UInt8) :
    JournalStep py → List UInt8
  | .append draft =>
      match appendEvent identity file draft with
      | .ok (_, file) => file
      | .error _ => file
  | .cut kept => file.take kept

/-- The file after some steps. -/
def journalAfter (identity : SigningIdentity) (steps : List (JournalStep py)) : List UInt8 :=
  steps.foldl (JournalStep.apply identity) []

theorem journalAfter_concat (identity : SigningIdentity) (steps : List (JournalStep py))
    (step : JournalStep py) :
    journalAfter identity (steps ++ [step]) = step.apply identity (journalAfter identity steps) := by
  simp [journalAfter]

/-- The first byte that is lost is no line break. -/
def JournalStep.KeepsLines (file : List UInt8) : JournalStep py → Prop
  | .append _ => True
  | .cut kept => file[kept]? ≠ some 10

/-- No crash removes a line break but not the line before it. -/
def KeepsLines (identity : SigningIdentity) (file : List UInt8) : List (JournalStep py) → Prop
  | [] => True
  | step :: steps =>
      step.KeepsLines file ∧ KeepsLines identity (step.apply identity file) steps

/-- An append fails on a line that is cut; otherwise it starts a new line, and the file
that it leaves has no line that is cut. -/
theorem Torn.appendEvent (h : Torn py identity file) (draft : EventDraft py) :
    Sdk.appendEvent identity file draft = .error .journalError ∨
      ∃ event events,
        Sdk.appendEvent identity file draft = .ok (event, file ++ lineOf event ++ [10]) ∧
        (file = [] ∨ file.getLast? = some 10) ∧
        file ++ lineOf event ++ [10] = journalOf (events ++ [event]) ∧
        Complete py identity (events ++ [event]) := by
  obtain ⟨events, tail, hevents, rfl, htail⟩ := h
  obtain rfl | hcut := htail
  · right
    refine ⟨draft.event identity (lastHash events), events, ?_, ?_, ?_, hevents.append draft⟩
    · rw [List.append_nil, hevents.appendEvent]
      simp [journalOf, Bytes.unlines]
    · rw [List.append_nil]
      by_cases hnil : events = []
      · exact .inl (by simp [hnil, journalOf, Bytes.unlines])
      · exact .inr (Bytes.getLast?_unlines (by simpa using hnil))
    · simp [journalOf, Bytes.unlines]
  · left
    rw [Sdk.appendEvent, readLastEventHash_torn hevents hcut]

theorem JournalStep.apply_torn (h : Torn py identity file) (step : JournalStep py)
    (hstep : step.KeepsLines file) :
    Torn py identity (step.apply identity file) := by
  cases step with
  | cut kept => exact h.take hstep
  | append draft =>
      rw [JournalStep.apply]
      obtain herror | ⟨event, events, hok, -, hfile, hcomplete⟩ := h.appendEvent draft
      · simpa only [herror] using h
      · simp only [hok]
        exact ⟨events ++ [event], [], hcomplete, by rw [hfile, List.append_nil], .inl rfl⟩

theorem torn_foldl (h : Torn py identity file) {steps : List (JournalStep py)}
    (hsteps : KeepsLines identity file steps) :
    Torn py identity (steps.foldl (JournalStep.apply identity) file) := by
  induction steps generalizing file with
  | nil => exact h
  | cons step steps ih => exact ih (JournalStep.apply_torn h step hsteps.1) hsteps.2

/-- After crashes that leave no complete line without its line break, an append either is
refused, or it starts a new line and the journal verifies. -/
theorem appendEvent_after_cuts (py : Interpreter) (identity : SigningIdentity)
    (steps : List (JournalStep py)) (hsteps : KeepsLines identity [] steps)
    (draft : EventDraft py) :
    appendEvent identity (journalAfter identity steps) draft = .error .journalError ∨
      ∃ event file, appendEvent identity (journalAfter identity steps) draft = .ok (event, file) ∧
        (journalAfter identity steps = [] ∨ (journalAfter identity steps).getLast? = some 10) ∧
        file = journalAfter identity steps ++ lineOf event ++ [10] ∧
        verifyJournal py identity file = .ok true := by
  have htorn : Torn py identity (journalAfter identity steps) := torn_foldl .nil hsteps
  obtain herror | ⟨event, events, hok, hline, hfile, hcomplete⟩ := htorn.appendEvent draft
  · exact .inl herror
  · refine .inr ⟨event, _, hok, hline, rfl, ?_⟩
    rw [verifyJournal, hfile, hcomplete.load]
    rfl

/-! ## A line break that is lost -/

/-- Two events on one line are no event. -/
theorem Recorded.readEvent_glued {first second : Json} (hfirst : Recorded py first)
    (hsecond : Recorded py second) : readEvent py (lineOf first ++ lineOf second) = none := by
  obtain ⟨members, rfl⟩ := hsecond.isObject
  have hparse : parse true (print serdeEscape first ++ print serdeEscape (.object members)) =
      none := by
    rw [print, List.append_assoc, List.singleton_append]
    exact parse_print_append scans_serdeEscape true hfirst.stable.numeric (by decide) (by decide) _
  rw [readEvent, hfirst.lineOf_eq, hsecond.lineOf_eq, ← Bytes.encode_append, Bytes.decode_encode]
  simp [loads, hparse]

theorem mem_contentLines_glued {last event : Json} (hevents : ∀ event ∈ events, Recorded py event)
    (hlast : Recorded py last) (hevent : Recorded py event) :
    lineOf last ++ lineOf event ∈
      contentLines (journalOf events ++ lineOf last ++ lineOf event ++ [10]) := by
  have hnewline : 10 ∉ lineOf last ++ lineOf event := by
    simp [hlast.newline_notMem, hevent.newline_notMem]
  have hstrip : Bytes.strip (lineOf last ++ lineOf event) = lineOf last ++ lineOf event := by
    obtain ⟨inner, hinner⟩ := hlast.exists_lineOf
    obtain ⟨inner', hinner'⟩ := hevent.exists_lineOf
    rw [hinner, List.cons_append, Bytes.strip_cons (by decide), ← List.cons_append, ← hinner,
      hinner', ← List.cons_append, ← List.append_assoc]
    exact Bytes.stripEnd_of_last (by decide)
  rw [List.append_assoc, List.append_assoc, contentLines_journalOf hevents, ← List.append_assoc,
    Bytes.lines_append, Bytes.lines_of_notMem hnewline, List.singleton_append, contents_cons, hstrip,
    if_neg (by simp [hlast.lineOf_ne_nil])]
  simp

/-- An append to a line that lacks only its line break is not refused, and the journal does
not verify any more. -/
theorem Complete.append_unended {last : Json} (h : Complete py identity (events ++ [last]))
    (draft : EventDraft py) :
    ∃ event file,
      Sdk.appendEvent identity (journalOf events ++ lineOf last) draft = .ok (event, file) ∧
      verifyJournal py identity file ≠ .ok true := by
  have hlast := h.recorded last (by simp)
  have hevents : ∀ event ∈ events, Recorded py event := fun event hevent =>
    h.recorded event (by simp [hevent])
  have hcontents : contentLines (journalOf events ++ lineOf last) =
      (events ++ [last]).map lineOf := by
    rw [contentLines_journalOf hevents, Bytes.lines_of_notMem hlast.newline_notMem]
    simp [contents, hlast.strip_lineOf, hlast.lineOf_ne_nil]
  have hread : Sdk.readLastEventHash py (journalOf events ++ lineOf last) =
      .ok (lastHash (events ++ [last])) := by
    rw [← h.readLastEventHash, Sdk.readLastEventHash, Sdk.readLastEventHash, hcontents,
      h.contentLines_eq]
  obtain ⟨event, hevent⟩ : ∃ event, draft.event identity (lastHash (events ++ [last])) = event :=
    ⟨_, rfl⟩
  have hrecorded : Recorded py event := hevent ▸ draft.recorded identity _
  refine ⟨event, journalOf events ++ lineOf last ++ lineOf event ++ [10], ?_, ?_⟩
  · simp only [Sdk.appendEvent, hread, draft.build_eq, hevent]
  · intro hverify
    obtain ⟨parsed, hparsed, -⟩ := verifyJournal_eq_true_iff.mp hverify
    -- the new line is the old last one with the new event glued to it
    have hmem := mem_contentLines_glued hevents hlast hrecorded
    have hnone := List.mem_map_of_mem (f := readEvent py) hmem
    rw [hparsed, hlast.readEvent_glued hrecorded] at hnone
    simp at hnone

def samplePython : Interpreter where
  numberText := fun literal => if isNumberLiteral literal.toList then some literal else none
  numberText_spec := by
    intro literal text h
    split_ifs at h with hliteral
    exact .inl (Option.some.inj h ▸ hliteral)
  str := fun _ => ""

/-- A digest that tells texts of different lengths apart, and signatures that repeat it. -/
def sampleIdentity : SigningIdentity where
  keyID := "key"
  sha256 := fun text => UInt8.ofNat text.length :: List.replicate 31 0
  length_sha256 := by simp
  sign := id
  verify := fun digest signature => decide (signature = digest)
  verify_sign := verify_digest

def sampleDraft : EventDraft samplePython where
  eventID := "e"
  actionID := "a"
  actionName := "ops.run"
  contractHash := "c"
  timestampUTC := "t"
  evidence := .decision true "low" "auto" "s" "i" none

/-- The line of the first event. -/
def sampleLine : List UInt8 := lineOf (sampleDraft.event sampleIdentity none)

theorem complete_sample :
    Complete samplePython sampleIdentity ([] ++ [sampleDraft.event sampleIdentity none]) :=
  Complete.nil.append sampleDraft

theorem journalAfter_sampleDraft :
    journalAfter sampleIdentity [.append sampleDraft] = sampleLine ++ [10] := by
  have hcomplete : Complete samplePython sampleIdentity [] := .nil
  have happend : appendEvent sampleIdentity [] sampleDraft = _ := hcomplete.appendEvent sampleDraft
  simp [journalAfter, JournalStep.apply, happend, lastHash, sampleLine, journalOf, Bytes.unlines]

/-- The first crash leaves one byte, and the next append is refused. -/
theorem sampleDraft_cut :
    KeepsLines sampleIdentity [] [.append sampleDraft, .cut 1] ∧
      (appendEvent sampleIdentity (journalAfter sampleIdentity [.append sampleDraft, .cut 1])
          sampleDraft = .error .journalError ∨
        ∃ event file,
          appendEvent sampleIdentity (journalAfter sampleIdentity [.append sampleDraft, .cut 1])
            sampleDraft = .ok (event, file) ∧
          (journalAfter sampleIdentity [.append sampleDraft, .cut 1] = [] ∨
            (journalAfter sampleIdentity [.append sampleDraft, .cut 1]).getLast? = some 10) ∧
          file = journalAfter sampleIdentity [.append sampleDraft, .cut 1] ++ lineOf event ++ [10] ∧
          verifyJournal samplePython sampleIdentity file = .ok true) := by
  have hkeeps : KeepsLines sampleIdentity [] [.append sampleDraft, .cut 1] := by
    refine ⟨trivial, ?_, trivial⟩
    have hfile : JournalStep.apply sampleIdentity [] (.append sampleDraft) = sampleLine ++ [10] :=
      journalAfter_sampleDraft
    have hrecorded := sampleDraft.recorded sampleIdentity none
    obtain ⟨inner, hinner⟩ := hrecorded.exists_lineOf
    have hlength : 1 < sampleLine.length := by simp [sampleLine, hinner]
    rw [hfile]
    show (sampleLine ++ [10])[1]? ≠ some 10
    rw [List.getElem?_append_left hlength]
    intro hget
    exact hrecorded.newline_notMem (List.mem_of_getElem? hget)
  exact ⟨hkeeps, appendEvent_after_cuts samplePython sampleIdentity _ hkeeps sampleDraft⟩

/-- Only the line break is lost: the next append succeeds, and the journal does not verify. -/
theorem lost_newline_not_verified :
    ∃ steps : List (JournalStep samplePython), ∃ event file,
      appendEvent sampleIdentity (journalAfter sampleIdentity steps) sampleDraft =
        .ok (event, file) ∧
      verifyJournal samplePython sampleIdentity file ≠ .ok true := by
  have hfile : journalAfter sampleIdentity ([.append sampleDraft] ++ [.cut sampleLine.length]) =
      journalOf [] ++ sampleLine := by
    rw [journalAfter_concat, journalAfter_sampleDraft, JournalStep.apply, List.take_left]
    exact (List.nil_append _).symm
  refine ⟨[.append sampleDraft] ++ [.cut sampleLine.length], ?_⟩
  rw [hfile]
  exact complete_sample.append_unended sampleDraft

end Sdk
end Igris
