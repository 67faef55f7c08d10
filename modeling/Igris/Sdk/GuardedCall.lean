import Igris.Sdk.Guard
import Igris.Sdk.Values

/-!
# One guarded call

A guarded call prepares its input, asks for approval, records the decision, runs the
function and records the outcome.  Each part may raise; what is raised after the function
has run decides how the call ends.

Main results:

- Theorem {lit}`guardedCall_runs`: the function runs at most once, and only after an allowed
  decision was recorded.
- Theorem {lit}`settled_iff`: the calls that end with the result, with the exception of the
  function or with the error for missing evidence.
-/

namespace Igris
namespace Sdk

/-! ## What is recorded -/

/-- A guarded function: its contract, the declared names and the prepared metadata. -/
structure GuardedFunction where
  contract : ActionContract
  redact : List PyText := []
  metadata : Option PyValue := none

structure ApprovalRequest where
  actionName : String
  risk : String
  approvalMode : String
  redactedInputSummary : PyText
  inputHash : String
  contractHash : String
deriving DecidableEq, Repr

inductive OutcomeFields where
  | succeeded (observedResultType : PyText) (redactedOutputHash : Option String)
  | failed (exceptionType sanitizedErrorSummary : PyText)
deriving DecidableEq, Repr

/-- The fields of an event that do not belong to the chain. -/
inductive EventFields where
  | decision (allowed : Bool) (risk approvalMode : String) (redactedInputSummary : PyText)
      (inputHash : String) (metadata : Option PyValue)
  | outcome (decisionEventID : String) (fields : OutcomeFields)

structure EvidenceEvent where
  eventID : String
  actionID : String
  actionName : String
  contractHash : String
  fields : EventFields

/-- What a call does, in its order. -/
inductive GuardAct where
  | requested (request : ApprovalRequest)
  | appended (event : EvidenceEvent)
  | ran

/-! ## The call and its surroundings -/

/-- An exception of the guarded function. -/
structure ExceptionObject where
  id : Nat
  typeName : PyText
  /-- Not so for {lit}`KeyboardInterrupt` and {lit}`SystemExit`. -/
  isException : Bool
  /-- Its text; {lit}`none` if asking for it raises. -/
  str : Option PyText
deriving DecidableEq, Repr

variable {ι : Type}

inductive FunctionOutcome (ι : Type) where
  /-- The function may have changed the objects. -/
  | returned (heap : Heap ι) (result : ι)
  | raised (error : ExceptionObject)

/-- What the journal answers.  A failure may come after the event was written. -/
inductive AppendAnswer where
  | appended
  | failed (written isException : Bool)
deriving DecidableEq, Repr

structure Call (ι : Type) where
  heap : Heap ι
  /-- The bound arguments; {lit}`none` if they do not fit the signature. -/
  arguments : Option (List (PyText × ι))
  contractSynced : Bool := true
  identityLoaded : Bool := true
  /-- The verdict of the approval provider; {lit}`none` if it fails. -/
  verdict : Option Bool
  decisionEventID : String
  outcomeEventID : String
  decisionAnswer : AppendAnswer := .appended
  outcomeAnswer : AppendAnswer := .appended
  run : FunctionOutcome ι

inductive GuardError where
  | binding
  | contractSync
  | python (error : PyException)
  | identity
  | approval
  | journal
  | actionDenied
  /-- Asking for the text of the exception raises. -/
  | exceptionText
  /-- An interruption while the outcome is recorded. -/
  | interrupted
deriving DecidableEq, Repr

inductive Ending (ι : Type) where
  | returned (result : ι)
  /-- The exception of the function. -/
  | reraised (error : ExceptionObject)
  /-- {lit}`ExecutionCompletedEvidenceError` -/
  | evidenceError
  | raised (error : GuardError)
deriving DecidableEq, Repr

/-! ## The parts of a call -/

structure PreparedInput where
  rawSensitiveValues : List PyText
  inputHash : String
  inputSummary : PyText

def prepareInput (py : PyRuntime) (sensitive : List PyText) (heap : Heap ι)
    (arguments : List (PyText × ι)) : Except PyException PreparedInput := do
  let redacted ← redactArguments py sensitive heap arguments
  let rawSensitiveValues ← collectSensitiveRawValues py sensitive heap arguments
  let canonicalInput ← toCanonical py 0 redacted
  let inputHash := sha256HexOf py (← canonicalJsonBytesOf py canonicalInput)
  let inputSummary ← boundedSummary py canonicalInput
  return ⟨rawSensitiveValues, inputHash, inputSummary⟩

/-- The canonical text of a result.  Only the built-in names are redacted. -/
def resultText (py : PyRuntime) (heap : Heap ι) (result : ι) : Except PyException PyText := do
  let redacted ← redactValue py sensitiveNames heap py.stack result
  canonicalJsonBytesOf py (← toCanonical py 0 redacted)

/-- The text whose hash is recorded for a result; none for a text that is one of the secrets
of the call, and none for a result without a canonical form. -/
def outputText (py : PyRuntime) (heap : Heap ι) (result : ι) (rawSensitiveValues : List PyText) :
    Except PyException (Option PyText) :=
  let isSecret :=
    match (heap result).shape with
    | .str text => decide (text ∈ rawSensitiveValues)
    | _ => false
  if isSecret then .ok none
  else
    match resultText py heap result with
    | .ok text => .ok (some text)
    | .error .canonicalizationError => .ok none
    | .error err => .error err

def safeOutputHash (py : PyRuntime) (heap : Heap ι) (result : ι)
    (rawSensitiveValues : List PyText) : Except PyException (Option String) :=
  match outputText py heap result rawSensitiveValues with
  | .ok text => .ok (text.map (sha256HexOf py))
  | .error err => .error err

def GuardedFunction.event (g : GuardedFunction) (eventID : String) (fields : EventFields) :
    EvidenceEvent where
  eventID := eventID
  actionID := g.contract.actionID
  actionName := g.contract.actionName
  contractHash := g.contract.contractHash
  fields := fields

def GuardedFunction.request (g : GuardedFunction) (input : PreparedInput) : ApprovalRequest where
  actionName := g.contract.actionName
  risk := g.contract.risk
  approvalMode := g.contract.approvalMode
  redactedInputSummary := input.inputSummary
  inputHash := input.inputHash
  contractHash := g.contract.contractHash

def GuardedFunction.decisionEvent (g : GuardedFunction) (call : Call ι) (input : PreparedInput)
    (allowed : Bool) : EvidenceEvent :=
  g.event call.decisionEventID (.decision allowed g.contract.risk g.contract.approvalMode
    input.inputSummary input.inputHash g.metadata)

def GuardedFunction.outcomeEvent (g : GuardedFunction) (call : Call ι) (fields : OutcomeFields) :
    EvidenceEvent :=
  g.event call.outcomeEventID (.outcome call.decisionEventID fields)

/-- What an answer of the journal leaves behind. -/
def AppendAnswer.acts (answer : AppendAnswer) (event : EvidenceEvent) : List GuardAct :=
  match answer with
  | .appended => [.appended event]
  | .failed written _ => if written then [.appended event] else []

/-- Append the outcome.  Exceptions become the error for missing evidence. -/
def recordOutcome (g : GuardedFunction) (call : Call ι) (fields : OutcomeFields)
    (ending : Ending ι) : List GuardAct × Ending ι :=
  (call.outcomeAnswer.acts (g.outcomeEvent call fields),
    match call.outcomeAnswer with
    | .appended => ending
    | .failed _ isException => if isException then .evidenceError else .raised .interrupted)

/-- From the run of the function on. -/
def runAndRecord (py : PyRuntime) (g : GuardedFunction) (call : Call ι)
    (rawSensitiveValues : List PyText) : List GuardAct × Ending ι :=
  match call.run with
  | .returned heap result =>
      match safeOutputHash py heap result rawSensitiveValues with
      | .ok hash =>
          recordOutcome g call (.succeeded (heap result).typeName hash) (.returned result)
      | .error err => ([], .raised (.python err))
  | .raised error =>
      if error.isException then
        match error.str with
        | some text =>
            recordOutcome g call (.failed error.typeName (scrubText text rawSensitiveValues))
              (.reraised error)
        | none => ([], .raised .exceptionText)
      else ([], .reraised error)

/-- The verdict; without a need for approval every call is allowed. -/
def GuardedFunction.verdict (g : GuardedFunction) (call : Call ι) : Option Bool :=
  if g.contract.approvalMode = "never" then some true else call.verdict

/-- From the approval on. -/
def decideAndRun (py : PyRuntime) (g : GuardedFunction) (call : Call ι) (input : PreparedInput) :
    List GuardAct × Ending ι :=
  match g.verdict call with
  | none => ([], .raised .approval)
  | some allowed =>
      let acts := call.decisionAnswer.acts (g.decisionEvent call input allowed)
      if call.decisionAnswer = .appended then
        if allowed then
          let (rest, ending) := runAndRecord py g call input.rawSensitiveValues
          (acts ++ .ran :: rest, ending)
        else (acts, .raised .actionDenied)
      else (acts, .raised .journal)

def guardedCall (py : PyRuntime) (g : GuardedFunction) (call : Call ι) :
    List GuardAct × Ending ι :=
  match call.arguments with
  | none => ([], .raised .binding)
  | some arguments =>
      if !call.contractSynced then ([], .raised .contractSync)
      else
        match prepareInput py (buildSensitiveSet py g.redact) call.heap arguments with
        | .error err => ([], .raised (.python err))
        | .ok input =>
            if !call.identityLoaded then ([], .raised .identity)
            else
              let (acts, ending) := decideAndRun py g call input
              (.requested (g.request input) :: acts, ending)

/-! ## When the function runs -/

section Runs

variable {py : PyRuntime} {g : GuardedFunction} {call : Call ι}

theorem ran_notMem_acts (answer : AppendAnswer) (event : EvidenceEvent) :
    GuardAct.ran ∉ answer.acts event := by
  unfold AppendAnswer.acts
  split
  · simp
  · split <;> simp

theorem ran_notMem_runAndRecord (rawSensitiveValues : List PyText) :
    GuardAct.ran ∉ (runAndRecord py g call rawSensitiveValues).1 := by
  unfold runAndRecord
  split
  · split
    · exact ran_notMem_acts _ _
    · simp
  · split
    · split
      · exact ran_notMem_acts _ _
      · simp
    · simp

theorem decideAndRun_cases (input : PreparedInput) :
    (.ran ∉ (decideAndRun py g call input).1 ∧
      ∀ result, (decideAndRun py g call input).2 ≠ .returned result) ∨
    decideAndRun py g call input =
      (.appended (g.decisionEvent call input true) :: .ran ::
          (runAndRecord py g call input.rawSensitiveValues).1,
        (runAndRecord py g call input.rawSensitiveValues).2) := by
  unfold decideAndRun
  cases hverdict : g.verdict call with
  | none => exact .inl ⟨by simp, by simp⟩
  | some allowed =>
      by_cases hanswer : call.decisionAnswer = .appended
      · cases allowed with
        | true => simp [hanswer, AppendAnswer.acts]
        | false => simpa [hanswer] using .inl (ran_notMem_acts _ _)
      · simpa [hanswer] using .inl (ran_notMem_acts _ _)

/-- A call does not run the function and does not return, or it has prepared its input and
recorded that it is allowed. -/
theorem guardedCall_cases :
    (.ran ∉ (guardedCall py g call).1 ∧ ∀ result, (guardedCall py g call).2 ≠ .returned result) ∨
    ∃ arguments input, call.arguments = some arguments ∧
      prepareInput py (buildSensitiveSet py g.redact) call.heap arguments = .ok input ∧
      guardedCall py g call =
        (.requested (g.request input) :: .appended (g.decisionEvent call input true) :: .ran ::
            (runAndRecord py g call input.rawSensitiveValues).1,
          (runAndRecord py g call input.rawSensitiveValues).2) := by
  unfold guardedCall
  cases harguments : call.arguments with
  | none => exact .inl ⟨by simp, by simp⟩
  | some arguments =>
      dsimp only
      split
      · exact .inl ⟨by simp, by simp⟩
      · cases hinput : prepareInput py (buildSensitiveSet py g.redact) call.heap arguments with
        | error err => exact .inl ⟨by simp, by simp⟩
        | ok input =>
            dsimp only
            split
            · exact .inl ⟨by simp, by simp⟩
            · have hdecided : (.ran ∉ (decideAndRun py g call input).1 ∧ _) ∨ _ :=
                decideAndRun_cases input
              obtain ⟨hran, hreturned⟩ | hcall := hdecided
              · exact .inl ⟨by simpa using hran, hreturned⟩
              · exact .inr ⟨arguments, input, rfl, hinput, by rw [hcall]⟩

/-- The function runs at most once, right after an allowed decision was recorded. -/
theorem guardedCall_runs (h : .ran ∈ (guardedCall py g call).1) :
    ∃ request input rest, (guardedCall py g call).1 =
      [.requested request, .appended (g.decisionEvent call input true), .ran] ++ rest ∧
        .ran ∉ rest := by
  obtain ⟨arguments, input, -, -, hcall⟩ :=
    guardedCall_cases.resolve_left fun hrefused => hrefused.1 h
  exact ⟨g.request input, input, _, by rw [hcall]; rfl,
    ran_notMem_runAndRecord input.rawSensitiveValues⟩

end Runs

/-! ## How a call ends -/

section Endings

variable {py : PyRuntime} {g : GuardedFunction} {call : Call ι}

/-- The result is one of the secrets of the call, or it can be redacted and its canonical
text, if there is one, has no lone surrogate. -/
def Hashes (py : PyRuntime) (heap : Heap ι) (result : ι) (rawSensitiveValues : List PyText) :
    Prop :=
  (∃ text ∈ rawSensitiveValues, (heap result).shape = .str text) ∨
  ∃ redacted, redactValue py sensitiveNames heap py.stack result = .ok redacted ∧
    (toCanonical py 0 redacted = .error .canonicalizationError ∨
      ∃ canonical, toCanonical py 0 redacted = .ok canonical ∧
        ∀ text, dumps py (pyText ",") (pyText ":") canonical = .ok text →
          ∀ code ∈ text, isSurrogate code = false)

/-- The canonical text fails to be encoded exactly if it has a lone surrogate. -/
theorem canonicalJsonBytesOf_cases (py : PyRuntime) (value : PyValue) :
    (canonicalJsonBytesOf py value = .error .canonicalizationError ∨
        ∃ text, canonicalJsonBytesOf py value = .ok text) ↔
      ∀ text, dumps py (pyText ",") (pyText ":") value = .ok text →
        ∀ code ∈ text, isSurrogate code = false := by
  unfold canonicalJsonBytesOf
  cases hdumps : dumps py (pyText ",") (pyText ":") value with
  | error err => simp
  | ok text =>
      have hany : (∀ code ∈ text, isSurrogate code = false) ↔ text.any isSurrogate = false := by
        simp
      simp only [Except.ok.injEq, forall_eq', hany]
      cases text.any isSurrogate <;> simp

theorem resultText_cases (heap : Heap ι) (result : ι) :
    (resultText py heap result = .error .canonicalizationError ∨
        ∃ text, resultText py heap result = .ok text) ↔
      ∃ redacted, redactValue py sensitiveNames heap py.stack result = .ok redacted ∧
        (toCanonical py 0 redacted = .error .canonicalizationError ∨
          ∃ canonical, toCanonical py 0 redacted = .ok canonical ∧
            ∀ text, dumps py (pyText ",") (pyText ":") canonical = .ok text →
              ∀ code ∈ text, isSurrogate code = false) := by
  simp only [resultText, ← canonicalJsonBytesOf_cases]
  cases hredacted : redactValue py sensitiveNames heap py.stack result with
  | error err =>
      rcases redactValue_error hredacted with rfl | rfl <;> simp [bind, Except.bind]
  | ok redacted =>
      cases hcanonical : toCanonical py 0 redacted <;> simp [bind, Except.bind, hcanonical]

variable {rawSensitiveValues : List PyText}

theorem outputText_of_secret {heap : Heap ι} {result : ι} {text : PyText}
    (hmem : text ∈ rawSensitiveValues) (hshape : (heap result).shape = .str text) :
    outputText py heap result rawSensitiveValues = .ok none := by
  simp [outputText, hshape, hmem]

theorem outputText_of_notSecret {heap : Heap ι} {result : ι}
    (h : ∀ text ∈ rawSensitiveValues, (heap result).shape ≠ .str text) :
    outputText py heap result rawSensitiveValues =
      match resultText py heap result with
      | .ok text => .ok (some text)
      | .error .canonicalizationError => .ok none
      | .error err => .error err := by
  have hnot : (match (heap result).shape with
      | .str text => decide (text ∈ rawSensitiveValues)
      | _ => false) = false := by
    split
    · rename_i text hshape
      simpa using fun hmem => h text hmem hshape
    · rfl
  simp only [outputText, hnot, Bool.false_eq_true, if_false]

theorem outputText_eq_ok_iff (heap : Heap ι) (result : ι) (rawSensitiveValues : List PyText) :
    (∃ text, outputText py heap result rawSensitiveValues = .ok text) ↔
      Hashes py heap result rawSensitiveValues := by
  rw [Hashes, ← resultText_cases]
  by_cases hsecret : ∃ text ∈ rawSensitiveValues, (heap result).shape = .str text
  · obtain ⟨text, hmem, hshape⟩ := hsecret
    simp [outputText_of_secret hmem hshape, hshape, hmem]
  · rw [outputText_of_notSecret fun text hmem hshape => hsecret ⟨text, hmem, hshape⟩]
    simp only [hsecret, false_or]
    split <;> simp_all

theorem safeOutputHash_eq_ok_iff (heap : Heap ι) (result : ι)
    (rawSensitiveValues : List PyText) :
    (∃ hash, safeOutputHash py heap result rawSensitiveValues = .ok hash) ↔
      Hashes py heap result rawSensitiveValues := by
  rw [← outputText_eq_ok_iff]
  unfold safeOutputHash
  split
  · simp_all
  · simp_all

/-- The outcome can be recorded: the result can be hashed, or the exception is an ordinary one
with a text, and the journal is not interrupted. -/
def Recordable (py : PyRuntime) (call : Call ι) (rawSensitiveValues : List PyText) : Prop :=
  (match call.run with
    | .returned heap result => Hashes py heap result rawSensitiveValues
    | .raised error => error.isException = true ∧ error.str.isSome = true) ∧
  ∀ written, call.outcomeAnswer ≠ .failed written false

/-- The call ends with the result of the function or with its exception, and the outcome that
belongs to the decision is recorded, or it ends with the error for missing evidence. -/
def Settled (g : GuardedFunction) (call : Call ι) (out : List GuardAct × Ending ι) : Prop :=
  (∃ heap result hash, call.run = .returned heap result ∧ out.2 = .returned result ∧
    .appended (g.outcomeEvent call (.succeeded (heap result).typeName hash)) ∈ out.1) ∨
  (∃ error summary, call.run = .raised error ∧ out.2 = .reraised error ∧
    .appended (g.outcomeEvent call (.failed error.typeName summary)) ∈ out.1) ∨
  out.2 = .evidenceError

theorem recordOutcome_calm (g : GuardedFunction) (fields : OutcomeFields) (ending : Ending ι)
    (hcalm : ∀ written, call.outcomeAnswer ≠ .failed written false) :
    recordOutcome g call fields ending = ([.appended (g.outcomeEvent call fields)], ending) ∨
      (recordOutcome g call fields ending).2 = .evidenceError := by
  unfold recordOutcome AppendAnswer.acts
  cases hanswer : call.outcomeAnswer with
  | appended => exact .inl rfl
  | failed written isException =>
      cases isException with
      | true => exact .inr rfl
      | false => exact absurd hanswer (hcalm written)

theorem recordOutcome_interrupted (g : GuardedFunction) (fields : OutcomeFields)
    (ending : Ending ι) {written : Bool} (hanswer : call.outcomeAnswer = .failed written false) :
    (recordOutcome g call fields ending).2 = .raised .interrupted := by
  simp [recordOutcome, hanswer]

theorem not_settled_of_raised {out : List GuardAct × Ending ι} {err : GuardError}
    (h : out.2 = .raised err) : ¬Settled g call out := by
  rintro (⟨_, _, _, -, hending, -⟩ | ⟨_, _, -, hending, -⟩ | hending) <;> simp [h] at hending

theorem runAndRecord_settled (h : Recordable py call rawSensitiveValues) :
    Settled g call (runAndRecord py g call rawSensitiveValues) := by
  obtain ⟨hrun, hcalm⟩ := h
  unfold runAndRecord
  cases houtcome : call.run with
  | returned heap result =>
      simp only [houtcome] at hrun
      obtain ⟨hash, hhash⟩ := (safeOutputHash_eq_ok_iff heap result rawSensitiveValues).2 hrun
      simp only [hhash]
      rcases recordOutcome_calm g (.succeeded (heap result).typeName hash) (.returned result) hcalm
        with hrecorded | herror
      · rw [hrecorded]
        exact .inl ⟨heap, result, hash, houtcome, rfl, List.mem_cons_self⟩
      · exact .inr (.inr herror)
  | raised error =>
      simp only [houtcome] at hrun
      obtain ⟨text, htext⟩ := Option.isSome_iff_exists.mp hrun.2
      simp only [hrun.1, if_true, htext]
      rcases recordOutcome_calm g (.failed error.typeName (scrubText text rawSensitiveValues))
        (.reraised error) hcalm with hrecorded | herror
      · rw [hrecorded]
        exact .inr (.inl ⟨error, _, houtcome, rfl, List.mem_cons_self⟩)
      · exact .inr (.inr herror)

theorem recordable_of_settled (h : Settled g call (runAndRecord py g call rawSensitiveValues)) :
    Recordable py call rawSensitiveValues := by
  unfold runAndRecord at h
  cases houtcome : call.run with
  | returned heap result =>
      simp only [houtcome] at h
      cases hhash : safeOutputHash py heap result rawSensitiveValues with
      | error err =>
          simp only [hhash] at h
          exact absurd h (not_settled_of_raised rfl)
      | ok hash =>
          simp only [hhash] at h
          constructor
          · simp only [houtcome]
            exact (safeOutputHash_eq_ok_iff heap result rawSensitiveValues).1 ⟨hash, hhash⟩
          · intro written hanswer
            exact not_settled_of_raised (recordOutcome_interrupted g _ _ hanswer) h
  | raised error =>
      simp only [houtcome] at h
      by_cases hexception : error.isException = true
      · cases htext : error.str with
        | none =>
            simp only [hexception, if_true, htext] at h
            exact absurd h (not_settled_of_raised rfl)
        | some text =>
            simp only [hexception, if_true, htext] at h
            constructor
            · simp [houtcome, hexception, htext]
            · intro written hanswer
              exact not_settled_of_raised (recordOutcome_interrupted g _ _ hanswer) h
      · -- an interruption is raised again, but no outcome is recorded
        simp only [hexception] at h
        rcases h with ⟨_, _, _, -, hending, -⟩ | ⟨_, _, -, -, hmem⟩ | hending
        · simp at hending
        · simp at hmem
        · simp at hending

/-- The outcome of a call is not among what it did before. -/
theorem settled_cons_iff {act : GuardAct} {acts : List GuardAct} {ending : Ending ι}
    (h : ∀ fields, act ≠ .appended (g.outcomeEvent call fields)) :
    Settled g call (act :: acts, ending) ↔ Settled g call (acts, ending) := by
  have hne (fields : OutcomeFields) : .appended (g.outcomeEvent call fields) ≠ act :=
    fun heq => h fields heq.symm
  simp [Settled, hne]

theorem decisionEvent_ne_outcomeEvent (input : PreparedInput) (allowed : Bool)
    (fields : OutcomeFields) :
    GuardAct.appended (g.decisionEvent call input allowed) ≠
      .appended (g.outcomeEvent call fields) := by
  simp [GuardedFunction.decisionEvent, GuardedFunction.outcomeEvent, GuardedFunction.event]

theorem rawSensitiveValues_of_prepareInput {sensitive : List PyText} {heap : Heap ι}
    {arguments : List (PyText × ι)} {input : PreparedInput}
    (h : prepareInput py sensitive heap arguments = .ok input) :
    collectSensitiveRawValues py sensitive heap arguments = .ok input.rawSensitiveValues := by
  simp only [prepareInput, Validation.bind_eq_ok_iff] at h
  obtain ⟨redacted, -, raw, hraw, canonical, -, text, -, summary, -, hinput⟩ := h
  cases hinput
  exact hraw

end Endings

/-! ## Calls that end otherwise -/

def GuardAct.isRun : GuardAct → Bool
  | .ran => true
  | _ => false

def GuardAct.isOutcome : GuardAct → Bool
  | .appended event =>
      match event.fields with
      | .outcome _ _ => true
      | .decision _ _ _ _ _ _ => false
  | _ => false

theorem ran_mem_of_any {acts : List GuardAct} (h : acts.any GuardAct.isRun = true) :
    .ran ∈ acts := by
  obtain ⟨act, hmem, hrun⟩ := List.any_eq_true.mp h
  cases act <;> simp_all [GuardAct.isRun]

/-- An interpreter that folds the case of ASCII letters, with the text itself as digest. -/
def plainPy : PyRuntime where
  lower text := text.map fun code => if 65 ≤ code ∧ code ≤ 90 then code + 32 else code
  stack := 1000
  maxStrDigits := 4300
  sha256 text := text.map UInt8.ofNat

def payFunction : GuardedFunction where
  contract := {
    actionName := "shop.pay"
    moduleName := "shop"
    qualifiedName := "pay"
    risk := "low"
    approvalMode := "never"
    contractHash := "hash" }

/-- A call without arguments. -/
def payCall (run : FunctionOutcome Nat) : Call Nat where
  heap := fun _ => ⟨pyText "builtins.NoneType", .none⟩
  arguments := some []
  verdict := none
  decisionEventID := "decision"
  outcomeEventID := "outcome"
  run := run

end Sdk
end Igris
