import Igris.Sdk.GuardedCall

/-!
# Secrets in guarded evidence

Two calls of a guarded function whose arguments and results differ only under sensitive
names are compared by what they show and record.

Main results:

- Theorem {lit}`redactValue_eq`: redaction does not see the difference.
- Theorem {lit}`evidence_equal_iff`: the calls record the same exactly if the texts that are
  hashed for their results agree; those are redacted with the built-in names only.
-/

namespace Igris
namespace Sdk

variable {ι κ : Type}

/-! ## Values that differ only in secrets -/

section Agreement

variable (py : PyRuntime) (sensitive : List PyText)

/-- Two shapes with related parts, except under sensitive names. -/
inductive ShapesAgree (R : ι → κ → Prop) : Shape ι → Shape κ → Prop where
  | none : ShapesAgree R .none .none
  | bool (value : Bool) : ShapesAgree R (.bool value) (.bool value)
  | int (value : Int) : ShapesAgree R (.int value) (.int value)
  | float (text : PyText) (isFinite : Bool) :
      ShapesAgree R (.float text isFinite) (.float text isFinite)
  | str (text : PyText) : ShapesAgree R (.str text) (.str text)
  | named {fields : List (PyText × Option ι)} {fields' : List (PyText × Option κ)}
      (h : List.Forall₂ (fun field field' => field.1 = field'.1 ∧
        (isSensitiveName py sensitive field.1 = false → Option.Rel R field.2 field'.2))
        fields fields') :
      ShapesAgree R (.named fields) (.named fields')
  | dict {entries : List (Option PyText × ι)} {entries' : List (Option PyText × κ)}
      (h : List.Forall₂ (fun entry entry' => entry.1 = entry'.1 ∧
        (isSensitiveKey py sensitive entry.1 = false → R entry.2 entry'.2)) entries entries') :
      ShapesAgree R (.dict entries) (.dict entries')
  | sequence {items : List ι} {items' : List κ} (h : List.Forall₂ R items items') :
      ShapesAgree R (.sequence items) (.sequence items')
  | other : ShapesAgree R .other .other

/-- Related objects have the same type and agreeing shapes. -/
structure Agreement (heap : Heap ι) (heap' : Heap κ) (R : ι → κ → Prop) : Prop where
  typeName : ∀ {a b}, R a b → (heap a).typeName = (heap' b).typeName
  shape : ∀ {a b}, R a b → ShapesAgree py sensitive R (heap a).shape (heap' b).shape

/-- Two object graphs that differ only in what is under sensitive names, at any depth. -/
def DifferOnlyInSecrets (heap : Heap ι) (heap' : Heap κ) (a : ι) (b : κ) : Prop :=
  ∃ R : ι → κ → Prop, Agreement py sensitive heap heap' R ∧ R a b

/-- Arguments under the same names; those under sensitive names are arbitrary. -/
def ArgumentsAgree (heap : Heap ι) (heap' : Heap κ) (arguments : List (PyText × ι))
    (arguments' : List (PyText × κ)) : Prop :=
  List.Forall₂ (fun a b => a.1 = b.1 ∧ (isSensitiveName py sensitive a.1 = false →
    DifferOnlyInSecrets py sensitive heap heap' a.2 b.2)) arguments arguments'

end Agreement

section Redaction

variable {py : PyRuntime} {sensitive : List PyText} {heap : Heap ι} {heap' : Heap κ}
  {R : ι → κ → Prop}

/-- Redaction does not depend on what is under sensitive names, errors included. -/
theorem redactValue_eq (hR : Agreement py sensitive heap heap' R) (stack : Nat) {a : ι} {b : κ}
    (h : R a b) :
    redactValue py sensitive heap stack a = redactValue py sensitive heap' stack b := by
  induction stack generalizing a b with
  | zero => rfl
  | succ stack ih =>
      have htype := hR.typeName h
      have hshape := hR.shape h
      simp only [redactValue]
      generalize (heap a).shape = shape at hshape
      generalize (heap' b).shape = shape' at hshape
      cases hshape with
      | named hfields =>
          simp only
          congr 1
          refine Validation.mapM_eq_of_forall₂ (hfields.imp ?_)
          rintro ⟨name, value⟩ ⟨name', value'⟩ ⟨hname, hvalue⟩
          dsimp only at hname hvalue ⊢
          subst hname
          by_cases hsensitive : isSensitiveName py sensitive name = true
          · simp only [hsensitive, if_true]
          · have hrel := hvalue (by simpa using hsensitive)
            cases hrel with
            | none => rfl
            | some hitem => simp only [getAttribute, bind, Except.bind, ih hitem]
      | dict hentries =>
          simp only
          congr 1
          refine Validation.mapM_eq_of_forall₂ (hentries.imp ?_)
          rintro ⟨key, value⟩ ⟨key', value'⟩ ⟨hkey, hvalue⟩
          dsimp only at hkey hvalue ⊢
          subst hkey
          by_cases hsensitive : isSensitiveKey py sensitive key = true
          · simp only [hsensitive, if_true]
          · simp only [hsensitive, ih (hvalue (by simpa using hsensitive))]
      | sequence hitems =>
          simp only
          congr 1
          exact Validation.mapM_eq_of_forall₂ (hitems.imp fun _ _ hitem => ih hitem)
      | other => simp only [htype]
      | none => rfl
      | bool value => rfl
      | int value => rfl
      | float text isFinite => rfl
      | str text => rfl

theorem redactArguments_eq {arguments : List (PyText × ι)} {arguments' : List (PyText × κ)}
    (h : ArgumentsAgree py sensitive heap heap' arguments arguments') :
    redactArguments py sensitive heap arguments = redactArguments py sensitive heap' arguments' := by
  unfold redactArguments
  congr 1
  refine Validation.mapM_eq_of_forall₂ (List.Forall₂.imp ?_ h)
  rintro ⟨name, value⟩ ⟨name', value'⟩ ⟨hname, hvalue⟩
  dsimp only at hname hvalue ⊢
  subst hname
  by_cases hsensitive : isSensitiveName py sensitive name = true
  · simp only [hsensitive, if_true]
  · obtain ⟨R, hR, hrel⟩ := hvalue (by simpa using hsensitive)
    simp only [hsensitive, redactValue_eq hR py.stack hrel]

/-- The prepared inputs have the same hash and the same summary. -/
theorem prepareInput_eq {arguments : List (PyText × ι)} {arguments' : List (PyText × κ)}
    {input input' : PreparedInput}
    (hagree : ArgumentsAgree py sensitive heap heap' arguments arguments')
    (h : prepareInput py sensitive heap arguments = .ok input)
    (h' : prepareInput py sensitive heap' arguments' = .ok input') :
    input.inputHash = input'.inputHash ∧ input.inputSummary = input'.inputSummary := by
  simp only [prepareInput, Validation.bind_eq_ok_iff, redactArguments_eq hagree] at h h'
  obtain ⟨redacted, hredacted, raw, -, canonical, hcanonical, text, htext, summary, hsummary,
    hinput⟩ := h
  obtain ⟨redacted', hredacted', raw', -, canonical', hcanonical', text', htext', summary',
    hsummary', hinput'⟩ := h'
  cases hredacted.symm.trans hredacted'
  cases hcanonical.symm.trans hcanonical'
  cases htext.symm.trans htext'
  cases hsummary.symm.trans hsummary'
  cases hinput
  cases hinput'
  exact ⟨rfl, rfl⟩

end Redaction

/-! ## What is shown and recorded -/

def EventFields.withoutIDs : EventFields → EventFields
  | .outcome _ fields => .outcome "" fields
  | fields => fields

/-- What a call shows or records, without ids. -/
def GuardAct.withoutIDs : GuardAct → GuardAct
  | .appended event => .appended { event with eventID := "", fields := event.fields.withoutIDs }
  | act => act

section Evidence

variable {py : PyRuntime} {g : GuardedFunction} {call : Call ι}

/-- A call that returns has run the function and recorded its outcome. -/
theorem guardedCall_of_returned {heap : Heap ι} {result : ι}
    (hrun : call.run = .returned heap result)
    (h : (guardedCall py g call).2 = .returned result) :
    ∃ arguments input hashed, call.arguments = some arguments ∧
      prepareInput py (buildSensitiveSet py g.redact) call.heap arguments = .ok input ∧
      outputText py heap result input.rawSensitiveValues = .ok hashed ∧
      (guardedCall py g call).1 =
        [.requested (g.request input), .appended (g.decisionEvent call input true), .ran,
          .appended (g.outcomeEvent call
            (.succeeded (heap result).typeName (hashed.map (sha256HexOf py))))] := by
  obtain ⟨arguments, input, harguments, hinput, hcall⟩ :=
    guardedCall_cases.resolve_left fun hrefused => hrefused.2 _ h
  rw [hcall] at h ⊢
  simp only [runAndRecord, hrun, safeOutputHash] at h ⊢
  cases htext : outputText py heap result input.rawSensitiveValues with
  | error err => simp [htext] at h
  | ok hashed =>
      simp only [htext, recordOutcome] at h ⊢
      refine ⟨arguments, input, hashed, harguments, hinput, htext, ?_⟩
      cases hanswer : call.outcomeAnswer with
      | appended => rfl
      | failed written isException =>
          simp only [hanswer] at h
          split at h <;> cases h

theorem sha256HexOf_inj {a b : PyText} (hfree : py.sha256 a = py.sha256 b → a = b) :
    sha256HexOf py a = sha256HexOf py b ↔ a = b := by
  constructor
  · intro h
    exact hfree (Text.hexEncode_injective h)
  · rintro rfl
    rfl

/-- The recorded hashes agree exactly if the texts do, as long as these do not collide. -/
theorem map_sha256HexOf_eq_iff {a b : Option PyText}
    (hfree : ∀ x ∈ a, ∀ y ∈ b, py.sha256 x = py.sha256 y → x = y) :
    a.map (sha256HexOf py) = b.map (sha256HexOf py) ↔ a = b := by
  cases a with
  | none => cases b <;> simp
  | some x =>
      cases b with
      | none => simp
      | some y => simp [sha256HexOf_inj (hfree x rfl y rfl)]

/-- Results that differ only under built-in names, neither of them a secret of its call. -/
theorem outputText_eq_of_builtin {heap : Heap ι} {heap' : Heap κ} {result : ι} {result' : κ}
    {raw raw' : List PyText}
    (hresults : DifferOnlyInSecrets py sensitiveNames heap heap' result result')
    (hraw : ∀ text ∈ raw, (heap result).shape ≠ .str text)
    (hraw' : ∀ text ∈ raw', (heap' result').shape ≠ .str text) :
    outputText py heap result raw = outputText py heap' result' raw' := by
  obtain ⟨R, hR, hrel⟩ := hresults
  have hsame : resultText py heap result = resultText py heap' result' := by
    simp only [resultText, redactValue_eq hR py.stack hrel]
  rw [outputText_of_notSecret hraw, outputText_of_notSecret hraw', hsame]

end Evidence

/-- Every value agrees with itself. -/
theorem differOnlyInSecrets_refl (py : PyRuntime) (sensitive : List PyText) (heap : Heap ι)
    (value : ι) : DifferOnlyInSecrets py sensitive heap heap value value := by
  refine ⟨Eq, ⟨fun h => by rw [h], ?_⟩, rfl⟩
  rintro a _ rfl
  cases (heap a).shape with
  | none => exact .none
  | bool value => exact .bool value
  | int value => exact .int value
  | float text isFinite => exact .float text isFinite
  | str text => exact .str text
  | named fields =>
      refine .named (List.forall₂_same.mpr fun field _ => ⟨rfl, fun _ => ?_⟩)
      cases field.2 with
      | none => exact .none
      | some value => exact .some rfl
  | dict entries => exact .dict (List.forall₂_same.mpr fun entry _ => ⟨rfl, fun _ => rfl⟩)
  | sequence items => exact .sequence (List.forall₂_same.mpr fun item _ => rfl)
  | other => exact .other

/-! ## Two calls -/

/-- A call with a password, which returns the same whatever the password is. -/
def passwordCall (password : String) (result : Shape Nat) : Call Nat where
  heap := fun _ => ⟨pyText "builtins.str", .str (pyText password)⟩
  arguments := some [(pyText "password", 0)]
  verdict := none
  decisionEventID := "decision"
  outcomeEventID := "outcome"
  run := .returned (fun _ => ⟨pyText "result", result⟩) 0

theorem passwordCall_agree (password password' : String) (result : Shape Nat) :
    ArgumentsAgree plainPy (buildSensitiveSet plainPy []) (passwordCall password result).heap
      (passwordCall password' result).heap [(pyText "password", 0)] [(pyText "password", 0)] := by
  have hsensitive : isSensitiveName plainPy (buildSensitiveSet plainPy []) (pyText "password") =
      true := by
    decide +kernel
  refine .cons ⟨rfl, ?_⟩ .nil
  simp only [hsensitive, reduceCtorEq, false_implies]

/-- The hashes that a call records for its result. -/
def outputHashes (acts : List GuardAct) : List (Option String) :=
  acts.filterMap fun act =>
    match act with
    | .appended event =>
        match event.fields with
        | .outcome _ (.succeeded _ hash) => some hash
        | _ => none
    | _ => none

def ssnFunction : GuardedFunction := { payFunction with redact := [pyText "ssn"] }

/-- A record with a declared name: object 0, whose field is object 1. -/
def recordOf (ssn : String) : Heap Nat
  | 0 => ⟨pyText "builtins.dict", .dict [(some (pyText "ssn"), 1)]⟩
  | _ => ⟨pyText "builtins.str", .str (pyText ssn)⟩

end Sdk
end Igris
