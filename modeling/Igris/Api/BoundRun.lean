import Igris.Api.EvidenceVerify
import Igris.Lib.Numbers
import Igris.Lib.Rounding
import Igris.Lib.Signature
import Igris.Lib.Validation

/-!
# Bound runs

A contract is bound to a target with a mapping from its parameters to fields of the target.
A run by name decodes the input of the caller, checks it against the parameters, renames
the fields and sends them as the body; the body together with the binding is the
fingerprint of the request.  The decoder reads numbers as 64-bit floating-point numbers.

Main results:

- Theorem {lit}`mapBoundActionInput_get`: the body has the decoded values under the mapped
  names and nothing else.
- Theorem {lit}`bound_runs_iff`: the values arrive exactly if every number survives the
  decoder, and fingerprints agree exactly if the bindings and the decoded inputs do.
-/

namespace Igris
namespace BoundRun

open Json Validation

/-! ## Bindings -/

structure ContractParameterDescriptor where
  name : String
  hasDefault : Bool := false
  annotation : Option String := none

/-- A map from parameters to fields. -/
structure InputMapping where
  entries : List (String × String)
  nodup : (entries.map Prod.fst).Nodup

/-- The field of a parameter; the empty text if there is none. -/
def InputMapping.target (mapping : InputMapping) (name : String) : String :=
  (Assoc.get mapping.entries name).getD ""

inductive MappingError where
  | wrongLength
  | missingMapping (parameter : String)
  | invalidTarget (field : String)
  | mappedTwice (field : String)
  | unknownParameter (parameter : String)
deriving DecidableEq, Repr

/-- The loop over the parameters, with the fields that were seen. -/
def validateTargets (mapping : InputMapping) :
    List ContractParameterDescriptor → List String → Except MappingError Unit
  | [], _ => .ok ()
  | descriptor :: descriptors, targetFields => do
      let targetField := Text.trimSpace (mapping.target descriptor.name)
      require (decide (targetField ≠ "")) (.missingMapping descriptor.name)
      require (Evidence.isActionName targetField) (.invalidTarget targetField)
      require (decide (targetField ∉ targetFields)) (.mappedTwice targetField)
      validateTargets mapping descriptors (targetField :: targetFields)

def validateContractInputMapping (descriptors : List ContractParameterDescriptor)
    (mapping : InputMapping) : Except MappingError Unit := do
  require (decide (mapping.entries.length = descriptors.length)) .wrongLength
  validateTargets mapping descriptors []
  match mapping.entries.find? fun entry =>
      descriptors.all fun descriptor => decide (entry.1 ≠ descriptor.name) with
  | some entry => .error (.unknownParameter entry.1)
  | none => .ok ()

/-- A binding with the parameters of its contract version. -/
structure Binding where
  id : String
  contractHash : String
  descriptors : List ContractParameterDescriptor
  mapping : InputMapping
  targetURL : String
  method : String
  timeoutMs : Nat

/-! ## Numbers of the Go library -/

/-- How the library reads and writes numbers. -/
structure GoNumbers where
  /-- The literal that is written for what a literal is read as; {lit}`none` if it is out of
  range. -/
  text : String → Option String
  text_isNumber : ∀ literal written, text literal = some written →
    isNumberLiteral written.toList = true
  /-- The number is the same after a conversion to a 64-bit integer and back. -/
  isInt64 : String → Bool

/-- The members of an object, in the order of their names. -/
abbrev InputObject : Type := { members : List (String × Json) // Ordered (.object members) }

def GoNumbers.rounded (go : GoNumbers) (literal : String) : String :=
  (go.text literal).getD literal

/-- Decode the input of a request. -/
def GoNumbers.decode (go : GoNumbers) (input : InputObject) : Option InputObject :=
  if (literals (.object input.1)).all fun literal => (go.text literal).isSome then
    some ⟨mapNumbersMembers go.rounded input.1, input.2.mapNumbers⟩
  else none

/-! ## Runs -/

inductive RunError where
  | invalidBody
  | unexpectedField (name : String)
  | missingField (name : String)
  | incompatible (name annotation : String)
  | targetURLRefused
  | authHeaders
deriving DecidableEq, Repr

/-- What the annotation of a parameter requires; an unknown one requires nothing. -/
def annotationAccepts (go : GoNumbers) (expected : String) (value : Json) : Bool :=
  if expected ∈ ["str", "string", "<class 'str'>"] then
    match value with
    | .string _ => true
    | _ => false
  else if expected ∈ ["int", "integer", "<class 'int'>"] then
    match value with
    | .number literal => go.isInt64 literal
    | _ => false
  else if expected ∈ ["float", "number", "<class 'float'>"] then
    match value with
    | .number _ => true
    | _ => false
  else if expected ∈ ["bool", "boolean", "<class 'bool'>"] then
    match value with
    | .bool _ => true
    | _ => false
  else if expected ∈ ["dict", "object", "<class 'dict'>"] then
    match value with
    | .object _ => true
    | _ => false
  else if expected ∈ ["list", "array", "<class 'list'>"] then
    match value with
    | .array _ => true
    | _ => false
  else true

def validateBoundParameterType (go : GoNumbers) (descriptor : ContractParameterDescriptor)
    (value : Json) : Except RunError Unit :=
  match descriptor.annotation with
  | none => .ok ()
  | some annotation =>
      let normalized := Text.toLower (Text.trimSpace annotation)
      require (decide (Text.trimSpace annotation = "") || annotationAccepts go normalized value)
        (.incompatible descriptor.name annotation)

/-- The loop over the parameters, with the fields that are mapped so far. -/
def mapParameters (go : GoNumbers) (mapping : InputMapping) (input : List (String × Json)) :
    List ContractParameterDescriptor → List (String × Json) →
      Except RunError (List (String × Json))
  | [], mapped => .ok mapped
  | descriptor :: descriptors, mapped =>
      match Assoc.get input descriptor.name with
      | none =>
          if descriptor.hasDefault then mapParameters go mapping input descriptors mapped
          else .error (.missingField descriptor.name)
      | some value => do
          validateBoundParameterType go descriptor value
          mapParameters go mapping input descriptors
            (Assoc.insert (mapping.target descriptor.name) value mapped)

def mapBoundActionInput (go : GoNumbers) (descriptors : List ContractParameterDescriptor)
    (mapping : InputMapping) (input : List (String × Json)) :
    Except RunError (List (String × Json)) :=
  match input.find? fun member =>
      descriptors.all fun descriptor => decide (member.1 ≠ descriptor.name) with
  | some member => .error (.unexpectedField member.1)
  | none => mapParameters go mapping input descriptors []

structure BoundActionRun where
  url : String
  method : String
  body : String
  headers : List (String × String)
  timeoutMs : Nat
  requestFingerprint : String

/-- The document whose digest is the fingerprint. -/
def fingerprintDocument (binding : Binding) (mapped : List (String × Json)) : Json :=
  .object [("binding_id", .string binding.id), ("contract_hash", .string binding.contractHash),
    ("input", .object mapped)]

/-- Build the run; whether the target is allowed and the headers for its authorization are
decided elsewhere. -/
def buildBoundActionRunRequest (go : GoNumbers) (sha256 : String → List UInt8)
    (targetAllowed : String → Bool) (authHeaders : Option (List (String × String)))
    (binding : Binding) (input : InputObject) (idempotencyKey : String) :
    Except RunError BoundActionRun :=
  match go.decode input with
  | none => .error .invalidBody
  | some decoded => do
      let mapped ← mapBoundActionInput go binding.descriptors binding.mapping decoded.1
      require (targetAllowed binding.targetURL) .targetURLRefused
      match authHeaders with
      | none => .error .authHeaders
      | some headers => return {
          url := binding.targetURL
          method := binding.method
          body := goText (.object mapped)
          headers := Assoc.insert "Idempotency-Key" idempotencyKey headers
          timeoutMs := binding.timeoutMs
          requestFingerprint := sha256Hex sha256 (goText (fingerprintDocument binding mapped)) }

/-! ## Renaming -/

section Renaming

variable {go : GoNumbers} {descriptors : List ContractParameterDescriptor}
  {mapping : InputMapping} {input mapped result : List (String × Json)}

theorem validateTargets_nodup {targetFields : List String}
    (h : validateTargets mapping descriptors targetFields = .ok ()) :
    (descriptors.map fun d => Text.trimSpace (mapping.target d.name)).Nodup ∧
      ∀ d ∈ descriptors, Text.trimSpace (mapping.target d.name) ∉ targetFields := by
  induction descriptors generalizing targetFields with
  | nil => simp
  | cons descriptor descriptors ih =>
      simp only [validateTargets, require_bind_eq_ok_iff, decide_eq_true_eq] at h
      obtain ⟨-, -, hfresh, hrest⟩ := h
      obtain ⟨hnodup, hnotMem⟩ := ih hrest
      simp only [List.map_cons, List.nodup_cons, List.mem_map, List.mem_cons, not_exists, not_and]
      refine ⟨⟨?_, hnodup⟩, ?_⟩
      · intro d hd heq
        exact hnotMem d hd (heq ▸ List.mem_cons_self)
      · rintro d (rfl | hd)
        · exact hfresh
        · exact fun hmem => hnotMem d hd (List.mem_cons_of_mem _ hmem)

/-- An accepted mapping has a field of its own for every parameter. -/
theorem targets_nodup (h : validateContractInputMapping descriptors mapping = .ok ()) :
    (descriptors.map fun d => mapping.target d.name).Nodup := by
  rw [validateContractInputMapping, require_bind_eq_ok_iff, bind_eq_ok_iff] at h
  obtain ⟨-, _, htargets, -⟩ := h
  have hnodup := (validateTargets_nodup htargets).1
  refine List.Nodup.of_map Text.trimSpace ?_
  rwa [List.map_map]

/-- The fields that the parameters put into the body. -/
def renamed (mapping : InputMapping) (input : List (String × Json))
    (descriptors : List ContractParameterDescriptor) : List (String × Json) :=
  descriptors.filterMap fun d => (Assoc.get input d.name).map fun value =>
    (mapping.target d.name, value)

theorem mapParameters_eq (h : mapParameters go mapping input descriptors mapped = .ok result) :
    result = Assoc.insertAll (renamed mapping input descriptors) mapped := by
  induction descriptors generalizing mapped with
  | nil => simpa [mapParameters, renamed, Assoc.insertAll] using h.symm
  | cons descriptor descriptors ih =>
      cases hvalue : Assoc.get input descriptor.name with
      | none =>
          simp only [mapParameters, hvalue] at h
          split at h
          · simpa [renamed, hvalue] using ih h
          · cases h
      | some value =>
          simp only [mapParameters, hvalue, bind_eq_ok_iff] at h
          obtain ⟨_, -, hrest⟩ := h
          simpa [renamed, hvalue, Assoc.insertAll] using ih hrest

theorem keys_renamed_sublist :
    ((renamed mapping input descriptors).map Prod.fst).Sublist
      (descriptors.map fun d => mapping.target d.name) := by
  induction descriptors with
  | nil => simp [renamed]
  | cons descriptor descriptors ih =>
      cases hvalue : Assoc.get input descriptor.name with
      | none =>
          simp only [renamed, List.filterMap_cons, hvalue, Option.map_none, List.map_cons]
          exact ih.cons _
      | some value =>
          simp only [renamed, List.filterMap_cons, hvalue, Option.map_some, List.map_cons]
          exact ih.cons_cons _

theorem mem_keys_renamed {field : String} :
    field ∈ (renamed mapping input descriptors).map Prod.fst ↔
      ∃ d ∈ descriptors, mapping.target d.name = field ∧ (Assoc.get input d.name).isSome := by
  simp only [renamed, List.mem_map, List.mem_filterMap, Option.map_eq_some_iff]
  constructor
  · rintro ⟨_, ⟨d, hd, value, hvalue, rfl⟩, rfl⟩
    exact ⟨d, hd, rfl, by simp [hvalue]⟩
  · rintro ⟨d, hd, rfl, hsome⟩
    obtain ⟨value, hvalue⟩ := Option.isSome_iff_exists.mp hsome
    exact ⟨_, ⟨d, hd, value, hvalue, rfl⟩, rfl⟩

/-- Under the field of a parameter is what the input has for the parameter, and nothing is
under other fields. -/
theorem mapBoundActionInput_get
    (hvalid : validateContractInputMapping descriptors mapping = .ok ())
    (h : mapBoundActionInput go descriptors mapping input = .ok result) :
    (∀ d ∈ descriptors, Assoc.get result (mapping.target d.name) = Assoc.get input d.name) ∧
      (∀ field, (∀ d ∈ descriptors, mapping.target d.name ≠ field) →
        Assoc.get result field = none) := by
  have hnodup := targets_nodup hvalid
  unfold mapBoundActionInput at h
  split at h
  · cases h
  · rw [mapParameters_eq h]
    constructor
    · intro d hd
      cases hvalue : Assoc.get input d.name with
      | some value =>
          refine Assoc.get_insertAll_of_nodup (keys_renamed_sublist.nodup hnodup) ?_
          simp only [renamed, List.mem_filterMap]
          exact ⟨d, hd, by simp [hvalue]⟩
      | none =>
          refine Assoc.get_insertAll_of_notMem ?_
          rw [mem_keys_renamed]
          rintro ⟨d', hd', htarget, hsome⟩
          have hsame := List.inj_on_of_nodup_map hnodup hd' hd htarget
          simp [hsame, hvalue] at hsome
    · intro field hfield
      refine Assoc.get_insertAll_of_notMem ?_
      rw [mem_keys_renamed]
      rintro ⟨d, hd, htarget, -⟩
      exact hfield d hd htarget

/-- Every field of an accepted input is a parameter. -/
theorem known_of_mapBoundActionInput
    (h : mapBoundActionInput go descriptors mapping input = .ok result) {member : String × Json}
    (hmember : member ∈ input) : ∃ d ∈ descriptors, member.1 = d.name := by
  unfold mapBoundActionInput at h
  split at h
  · cases h
  · rename_i hfind
    have hnot := List.find?_eq_none.mp hfind member hmember
    simpa using hnot

theorem sorted_of_mapBoundActionInput
    (h : mapBoundActionInput go descriptors mapping input = .ok result) :
    Assoc.Sorted result := by
  unfold mapBoundActionInput at h
  split at h
  · cases h
  · rw [mapParameters_eq h]
    exact Assoc.Sorted.insertAll List.Pairwise.nil _

/-- Every value of the body is one of the input. -/
theorem mem_of_mapBoundActionInput
    (h : mapBoundActionInput go descriptors mapping input = .ok result) {member : String × Json}
    (hmember : member ∈ result) : ∃ key, (key, member.2) ∈ input := by
  unfold mapBoundActionInput at h
  split at h
  · cases h
  · rw [mapParameters_eq h] at hmember
    rcases Assoc.mem_insertAll hmember with hnew | hold
    · simp only [renamed, List.mem_filterMap, Option.map_eq_some_iff] at hnew
      obtain ⟨d, -, value, hvalue, rfl⟩ := hnew
      exact ⟨d.name, Assoc.mem_of_get hvalue⟩
    · simp at hold

end Renaming

/-! ## What arrives -/

section Arrival

variable {go : GoNumbers} {binding binding' : Binding} {input input' : InputObject}

/-- Every number of the input survives the decoder. -/
def Exact (go : GoNumbers) (input : InputObject) : Prop :=
  ∀ literal ∈ literals (.object input.1), decimal literal = decimal (go.rounded literal)

/-- The body is an object that has the values of the input under the mapped names and nothing
else. -/
def Carries (binding : Binding) (input : InputObject) (body : String) : Prop :=
  ∃ parsed, parse false body.toList = some (.object parsed) ∧
    (∀ d ∈ binding.descriptors, Option.Rel SameValue (Assoc.get input.1 d.name)
      (Assoc.get parsed (binding.mapping.target d.name))) ∧
    ∀ field, (∀ d ∈ binding.descriptors, binding.mapping.target d.name ≠ field) →
      Assoc.get parsed field = none

variable {decoded : InputObject} {mapped : List (String × Json)}

theorem decode_eq_some (h : go.decode input = some decoded) :
    (∀ literal ∈ literals (.object input.1), (go.text literal).isSome) ∧
      decoded.1 = mapNumbersMembers go.rounded input.1 := by
  unfold GoNumbers.decode at h
  split at h
  · rename_i hall
    obtain rfl := Option.some.inj h
    exact ⟨by simpa using hall, rfl⟩
  · cases h

/-- The decoder leaves numbers that are JSON. -/
theorem numeric_of_decode (h : go.decode input = some decoded) :
    ∀ literal ∈ literalsOfMembers decoded.1, isNumberLiteral literal.toList = true := by
  obtain ⟨hsome, hdecoded⟩ := decode_eq_some h
  have hliterals : literalsOfMembers (mapNumbersMembers go.rounded input.1) =
      (literalsOfMembers input.1).map go.rounded := literals_mapNumbers (.object input.1)
  rw [hdecoded, hliterals]
  intro written hwritten
  obtain ⟨literal, hmem, rfl⟩ := List.mem_map.mp hwritten
  obtain ⟨written, htext⟩ := Option.isSome_iff_exists.mp (hsome literal hmem)
  rw [GoNumbers.rounded, htext]
  exact go.text_isNumber literal written htext

variable {descriptors : List ContractParameterDescriptor} {mapping : InputMapping}

theorem ordered_mapped (h : mapBoundActionInput go descriptors mapping input.1 = .ok mapped) :
    Ordered (.object mapped) := by
  refine .object (sorted_of_mapBoundActionInput h) ?_
  intro member hmember
  obtain ⟨key, hmem⟩ := mem_of_mapBoundActionInput h hmember
  cases input.2 with
  | object _ hall => exact hall (key, member.2) hmem

theorem numeric_mapped (hdecode : go.decode input = some decoded)
    (h : mapBoundActionInput go descriptors mapping decoded.1 = .ok mapped) :
    Numeric (.object mapped) := by
  intro literal hliteral
  obtain ⟨member, hmember, hmem⟩ := mem_literalsOfMembers.mp hliteral
  obtain ⟨key, hinput⟩ := mem_of_mapBoundActionInput h hmember
  exact numeric_of_decode hdecode literal (mem_literalsOfMembers.mpr ⟨_, hinput, hmem⟩)

/-- What a run is made of. -/
theorem exists_of_build {sha256 : String → List UInt8} {targetAllowed : String → Bool}
    {authHeaders : Option (List (String × String))} {idempotencyKey : String}
    {run : BoundActionRun}
    (h : buildBoundActionRunRequest go sha256 targetAllowed authHeaders binding input
      idempotencyKey = .ok run) :
    ∃ decoded mapped, go.decode input = some decoded ∧
      mapBoundActionInput go binding.descriptors binding.mapping decoded.1 = .ok mapped ∧
      run.body = goText (.object mapped) ∧
      run.requestFingerprint = sha256Hex sha256 (goText (fingerprintDocument binding mapped)) := by
  unfold buildBoundActionRunRequest at h
  cases hdecode : go.decode input with
  | none => simp [hdecode] at h
  | some decoded =>
      simp only [hdecode, bind_eq_ok_iff] at h
      obtain ⟨mapped, hmapped, _, -, hrun⟩ := h
      cases authHeaders with
      | none => cases hrun
      | some headers =>
          cases hrun
          exact ⟨decoded, mapped, rfl, hmapped, rfl, rfl⟩

theorem parse_goText {value : Json} (hordered : Ordered value) (hnumeric : Numeric value) :
    parse false (goText value).toList = some value := by
  rw [goText, String.toList_ofList, parse_print scans_goEscape false hnumeric, hordered.normal]

theorem sorted_input (input : InputObject) : Assoc.Sorted input.1 := input.2.sorted

theorem carries_iff_exact
    (hvalid : validateContractInputMapping binding.descriptors binding.mapping = .ok ())
    (hdecode : go.decode input = some decoded)
    (hmapped : mapBoundActionInput go binding.descriptors binding.mapping decoded.1 = .ok mapped) :
    Carries binding input (goText (.object mapped)) ↔ Exact go input := by
  obtain ⟨-, hdecoded⟩ := decode_eq_some hdecode
  obtain ⟨hfields, hothers⟩ := mapBoundActionInput_get hvalid hmapped
  have hparse := parse_goText (ordered_mapped hmapped) (numeric_mapped hdecode hmapped)
  -- under the field of a parameter is the decoded value
  have hfield (d : ContractParameterDescriptor) (hd : d ∈ binding.descriptors) :
      Assoc.get mapped (binding.mapping.target d.name) =
        (Assoc.get input.1 d.name).map (mapNumbers go.rounded) := by
    rw [hfields d hd, hdecoded, get_mapNumbersMembers]
  constructor
  · rintro ⟨parsed, hparsed, hvalues, -⟩ literal hliteral
    rw [hparse] at hparsed
    cases hparsed
    obtain ⟨member, hmember, hmem⟩ := mem_literalsOfMembers.mp hliteral
    have hmemberDecoded : (member.1, mapNumbers go.rounded member.2) ∈ decoded.1 := by
      rw [hdecoded, mapNumbersMembers_eq_map]
      exact List.mem_map.mpr ⟨member, hmember, rfl⟩
    obtain ⟨d, hd, hname⟩ := known_of_mapBoundActionInput hmapped hmemberDecoded
    have hget : Assoc.get input.1 d.name = some member.2 :=
      (sorted_input input).get_of_mem (by rw [← hname]; exact hmember)
    have hrel := hvalues d hd
    rw [hfield d hd, hget, Option.map_some] at hrel
    cases hrel with
    | some hsame => exact (sameValue_mapNumbers_iff _ _).1 hsame literal hmem
  · intro hexact
    refine ⟨mapped, hparse, ?_, hothers⟩
    intro d hd
    rw [hfield d hd]
    cases hget : Assoc.get input.1 d.name with
    | none => exact .none
    | some value =>
        refine .some ((sameValue_mapNumbers_iff _ _).2 ?_)
        intro literal hmem
        exact hexact literal (mem_literalsOfMembers.mpr ⟨_, Assoc.mem_of_get hget, hmem⟩)

theorem ordered_fingerprintDocument (h : Ordered (.object mapped)) :
    Ordered (fingerprintDocument binding mapped) := by
  refine .object ?_ ?_
  · rw [Assoc.sorted_iff_keys]
    simp only [List.map_cons, List.map_nil]
    decide +kernel
  · intro member hmember
    simp only [List.mem_cons, List.not_mem_nil, or_false] at hmember
    rcases hmember with rfl | rfl | rfl
    · exact .string _
    · exact .string _
    · exact h

theorem numeric_fingerprintDocument (h : Numeric (.object mapped)) :
    Numeric (fingerprintDocument binding mapped) := by
  intro literal hliteral
  refine h literal ?_
  simpa [fingerprintDocument, literals, literalsOfMembers] using hliteral

/-- The digested document determines the binding and the body. -/
theorem goText_fingerprintDocument_inj {mapped mapped' : List (String × Json)}
    (hordered : Ordered (.object mapped)) (hordered' : Ordered (.object mapped'))
    (hnumeric : Numeric (.object mapped)) (hnumeric' : Numeric (.object mapped'))
    (h : goText (fingerprintDocument binding mapped) =
      goText (fingerprintDocument binding' mapped')) :
    binding.id = binding'.id ∧ binding.contractHash = binding'.contractHash ∧ mapped = mapped' := by
  have hsame := print_inj scans_goEscape (ordered_fingerprintDocument hordered)
    (ordered_fingerprintDocument hordered') (numeric_fingerprintDocument hnumeric)
    (numeric_fingerprintDocument hnumeric') (String.ofList_inj.mp h)
  simpa [fingerprintDocument] using hsame

/-- With one mapping the body determines the decoded input. -/
theorem decoded_eq_of_mapped_eq
    (hvalid : validateContractInputMapping descriptors mapping = .ok ())
    (h : mapBoundActionInput go descriptors mapping input.1 = .ok mapped)
    (h' : mapBoundActionInput go descriptors mapping input'.1 = .ok mapped) : input = input' := by
  have hfields := (mapBoundActionInput_get hvalid h).1
  have hfields' := (mapBoundActionInput_get hvalid h').1
  refine Subtype.ext ((sorted_input input).ext (sorted_input input') ?_)
  intro key
  by_cases hknown : ∃ d ∈ descriptors, key = d.name
  · obtain ⟨d, hd, rfl⟩ := hknown
    rw [← hfields d hd, ← hfields' d hd]
  · have hnone {other : InputObject}
        (hother : mapBoundActionInput go descriptors mapping other.1 = .ok mapped) :
        Assoc.get other.1 key = none := by
      cases hget : Assoc.get other.1 key with
      | none => rfl
      | some value =>
          exact absurd (known_of_mapBoundActionInput hother (Assoc.mem_of_get hget)) hknown
    rw [hnone h, hnone h']

theorem sameValue_of_exact (hdecode : go.decode input = some decoded) (hexact : Exact go input) :
    SameValue (.object input.1) (.object decoded.1) := by
  rw [(decode_eq_some hdecode).2]
  exact (sameValue_mapNumbers_iff go.rounded (.object input.1)).2 hexact

end Arrival

/-- Two runs over accepted mappings, where an identifier belongs to one binding.  A body
carries what its caller gave exactly if every number of the input survives the decoder.  The
fingerprints agree exactly if the bindings and the decoded inputs do; for inputs whose
numbers survive, these then are the same values. -/
theorem bound_runs_iff (go : GoNumbers) (sha256 : String → List UInt8)
    (hsha256 : Function.Injective sha256) (targetAllowed : String → Bool)
    (authHeaders authHeaders' : Option (List (String × String)))
    (binding binding' : Binding) (hid : binding.id = binding'.id → binding = binding')
    (hvalid : validateContractInputMapping binding.descriptors binding.mapping = .ok ())
    (input input' : InputObject) (idempotencyKey idempotencyKey' : String)
    (run run' : BoundActionRun)
    (hrun : buildBoundActionRunRequest go sha256 targetAllowed authHeaders binding input
      idempotencyKey = .ok run)
    (hrun' : buildBoundActionRunRequest go sha256 targetAllowed authHeaders' binding' input'
      idempotencyKey' = .ok run') :
    (Carries binding input run.body ↔ Exact go input) ∧
    (run.requestFingerprint = run'.requestFingerprint ↔
      binding = binding' ∧ go.decode input = go.decode input') ∧
    (Exact go input → Exact go input' → run.requestFingerprint = run'.requestFingerprint →
      binding = binding' ∧ SameValue (.object input.1) (.object input'.1)) := by
  obtain ⟨decoded, mapped, hdecode, hmapped, hbody, hfingerprint⟩ := exists_of_build hrun
  obtain ⟨decoded', mapped', hdecode', hmapped', -, hfingerprint'⟩ := exists_of_build hrun'
  have hiff : run.requestFingerprint = run'.requestFingerprint ↔
      binding = binding' ∧ go.decode input = go.decode input' := by
    rw [hfingerprint, hfingerprint', hdecode, hdecode']
    constructor
    · intro hsame
      have htext := hsha256 (Text.hexEncode_injective hsame)
      obtain ⟨hsameID, -, hsameMapped⟩ := goText_fingerprintDocument_inj (ordered_mapped hmapped)
        (ordered_mapped hmapped') (numeric_mapped hdecode hmapped)
        (numeric_mapped hdecode' hmapped') htext
      obtain rfl := hid hsameID
      subst hsameMapped
      exact ⟨rfl, by rw [decoded_eq_of_mapped_eq hvalid hmapped hmapped']⟩
    · rintro ⟨rfl, hsame⟩
      cases hsame
      cases hmapped.symm.trans hmapped'
      rfl
  refine ⟨?_, hiff, ?_⟩
  · rw [hbody]
    exact carries_iff_exact hvalid hdecode hmapped
  · intro hexact hexact' hsame
    obtain ⟨hbinding, hdecoded⟩ := hiff.1 hsame
    rw [hdecode, hdecode'] at hdecoded
    cases hdecoded
    exact ⟨hbinding, (sameValue_of_exact hdecode hexact).trans
      (sameValue_of_exact hdecode' hexact').symm⟩

/-- Whole numbers without a sign: they are rounded to 53 bits. -/
def wholeNumbers : GoNumbers where
  text literal :=
    let written := (Rounding.roundBits 53 (digitsValue literal.toList)).repr
    if literal.toList.all isDigit && isNumberLiteral written.toList then some written else none
  text_isNumber := by
    intro literal written h
    dsimp only at h
    split at h
    · rename_i hboth
      cases h
      exact (Bool.and_eq_true_iff.mp hboth).2
    · cases h
  isInt64 _ := true

/-- One parameter, which the target calls otherwise. -/
def paymentBinding : Binding where
  id := "binding"
  contractHash := "hash"
  descriptors := [{ name := "amount", annotation := some "int" }]
  mapping := ⟨[("amount", "total")], by simp⟩
  targetURL := "https://shop.example/pay"
  method := "POST"
  timeoutMs := 1000

def amountInput (literal : String) : InputObject :=
  ⟨[("amount", .number literal)], .object (List.pairwise_singleton _ _) (by
    intro member hmember
    rw [List.mem_singleton.mp hmember]
    exact .number literal)⟩

def paymentRun (literal : String) : Except RunError BoundActionRun :=
  buildBoundActionRunRequest wholeNumbers (default : Signing).sha256 (fun _ => true) (some [])
    paymentBinding (amountInput literal) "key"

theorem sha256_default_injective : Function.Injective (default : Signing).sha256 := by
  intro a b h
  have hverify := ((default : Signing).verify_sign_iff a b).1
  refine hverify ?_
  rw [h]
  exact ((default : Signing).verify_sign_iff b b).2 rfl

/-- A small amount arrives. -/
theorem small_amount_carried :
    ∃ run, paymentRun "5" = .ok run ∧ Carries paymentBinding (amountInput "5") run.body := by
  have hvalid : validateContractInputMapping paymentBinding.descriptors paymentBinding.mapping =
      .ok () := by
    decide +kernel
  obtain ⟨run, hrun⟩ : ∃ run, paymentRun "5" = .ok run := ⟨_, rfl⟩
  refine ⟨run, hrun, ?_⟩
  refine (bound_runs_iff wholeNumbers (default : Signing).sha256 sha256_default_injective
    (fun _ => true) (some []) (some []) paymentBinding paymentBinding (fun _ => rfl) hvalid
    (amountInput "5") (amountInput "5") "key" "key" run run hrun hrun).1.2 ?_
  intro literal hliteral
  obtain rfl : literal = "5" := by simpa [amountInput, literals, literalsOfMembers] using hliteral
  decide +kernel

/-- An amount beyond 53 bits: another amount is sent, and it is the amount of another request
with the same fingerprint. -/
theorem large_amount_rounded :
    (paymentRun "9007199254740993").toOption.map BoundActionRun.body =
        some "\x7b\"total\":9007199254740992\x7d" ∧
      ((paymentRun "9007199254740993").toOption.map BoundActionRun.requestFingerprint).isSome ∧
      (paymentRun "9007199254740993").toOption.map BoundActionRun.requestFingerprint =
        (paymentRun "9007199254740992").toOption.map BoundActionRun.requestFingerprint ∧
      ¬SameValue (.object (amountInput "9007199254740993").1)
        (.object (amountInput "9007199254740992").1) := by
  refine ⟨by decide +kernel, by decide +kernel, by decide +kernel, ?_⟩
  rintro ⟨-, hnumbers⟩
  revert hnumbers
  decide +kernel

end BoundRun
end Igris
