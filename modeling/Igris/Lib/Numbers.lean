import Igris.Lib.RoundTrip

/-!
# Numbers of JSON values

A number of a JSON value is a literal, and different literals may stand for the same
number.  A library that reads numbers into a format of its own writes other literals.

Main results:

- Theorem {lit}`sameValue_mapNumbers_iff`: replacing the literals keeps the value exactly if
  every literal keeps its number.
-/

namespace Json

/-! ## Literals -/

/-- The number that digits stand for. -/
def digitsValue (digits : List Char) : Nat :=
  digits.foldl (fun value c => 10 * value + (c.toNat - '0'.toNat)) 0

def isDigit (c : Char) : Bool := '0' ≤ c && c ≤ '9'

/-- The exponent at the end of a literal. -/
def exponentValue : List Char → Int
  | 'e' :: '-' :: digits | 'E' :: '-' :: digits => -(digitsValue digits : Int)
  | 'e' :: '+' :: digits | 'E' :: '+' :: digits => digitsValue digits
  | 'e' :: digits | 'E' :: digits => digitsValue digits
  | _ => 0

/-- The number that a literal without a sign stands for. -/
def unsignedDecimal (text : List Char) : ℚ :=
  let integer := text.takeWhile isDigit
  let rest := text.dropWhile isDigit
  let fraction := if rest.head? = some '.' then rest.tail.takeWhile isDigit else []
  let rest := if rest.head? = some '.' then rest.tail.dropWhile isDigit else rest
  digitsValue (integer ++ fraction) * (10 : ℚ) ^ (exponentValue rest - fraction.length)

/-- The number that a literal stands for. -/
def decimal (literal : String) : ℚ :=
  match literal.toList with
  | '-' :: text => -unsignedDecimal text
  | text => unsignedDecimal text

/-! ## Replacing literals -/

mutual

/-- Replace the number literals. -/
@[grind =]
def mapNumbers (f : String → String) : Json → Json
  | .number literal => .number (f literal)
  | .array items => .array (mapNumbersItems f items)
  | .object members => .object (mapNumbersMembers f members)
  | .null => .null
  | .bool value => .bool value
  | .string text => .string text

def mapNumbersItems (f : String → String) : List Json → List Json
  | [] => []
  | item :: items => mapNumbers f item :: mapNumbersItems f items

def mapNumbersMembers (f : String → String) : List (String × Json) → List (String × Json)
  | [] => []
  | (key, value) :: members => (key, mapNumbers f value) :: mapNumbersMembers f members

end

variable {value decoded : Json}

section MapNumbers

variable {f g : String → String}

theorem mapNumbersItems_eq_map (items : List Json) :
    mapNumbersItems f items = items.map (mapNumbers f) := by
  induction items with
  | nil => rfl
  | cons item items ih => simp [mapNumbersItems, ih]

theorem mapNumbersMembers_eq_map (members : List (String × Json)) :
    mapNumbersMembers f members = members.map fun member =>
      (member.1, mapNumbers f member.2) := by
  induction members with
  | nil => rfl
  | cons member members ih => simp [mapNumbersMembers, ih]

theorem get_mapNumbersMembers (members : List (String × Json)) (key : String) :
    Assoc.get (mapNumbersMembers f members) key =
      (Assoc.get members key).map (mapNumbers f) := by
  induction members with
  | nil => rfl
  | cons member members ih =>
      simp only [mapNumbersMembers, Assoc.get]
      by_cases hkey : key = member.1
      · simp [hkey]
      · simp [hkey, ih]

theorem literals_mapNumbers (value : Json) :
    literals (mapNumbers f value) = (literals value).map f := by
  induction value using Json.induction with
  | null | bool | number | string => rfl
  | array items ih =>
      simp only [mapNumbers, literals, mapNumbersItems_eq_map, literalsOfItems_eq_flatMap,
        List.flatMap_map, List.map_flatMap]
      exact List.flatMap_congr ih
  | object members ih =>
      simp only [mapNumbers, literals, mapNumbersMembers_eq_map, literalsOfMembers_eq_flatMap,
        List.flatMap_map, List.map_flatMap]
      exact List.flatMap_congr ih

theorem mapNumbers_mapNumbers (value : Json) :
    mapNumbers g (mapNumbers f value) = mapNumbers (g ∘ f) value := by
  induction value using Json.induction with
  | null | bool | number | string => rfl
  | array items ih => simpa [mapNumbers, mapNumbersItems_eq_map] using ih
  | object members ih =>
      simpa [mapNumbers, mapNumbersMembers_eq_map, Function.comp_def, Prod.forall] using ih

theorem mapNumbers_eq_self (value : Json) (h : ∀ literal ∈ literals value, f literal = literal) :
    mapNumbers f value = value := by
  induction value using Json.induction with
  | null | bool | string => rfl
  | number literal => rw [mapNumbers, h literal (by simp [literals])]
  | array items ih =>
      rw [mapNumbers, mapNumbersItems_eq_map, List.map_congr_left (g := id), List.map_id]
      exact fun item hitem => ih item hitem fun literal hmem =>
        h literal (mem_literalsOfItems.mpr ⟨item, hitem, hmem⟩)
  | object members ih =>
      rw [mapNumbers, mapNumbersMembers_eq_map, List.map_congr_left (g := id), List.map_id]
      exact fun member hmember => congrArg (Prod.mk member.1) (ih member hmember fun literal hmem =>
        h literal (mem_literalsOfMembers.mpr ⟨member, hmember, hmem⟩))

theorem sorted_mapNumbersMembers {members : List (String × Json)} (h : Assoc.Sorted members) :
    Assoc.Sorted (mapNumbersMembers f members) := by
  rw [Assoc.sorted_iff_keys] at h ⊢
  rwa [mapNumbersMembers_eq_map, List.map_map]

theorem Ordered.mapNumbers (h : Ordered value) :
    Ordered (mapNumbers f value) := by
  induction h with
  | null => exact .null
  | bool value => exact .bool value
  | number literal => exact .number (f literal)
  | string text => exact .string text
  | array h ih =>
      rw [Json.mapNumbers, mapNumbersItems_eq_map]
      refine .array ?_
      intro item hitem
      obtain ⟨original, hmem, rfl⟩ := List.mem_map.mp hitem
      exact ih original hmem
  | object hsorted h ih =>
      rw [Json.mapNumbers]
      refine .object (sorted_mapNumbersMembers hsorted) ?_
      intro member hmember
      rw [mapNumbersMembers_eq_map] at hmember
      obtain ⟨original, hmem, rfl⟩ := List.mem_map.mp hmember
      exact ih original hmem

end MapNumbers

/-! ## Equal values -/

/-- The value up to its numbers. -/
def shape (value : Json) : Json := mapNumbers (fun _ => "0") value

theorem shape_mapNumbers (f : String → String) (value : Json) :
    shape (mapNumbers f value) = shape value :=
  mapNumbers_mapNumbers value

theorem shape_array_eq_iff {a b : List Json} :
    shape (.array a) = shape (.array b) ↔ List.Forall₂ (fun x y => shape x = shape y) a b := by
  simp only [shape, mapNumbers, mapNumbersItems_eq_map, array.injEq]
  rw [← List.forall₂_eq_eq_eq, List.forall₂_map_left_iff, List.forall₂_map_right_iff]

theorem shape_object_eq_iff {a b : List (String × Json)} :
    shape (.object a) = shape (.object b) ↔
      List.Forall₂ (fun x y => x.1 = y.1 ∧ shape x.2 = shape y.2) a b := by
  simp only [shape, mapNumbers, mapNumbersMembers_eq_map, object.injEq]
  rw [← List.forall₂_eq_eq_eq, List.forall₂_map_left_iff, List.forall₂_map_right_iff]
  simp only [Prod.mk.injEq]

theorem shape_eq_string_iff {text : String} :
    shape value = .string text ↔ value = .string text := by
  cases value <;> simp [shape, mapNumbers]

/-- Equal values; only the notation of numbers may differ. -/
def SameValue (a b : Json) : Prop :=
  shape a = shape b ∧ (literals a).map decimal = (literals b).map decimal

theorem SameValue.symm {a b : Json} (h : SameValue a b) : SameValue b a :=
  ⟨h.1.symm, h.2.symm⟩

theorem SameValue.trans {a b c : Json} (hab : SameValue a b) (hbc : SameValue b c) :
    SameValue a c :=
  ⟨hab.1.trans hbc.1, hab.2.trans hbc.2⟩

/-- Replaced literals stand for the same value exactly if each keeps its number. -/
theorem sameValue_mapNumbers_iff (f : String → String) (value : Json) :
    SameValue value (mapNumbers f value) ↔
      ∀ literal ∈ literals value, decimal literal = decimal (f literal) := by
  rw [SameValue, shape_mapNumbers, literals_mapNumbers, List.map_map]
  simp only [true_and, List.map_inj_left, Function.comp_apply]

example : decimal "-12.50e1" = -125 := by decide +kernel

/-! ## Decoding -/

/-- The value with its numbers as a decoder reads them; {lit}`none` if it cannot read one. -/
def decodeNumbers (read : String → Option String) (value : Json) : Option Json :=
  if (literals value).all fun literal => (read literal).isSome then
    some (mapNumbers (fun literal => (read literal).getD literal) value)
  else none

variable {read : String → Option String}

theorem shape_of_decodeNumbers (h : decodeNumbers read value = some decoded) :
    shape decoded = shape value := by
  unfold decodeNumbers at h
  split at h
  · cases h
    exact shape_mapNumbers _ value
  · cases h

theorem Ordered.of_decodeNumbers (hordered : Ordered value)
    (h : decodeNumbers read value = some decoded) : Ordered decoded := by
  unfold decodeNumbers at h
  split at h
  · cases h
    exact hordered.mapNumbers
  · cases h

theorem literals_of_decodeNumbers {P : String → Prop}
    (h : decodeNumbers read value = some decoded)
    (hread : ∀ literal text, read literal = some text → P text) :
    ∀ literal ∈ literals decoded, P literal := by
  unfold decodeNumbers at h
  split at h
  case isTrue hall =>
    cases h
    rw [literals_mapNumbers, List.forall_mem_map]
    intro literal hmem
    obtain ⟨text, htext⟩ := Option.isSome_iff_exists.mp (List.all_eq_true.mp hall literal hmem)
    exact hread literal _ (by rw [htext, Option.getD_some])
  case isFalse => cases h

theorem decodeNumbers_eq_self (h : ∀ literal ∈ literals value, read literal = some literal) :
    decodeNumbers read value = some value := by
  have hread : (literals value).all (fun literal => (read literal).isSome) = true :=
    List.all_eq_true.mpr fun literal hmem => by rw [h literal hmem, Option.isSome_some]
  rw [decodeNumbers, if_pos hread,
    mapNumbers_eq_self value fun literal hmem => by rw [h literal hmem, Option.getD_some]]

end Json
