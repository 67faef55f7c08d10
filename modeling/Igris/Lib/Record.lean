import Mathlib
import Igris.Lib.Json

/-!
# Records as JSON objects

Objects whose members may be absent, and codecs that carry their own round trip.

Main results:

- Theorem {lit}`get_objectOf`: what is found in an object is the member it was built from.
- Structure {lit}`Codec`: a way to write values and to read them back.
-/

namespace Json

/-! ## Objects with optional members -/

/-- The object with the members that are present. -/
def objectOf (fields : List (String × Option Json)) : Json :=
  .object (Assoc.ofFields fields)

theorem get_objectOf {fields : List (String × Option Json)} (hkeys : (fields.map Prod.fst).Nodup)
    (key : String) : (objectOf fields).get key = (fields.lookup key).join :=
  Assoc.get_ofFields hkeys key

theorem ordered_objectOf {fields : List (String × Option Json)}
    (h : ∀ key value, (key, some value) ∈ fields → Ordered value) : Ordered (objectOf fields) :=
  .object (Assoc.sorted_ofFields fields)
    fun member hmember => h member.1 member.2 (Assoc.mem_ofFields hmember)

/-- The order in which the members are listed does not matter. -/
theorem objectOf_congr {a b : List (String × Option Json)} (ha : (a.map Prod.fst).Nodup)
    (hb : (b.map Prod.fst).Nodup) (hab : a ⊆ b) (hba : b ⊆ a) : objectOf a = objectOf b :=
  congrArg Json.object (Assoc.ofFields_congr ha hb hab hba)

/-! ## Codecs -/

/-- A way to write values of a type and to read them back. -/
structure Codec (α : Type) where
  encode : α → Json
  decode : Json → Option α
  decode_encode : ∀ a, decode (encode a) = some a

attribute [simp] Codec.decode_encode

namespace Codec

def text : Codec String where
  encode := .string
  decode := asString
  decode_encode _ := rfl

def bool : Codec Bool where
  encode := .bool
  decode
    | .bool value => some value
    | _ => none
  decode_encode _ := rfl

def int : Codec Int where
  encode n := .number n.repr
  decode
    | .number literal => literal.toInt?
    | _ => none
  decode_encode := Int.toInt?_repr

def uint32 : Codec UInt32 where
  encode n := .number n.toNat.repr
  decode
    | .number literal =>
        literal.toNat?.bind fun n => if n < 2 ^ 32 then some (UInt32.ofNat n) else none
    | _ => none
  decode_encode n := by simp [Nat.toNat?_repr, n.toNat_lt]

variable {α : Type}

theorem mapM_decode_map_encode (codec : Codec α) (items : List α) :
    (items.map codec.encode).mapM codec.decode = some items := by
  induction items with
  | nil => rfl
  | cons item items ih => simp [codec.decode_encode, ih]

def list (codec : Codec α) : Codec (List α) where
  encode items := .array (items.map codec.encode)
  decode
    | .array items => items.mapM codec.decode
    | _ => none
  decode_encode := codec.mapM_decode_map_encode

/-! ## Members of a record -/

/-- A member that has to be there. -/
def required (codec : Codec α) (value : Json) (key : String) : Option α :=
  (value.get key).bind codec.decode

/-- A member that may be missing, and then has a default value. -/
def defaulted (codec : Codec α) (default : α) (value : Json) (key : String) : Option α :=
  match value.get key with
  | none => some default
  | some member => codec.decode member

/-- A member that may be missing or null. -/
def optional (codec : Codec α) (value : Json) (key : String) : Option (Option α) :=
  match value.get key with
  | none => some none
  | some .null => some none
  | some member => (codec.decode member).map some

/-- What is written for a member that is left out when it is empty. -/
def omitEmpty (codec : Codec α) (isEmpty : α → Bool) (a : α) : Option Json :=
  if isEmpty a then none else some (codec.encode a)

section Members

variable {codec : Codec α} {value : Json} {key : String} {a : α}

theorem defaulted_of_get_some (default : α) (h : value.get key = some (codec.encode a)) :
    codec.defaulted default value key = some a := by
  rw [defaulted, h]
  exact codec.decode_encode a

theorem defaulted_of_get {isEmpty : α → Bool} {default : α}
    (hempty : ∀ a, isEmpty a = true → a = default)
    (h : value.get key = codec.omitEmpty isEmpty a) :
    codec.defaulted default value key = some a := by
  unfold defaulted
  by_cases ha : isEmpty a = true
  · obtain rfl := hempty a ha
    simp [h, omitEmpty, ha]
  · simp [h, omitEmpty, ha, codec.decode_encode]

theorem optional_text_of_get {a : Option String} (h : value.get key = a.map text.encode) :
    text.optional value key = some a := by
  unfold optional
  cases a with
  | none => simp [h]
  | some a => simp [h, text, asString]

end Members

end Codec

end Json
