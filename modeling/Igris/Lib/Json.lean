import Igris.Lib.Assoc
import Igris.Lib.Text

/-!
# JSON values

Values with their members in the order of the keys, the rewriting of texts and members
inside a value, and the compact text that serializers produce.  Serializers differ in
the characters that they escape.

Main results:

- Theorem {lit}`Ordered.rewrite`: rewriting keeps the order of the members.
- Theorem {lit}`print_eq_iff`: two serializers agree on a value exactly if they escape
  every character of its texts in the same way.
-/

inductive Json where
  | null
  | bool (value : Bool)
  | number (literal : String)
  | string (text : String)
  | array (items : List Json)
  | object (members : List (String × Json))
deriving Repr

namespace Json

/-- Induction on a value, with the hypothesis for every item and the value of every member. -/
@[elab_as_elim]
theorem induction {motive : Json → Prop} (null : motive .null) (bool : ∀ value, motive (.bool value))
    (number : ∀ literal, motive (.number literal)) (string : ∀ text, motive (.string text))
    (array : ∀ items, (∀ item ∈ items, motive item) → motive (.array items))
    (object : ∀ members, (∀ member ∈ members, motive member.2) → motive (.object members))
    (value : Json) : motive value :=
  @Json.rec motive (fun items => ∀ item ∈ items, motive item)
    (fun members => ∀ member ∈ members, motive member.2) (fun member => motive member.2)
    null bool number string array object nofun
    (fun _ _ hitem hitems => List.forall_mem_cons.mpr ⟨hitem, hitems⟩) nofun
    (fun _ _ hmember hmembers => List.forall_mem_cons.mpr ⟨hmember, hmembers⟩) (fun _ _ h => h)
    value

/-- The value of a member; {lit}`none` for a value that is no object. -/
def get (value : Json) (key : String) : Option Json :=
  match value with
  | .object members => Assoc.get members key
  | _ => none

def asString : Json → Option String
  | .string text => some text
  | _ => none

/-- Every object lists its members in the order of the keys. -/
inductive Ordered : Json → Prop where
  | null : Ordered .null
  | bool (value : Bool) : Ordered (.bool value)
  | number (literal : String) : Ordered (.number literal)
  | string (text : String) : Ordered (.string text)
  | array {items : List Json} (h : ∀ item ∈ items, Ordered item) : Ordered (.array items)
  | object {members : List (String × Json)} (sorted : Assoc.Sorted members)
      (h : ∀ member ∈ members, Ordered member.2) : Ordered (.object members)

/-- A value whose objects list their members in order, as a parser builds it. -/
abbrev OrderedJson : Type := Subtype Ordered

variable {members : List (String × Json)} {value : Json} {c : Char}

theorem Ordered.sorted (h : Ordered (.object members)) :
    Assoc.Sorted members := by
  cases h with
  | object sorted h => exact sorted

theorem Ordered.of_get {key : String} (h : Ordered (.object members))
    (hget : Assoc.get members key = some value) :
    Ordered value := by
  cases h with
  | object sorted h => exact h _ (Assoc.mem_of_get hget)

theorem Ordered.insert (h : Ordered (.object members)) (key : String) (hvalue : Ordered value) :
    Ordered (.object (Assoc.insert key value members)) := by
  cases h with
  | object sorted h =>
      refine .object (sorted.insert key value) ?_
      intro member hmember
      obtain rfl | hmem := Assoc.mem_insert hmember
      · exact hvalue
      · exact h member hmem

/-! ## Equality -/

mutual

/-- Equality of values, member by member. -/
def beq : Json → Json → Bool
  | .null, .null => true
  | .bool a, .bool b => a == b
  | .number a, .number b => a == b
  | .string a, .string b => a == b
  | .array a, .array b => beqItems a b
  | .object a, .object b => beqMembers a b
  | _, _ => false

def beqItems : List Json → List Json → Bool
  | [], [] => true
  | a :: as, b :: bs => beq a b && beqItems as bs
  | _, _ => false

def beqMembers : List (String × Json) → List (String × Json) → Bool
  | [], [] => true
  | (key, a) :: as, (key', b) :: bs => key == key' && beq a b && beqMembers as bs
  | _, _ => false

end

mutual

theorem beq_iff : (a b : Json) → (beq a b = true ↔ a = b)
  | .null, b => by cases b <;> simp [beq]
  | .bool _, b => by cases b <;> simp [beq]
  | .number _, b => by cases b <;> simp [beq]
  | .string _, b => by cases b <;> simp [beq]
  | .array as, b => by
      cases b with
      | array bs => simp [beq, beqItems_iff as bs]
      | _ => simp [beq]
  | .object as, b => by
      cases b with
      | object bs => simp [beq, beqMembers_iff as bs]
      | _ => simp [beq]

theorem beqItems_iff : (as bs : List Json) → (beqItems as bs = true ↔ as = bs)
  | [], bs => by cases bs <;> simp [beqItems]
  | a :: as, bs => by
      cases bs with
      | nil => simp [beqItems]
      | cons b bs => simp [beqItems, beq_iff a b, beqItems_iff as bs]

theorem beqMembers_iff : (as bs : List (String × Json)) → (beqMembers as bs = true ↔ as = bs)
  | [], bs => by cases bs <;> simp [beqMembers]
  | (key, a) :: as, bs => by
      cases bs with
      | nil => simp [beqMembers]
      | cons b bs => simp [beqMembers, beq_iff a b.2, beqMembers_iff as bs, Prod.ext_iff]

end

instance : DecidableEq Json := fun a b => decidable_of_iff (beq a b = true) (beq_iff a b)

/-! ## Rewriting -/

mutual

/-- Replace texts, and the values of members that a rule applies to. -/
def rewrite (onText : String → Json) (onMember : String → Json → Option Json) : Json → Json
  | .string text => onText text
  | .array items => .array (rewriteItems onText onMember items)
  | .object members => .object (rewriteMembers onText onMember members)
  | .null => .null
  | .bool value => .bool value
  | .number literal => .number literal

def rewriteItems (onText : String → Json) (onMember : String → Json → Option Json) :
    List Json → List Json
  | [] => []
  | item :: items => rewrite onText onMember item :: rewriteItems onText onMember items

def rewriteMembers (onText : String → Json) (onMember : String → Json → Option Json) :
    List (String × Json) → List (String × Json)
  | [] => []
  | (key, value) :: members =>
      (key, (onMember key value).getD (rewrite onText onMember value)) ::
        rewriteMembers onText onMember members

end

section Rewrite

variable {onText : String → Json} {onMember : String → Json → Option Json}

theorem rewriteItems_eq_map (items : List Json) :
    rewriteItems onText onMember items = items.map (rewrite onText onMember) := by
  induction items with
  | nil => rfl
  | cons item items ih => simp [rewriteItems, ih]

theorem rewriteMembers_eq_map (members : List (String × Json)) :
    rewriteMembers onText onMember members = members.map fun member =>
      (member.1, (onMember member.1 member.2).getD (rewrite onText onMember member.2)) := by
  induction members with
  | nil => rfl
  | cons member members ih => simp [rewriteMembers, ih]

theorem Ordered.rewrite (h : Ordered value) (htext : ∀ text, Ordered (onText text))
    (hmember : ∀ key value new, onMember key value = some new → Ordered new) :
    Ordered (rewrite onText onMember value) := by
  induction h with
  | null => exact .null
  | bool value => exact .bool value
  | number literal => exact .number literal
  | string text => exact htext text
  | array h ih =>
      rw [Json.rewrite, rewriteItems_eq_map]
      refine .array ?_
      intro item hitem
      obtain ⟨original, horiginal, rfl⟩ := List.mem_map.mp hitem
      exact ih original horiginal
  | object sorted h ih =>
      rw [Json.rewrite, rewriteMembers_eq_map]
      refine .object (List.pairwise_map.mpr sorted) ?_
      intro member hmem
      obtain ⟨original, horiginal, rfl⟩ := List.mem_map.mp hmem
      cases hnew : onMember original.1 original.2 with
      | none => exact ih original horiginal
      | some new => exact hmember _ _ _ hnew

end Rewrite

/-! ## Text -/

/-- Escape with four hexadecimal digits. -/
def unicodeEscape (n : Nat) : List Char :=
  '\\' :: 'u' :: [n / 4096 % 16, n / 256 % 16, n / 16 % 16, n % 16].map Text.hexDigit

/-- The letter of a two-character escape. -/
def shortEscape (c : Char) : Option Char :=
  if c.toNat = 0x22 then some c
  else if c.toNat = 0x5C then some c
  else if c.toNat = 0x08 then some 'b'
  else if c.toNat = 0x09 then some 't'
  else if c.toNat = 0x0A then some 'n'
  else if c.toNat = 0x0C then some 'f'
  else if c.toNat = 0x0D then some 'r'
  else none

/-- Escaping as serde does it. -/
def serdeEscape (c : Char) : List Char :=
  match shortEscape c with
  | some letter => ['\\', letter]
  | none => if c.toNat < 0x20 then unicodeEscape c.toNat else [c]

/-- Characters that the Go library also escapes: angle brackets, the ampersand and the
two line separators. -/
def htmlEscaped (c : Char) : Bool :=
  decide (c.toNat ∈ [0x26, 0x3C, 0x3E, 0x2028, 0x2029])

/-- Escaping as the Go library does it. -/
def goEscape (c : Char) : List Char :=
  if htmlEscaped c then unicodeEscape c.toNat else serdeEscape c

def quote (escape : Char → List Char) (text : String) : List Char :=
  [Char.ofNat 0x22] ++ text.toList.flatMap escape ++ [Char.ofNat 0x22]

mutual

/-- Compact text of a value. -/
def print (escape : Char → List Char) : Json → List Char
  | .null => "null".toList
  | .bool value => (toString value).toList
  | .number literal => literal.toList
  | .string text => quote escape text
  | .array items => ['['] ++ printItems escape items ++ [']']
  | .object members => [Char.ofNat 0x7B] ++ printMembers escape members ++ [Char.ofNat 0x7D]

def printItems (escape : Char → List Char) : List Json → List Char
  | [] => []
  | item :: items =>
      print escape item ++ (if items.isEmpty then [] else [',']) ++ printItems escape items

def printMembers (escape : Char → List Char) : List (String × Json) → List Char
  | [] => []
  | (key, value) :: members =>
      quote escape key ++ [':'] ++ print escape value ++
        (if members.isEmpty then [] else [',']) ++ printMembers escape members

end

mutual

/-- The texts and keys inside a value. -/
def texts : Json → List String
  | .string text => [text]
  | .array items => textsOfItems items
  | .object members => textsOfMembers members
  | .null | .bool _ | .number _ => []

def textsOfItems : List Json → List String
  | [] => []
  | item :: items => texts item ++ textsOfItems items

def textsOfMembers : List (String × Json) → List String
  | [] => []
  | (key, value) :: members => key :: texts value ++ textsOfMembers members

end

example : String.ofList (print goEscape (.object [("a", .array [.string "<", .number "1"]),
    ("b", .null)])) = "\x7b\"a\":[\"\\u003c\",1],\"b\":null\x7d" := by
  decide +kernel

/-! ## Serializers that escape differently -/

/-- The first list is not longer than the second, and they have the same length only if
the condition holds, under which they are equal. -/
structure Dominated (x y : List Char) (P : Prop) : Prop where
  le : x.length ≤ y.length
  agree : x.length = y.length → P
  eq : P → x = y

namespace Dominated

variable {x y x' y' : List Char} {P P' : Prop}

theorem refl (x : List Char) (h : P) : Dominated x x P :=
  ⟨le_rfl, fun _ => h, fun _ => rfl⟩

theorem append (h : Dominated x y P) (h' : Dominated x' y' P') :
    Dominated (x ++ x') (y ++ y') (P ∧ P') := by
  have hle := h.le
  have hle' := h'.le
  refine ⟨by simp only [List.length_append]; omega, ?_, ?_⟩
  · intro hlength
    simp only [List.length_append] at hlength
    exact ⟨h.agree (by omega), h'.agree (by omega)⟩
  · rintro ⟨hP, hP'⟩
    rw [h.eq hP, h'.eq hP']

theorem congr (h : Dominated x y P) (hP : P ↔ P') : Dominated x y P' :=
  ⟨h.le, fun hlength => hP.mp (h.agree hlength), fun h' => h.eq (hP.mpr h')⟩

theorem eq_iff (h : Dominated x y P) : x = y ↔ P :=
  ⟨fun heq => h.agree (by rw [heq]), h.eq⟩

end Dominated

section Escapes

set_option linter.unusedSectionVars false

variable {e₁ e₂ : Char → List Char} (h : ∀ c, Dominated (e₁ c) (e₂ c) (e₁ c = e₂ c))
include h

theorem flatMap_dominated (cs : List Char) :
    Dominated (cs.flatMap e₁) (cs.flatMap e₂) (∀ c ∈ cs, e₁ c = e₂ c) := by
  induction cs with
  | nil => exact .refl [] (by simp)
  | cons c cs ih =>
      rw [List.flatMap_cons, List.flatMap_cons]
      exact ((h c).append ih).congr (by simp)

theorem quote_dominated (text : String) :
    Dominated (quote e₁ text) (quote e₂ text) (∀ c ∈ text.toList, e₁ c = e₂ c) := by
  have hquote : Dominated [Char.ofNat 0x22] [Char.ofNat 0x22] True := .refl _ trivial
  exact ((hquote.append (flatMap_dominated h text.toList)).append hquote).congr (by simp)

mutual

theorem print_dominated :
    (value : Json) → Dominated (print e₁ value) (print e₂ value)
      (∀ text ∈ texts value, ∀ c ∈ text.toList, e₁ c = e₂ c)
  | .null | .bool _ | .number _ => by
      simp only [print, texts]
      exact .refl _ (by simp)
  | .string text => by
      simp only [print, texts]
      exact (quote_dominated h text).congr (by simp)
  | .array items => by
      simp only [print, texts]
      have hopen : Dominated ['['] ['['] True := .refl _ trivial
      have hclose : Dominated [']'] [']'] True := .refl _ trivial
      exact ((hopen.append (printItems_dominated items)).append hclose).congr (by simp)
  | .object members => by
      simp only [print, texts]
      have hopen : Dominated [Char.ofNat 0x7B] [Char.ofNat 0x7B] True := .refl _ trivial
      have hclose : Dominated [Char.ofNat 0x7D] [Char.ofNat 0x7D] True := .refl _ trivial
      exact ((hopen.append (printMembers_dominated members)).append hclose).congr (by simp)

theorem printItems_dominated :
    (items : List Json) → Dominated (printItems e₁ items) (printItems e₂ items)
      (∀ text ∈ textsOfItems items, ∀ c ∈ text.toList, e₁ c = e₂ c)
  | [] => .refl [] (by simp [textsOfItems])
  | item :: items => by
      simp only [printItems, textsOfItems]
      have hcomma : Dominated (if items.isEmpty then [] else [','])
          (if items.isEmpty then [] else [',']) True := .refl _ trivial
      refine (((print_dominated item).append hcomma).append (printItems_dominated items)).congr ?_
      simp only [List.mem_append, or_imp, forall_and, and_true]

theorem printMembers_dominated :
    (members : List (String × Json)) → Dominated (printMembers e₁ members)
      (printMembers e₂ members)
      (∀ text ∈ textsOfMembers members, ∀ c ∈ text.toList, e₁ c = e₂ c)
  | [] => .refl [] (by simp [textsOfMembers])
  | (key, value) :: members => by
      simp only [printMembers, textsOfMembers]
      have hcolon : Dominated [':'] [':'] True := .refl _ trivial
      have hcomma : Dominated (if members.isEmpty then [] else [','])
          (if members.isEmpty then [] else [',']) True := .refl _ trivial
      refine (((((quote_dominated h key).append hcolon).append
        (print_dominated value)).append hcomma).append
        (printMembers_dominated members)).congr ?_
      simp only [List.cons_append, List.mem_cons, List.mem_append, or_imp, forall_and,
        forall_eq, and_true, and_assoc]

end

/-- Of two serializers one never needs fewer characters than the other.  They agree on a
value exactly if they agree on every character inside it. -/
theorem print_eq_iff (value : Json) :
    print e₁ value = print e₂ value ↔
      ∀ text ∈ texts value, ∀ c ∈ text.toList, e₁ c = e₂ c :=
  (print_dominated h value).eq_iff

end Escapes

theorem serdeEscape_of_htmlEscaped (h : htmlEscaped c = true) :
    serdeEscape c = [c] := by
  simp only [htmlEscaped, List.mem_cons, List.not_mem_nil, or_false, decide_eq_true_eq] at h
  unfold serdeEscape shortEscape
  repeat rw [if_neg (by omega)]

theorem length_goEscape_of_htmlEscaped (h : htmlEscaped c = true) :
    (goEscape c).length = 6 := by
  simp [goEscape, h, unicodeEscape]

theorem serdeEscape_eq_goEscape_iff :
    serdeEscape c = goEscape c ↔ htmlEscaped c = false := by
  constructor
  · intro heq
    by_contra hescaped
    rw [Bool.not_eq_false] at hescaped
    have hlength := length_goEscape_of_htmlEscaped hescaped
    rw [← heq, serdeEscape_of_htmlEscaped hescaped] at hlength
    simp at hlength
  · intro hplain
    simp [goEscape, hplain]

theorem serdeEscape_dominated (c : Char) :
    Dominated (serdeEscape c) (goEscape c) (serdeEscape c = goEscape c) := by
  by_cases hescaped : htmlEscaped c = true
  · have hone := serdeEscape_of_htmlEscaped hescaped
    have hsix := length_goEscape_of_htmlEscaped hescaped
    refine ⟨by simp [hone, hsix], ?_, id⟩
    intro hlength
    simp [hone, hsix] at hlength
  · have hsame : serdeEscape c = goEscape c :=
      serdeEscape_eq_goEscape_iff.mpr (Bool.not_eq_true _ ▸ hescaped)
    exact ⟨by rw [hsame], fun _ => hsame, id⟩

/-- The two libraries produce the same text exactly if no text has a character that only
the Go library escapes. -/
theorem print_serde_eq_print_go_iff (value : Json) :
    print serdeEscape value = print goEscape value ↔
      ∀ text ∈ texts value, ∀ c ∈ text.toList, htmlEscaped c = false := by
  simp only [print_eq_iff serdeEscape_dominated, serdeEscape_eq_goEscape_iff]

end Json
