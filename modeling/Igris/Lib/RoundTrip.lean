import Igris.Lib.Parser

/-!
# Serializers and the parser

Serializers differ in the escapes and in the white space after commas and colons.  The
parser reads all of them.

Main results:

- Theorems {lit}`readValue_printed` and {lit}`parse_print`: a printed value is parsed back,
  up to the order of the members.
- Theorem {lit}`Ordered.normal`: a value whose members are in order comes back unchanged.
- Theorem {lit}`parse_cut_print`: a printed object that is cut is refused.
-/

namespace Json

/-! ## Printing with separators -/

mutual

/-- Text of a value, with given separators. -/
def printSep (escape : Char → List Char) (comma colon : List Char) : Json → List Char
  | .null => "null".toList
  | .bool value => (toString value).toList
  | .number literal => literal.toList
  | .string text => quote escape text
  | .array items => ['['] ++ printItemsSep escape comma colon items ++ [']']
  | .object members =>
      [Char.ofNat 0x7B] ++ printMembersSep escape comma colon members ++ [Char.ofNat 0x7D]

def printItemsSep (escape : Char → List Char) (comma colon : List Char) : List Json → List Char
  | [] => []
  | item :: items =>
      printSep escape comma colon item ++ (if items.isEmpty then [] else comma) ++
        printItemsSep escape comma colon items

def printMembersSep (escape : Char → List Char) (comma colon : List Char) :
    List (String × Json) → List Char
  | [] => []
  | (key, value) :: members =>
      quote escape key ++ colon ++ printSep escape comma colon value ++
        (if members.isEmpty then [] else comma) ++ printMembersSep escape comma colon members

end

mutual

theorem printSep_compact (escape : Char → List Char) :
    (value : Json) → printSep escape [','] [':'] value = print escape value
  | .null | .bool _ | .number _ | .string _ => rfl
  | .array items => by rw [printSep, print, printItemsSep_compact escape items]
  | .object members => by rw [printSep, print, printMembersSep_compact escape members]

theorem printItemsSep_compact (escape : Char → List Char) :
    (items : List Json) → printItemsSep escape [','] [':'] items = printItems escape items
  | [] => rfl
  | item :: items => by
      rw [printItemsSep, printItems, printSep_compact escape item,
        printItemsSep_compact escape items]

theorem printMembersSep_compact (escape : Char → List Char) :
    (members : List (String × Json)) →
      printMembersSep escape [','] [':'] members = printMembers escape members
  | [] => rfl
  | (key, value) :: members => by
      rw [printMembersSep, printMembers, printSep_compact escape value,
        printMembersSep_compact escape members]

end

/-! ## Normal form -/

mutual

/-- The value with the members of all objects in order, as the parser builds it. -/
def normal : Json → Json
  | .array items => .array (normalItems items)
  | .object members => .object (Assoc.insertAll (normalMembers members) [])
  | .null => .null
  | .bool value => .bool value
  | .number literal => .number literal
  | .string text => .string text

def normalItems : List Json → List Json
  | [] => []
  | item :: items => normal item :: normalItems items

def normalMembers : List (String × Json) → List (String × Json)
  | [] => []
  | (key, value) :: members => (key, normal value) :: normalMembers members

end

theorem normalItems_eq_map (items : List Json) : normalItems items = items.map normal := by
  induction items with
  | nil => rfl
  | cons item items ih => simp [normalItems, ih]

theorem normalMembers_eq_map (members : List (String × Json)) :
    normalMembers members = members.map fun member => (member.1, normal member.2) := by
  induction members with
  | nil => rfl
  | cons member members ih => simp [normalMembers, ih]

mutual

/-- The number literals inside a value. -/
def literals : Json → List String
  | .number literal => [literal]
  | .array items => literalsOfItems items
  | .object members => literalsOfMembers members
  | .null | .bool _ | .string _ => []

def literalsOfItems : List Json → List String
  | [] => []
  | item :: items => literals item ++ literalsOfItems items

def literalsOfMembers : List (String × Json) → List String
  | [] => []
  | (_, value) :: members => literals value ++ literalsOfMembers members

end

theorem literalsOfItems_eq_flatMap (items : List Json) :
    literalsOfItems items = items.flatMap literals := by
  induction items with
  | nil => rfl
  | cons item items ih => simp [literalsOfItems, ih]

theorem literalsOfMembers_eq_flatMap (members : List (String × Json)) :
    literalsOfMembers members = members.flatMap fun member => literals member.2 := by
  induction members with
  | nil => rfl
  | cons member members ih => simp [literalsOfMembers, ih]

variable {literal : String} {members : List (String × Json)} {text rest : List Char} {c : Char}
  {value : Json}

theorem mem_literalsOfItems {items : List Json} :
    literal ∈ literalsOfItems items ↔ ∃ item ∈ items, literal ∈ literals item := by
  rw [literalsOfItems_eq_flatMap, List.mem_flatMap]

theorem mem_literalsOfMembers :
    literal ∈ literalsOfMembers members ↔ ∃ member ∈ members, literal ∈ literals member.2 := by
  rw [literalsOfMembers_eq_flatMap, List.mem_flatMap]

/-- All numbers of the value are written as JSON writes them. -/
def Numeric (value : Json) : Prop :=
  ∀ literal ∈ literals value, isNumberLiteral literal.toList = true

/-! ## Texts -/

/-- What an escape writes is read as one character. -/
def Scans (escape : Char → List Char) : Prop :=
  ∀ c rest, readScalar (escape c ++ rest) = some (c, rest)

theorem readScalar_of_readChar {read : Char × List Char} (h : readChar text = some read)
    (hhead : ∀ c ∈ text.head?, 0x20 ≤ c.toNat) :
    readScalar text = some read := by
  match text with
  | [] => simp [readChar] at h
  | c :: tail =>
      have hc : ¬ c.toNat < 0x20 := by simpa using hhead c (by simp)
      simp only [readScalar, if_neg hc, readPair_eq_none h]
      exact h

theorem printable_serdeEscape (c : Char) (rest : List Char) :
    ∀ d ∈ (serdeEscape c ++ rest).head?, 0x20 ≤ d.toNat := by
  unfold serdeEscape
  split
  · simp
  · split_ifs with hcontrol
    · simp [unicodeEscape]
    · simpa using hcontrol

theorem scans_serdeEscape : Scans serdeEscape := by
  intro c rest
  exact readScalar_of_readChar (reads_serdeEscape c rest) (printable_serdeEscape c rest)

theorem scans_goEscape : Scans goEscape := by
  intro c rest
  refine readScalar_of_readChar (reads_goEscape c rest) ?_
  unfold goEscape
  by_cases hescaped : htmlEscaped c = true
  · simp [hescaped, unicodeEscape]
  · rw [if_neg hescaped]
    exact printable_serdeEscape c rest

/-- Escaping as the Go library does it when it is told not to escape for HTML: the two line
separators are still escaped. -/
def goPlainEscape (c : Char) : List Char :=
  if c.toNat ∈ [0x2028, 0x2029] then unicodeEscape c.toNat else serdeEscape c

section Layout

variable {escape : Char → List Char}

theorem ne_quote_of_readScalar {read : Char × List Char} (h : readScalar (c :: text) = some read) :
    c.toNat ≠ 0x22 := by
  intro hc
  have hslash : c ≠ '\\' := by
    rintro rfl
    revert hc
    decide
  have hpair : readPair (c :: text) = none := by
    unfold readPair
    split
    · rename_i heq
      exact absurd (List.cons.inj heq).1 hslash
    · rfl
  simp [readScalar, hpair, readChar, hc] at h

theorem readText_escaped (hescape : Scans escape) {cs : List Char} {fuel : Nat}
    (hfuel : cs.length < fuel) (rest : List Char) :
    readText fuel (cs.flatMap escape ++ Char.ofNat 0x22 :: rest) = some (cs, rest) := by
  induction cs generalizing fuel with
  | nil =>
      cases fuel with
      | zero => cases hfuel
      | succ fuel => rw [List.flatMap_nil, List.nil_append, readText, if_pos (by decide)]
  | cons c cs ih =>
      cases fuel with
      | zero => cases hfuel
      | succ fuel =>
          have hscan := hescape c (cs.flatMap escape ++ Char.ofNat 0x22 :: rest)
          rw [List.flatMap_cons, List.append_assoc]
          cases hhead : escape c ++ (cs.flatMap escape ++ Char.ofNat 0x22 :: rest) with
          | nil => simp [hhead, readScalar] at hscan
          | cons d tail =>
              rw [hhead] at hscan
              rw [readText, if_neg (ne_quote_of_readScalar hscan), hscan]
              simp only [List.length_cons, Nat.add_lt_add_iff_right] at hfuel
              simp [ih hfuel]

end Layout

/-! ## Numbers -/

/-- The second text is the first one without some characters of numbers. -/
def Consumes (text rest : List Char) : Prop :=
  ∃ part, text = part ++ rest ∧ ∀ c ∈ part, isNumberChar c = true

namespace Consumes

theorem refl (text : List Char) : Consumes text text := ⟨[], rfl, by simp⟩

theorem cons (hc : isNumberChar c = true) (h : Consumes text rest) :
    Consumes (c :: text) rest := by
  obtain ⟨part, rfl, hpart⟩ := h
  exact ⟨c :: part, rfl, by simpa [hc] using hpart⟩

theorem trans {a b c : List Char} (h : Consumes a b) (h' : Consumes b c) : Consumes a c := by
  obtain ⟨part, rfl, hpart⟩ := h
  obtain ⟨part', rfl, hpart'⟩ := h'
  refine ⟨part ++ part', by simp, ?_⟩
  intro d hd
  obtain hd | hd := List.mem_append.mp hd
  · exact hpart d hd
  · exact hpart' d hd

theorem of_dropDigits (h : dropDigits text = some rest) : Consumes text rest := by
  unfold dropDigits at h
  split_ifs at h
  refine ⟨text.takeWhile Char.isDigit, ?_, ?_⟩
  · rw [← Option.some.inj h, List.takeWhile_append_dropWhile]
  · intro c hc
    have hdigit : c.isDigit = true := List.all_eq_true.mp List.all_takeWhile c hc
    simp [isNumberChar, hdigit]

theorem of_dropInteger (h : dropInteger text = some rest) : Consumes text rest := by
  unfold dropInteger at h
  split at h
  · obtain rfl := Option.some.inj h
    exact (refl _).cons (by decide)
  · exact of_dropDigits h

theorem of_dropFraction (h : dropFraction text = some rest) : Consumes text rest := by
  unfold dropFraction at h
  split at h
  · exact (of_dropDigits h).cons (by decide)
  · obtain rfl := Option.some.inj h
    exact refl _

theorem dropSign (text : List Char) : Consumes text (Json.dropSign text) := by
  unfold Json.dropSign
  split
  · exact (refl _).cons (by decide)
  · exact (refl _).cons (by decide)
  · exact refl _

theorem of_dropExponent (h : dropExponent text = some rest) : Consumes text rest := by
  unfold dropExponent at h
  split at h
  · exact ((dropSign _).trans (of_dropDigits h)).cons (by decide)
  · exact ((dropSign _).trans (of_dropDigits h)).cons (by decide)
  · obtain rfl := Option.some.inj h
    exact refl _

end Consumes

theorem exists_digit_of_dropInteger (h : dropInteger text = some rest) :
    ∃ c tail, text = c :: tail ∧ c.isDigit = true := by
  unfold dropInteger at h
  split at h
  · exact ⟨'0', _, rfl, by decide⟩
  · unfold dropDigits at h
    split_ifs at h with hdigit
    match text with
    | [] => simp at hdigit
    | c :: tail => exact ⟨c, tail, rfl, by simpa using hdigit⟩

/-- The digits of a number, without the sign. -/
theorem exists_unsigned (h : isNumberLiteral text = true) :
    ∃ unsigned, (text = unsigned ∨ text = '-' :: unsigned) ∧
      (∃ c tail, unsigned = c :: tail ∧ c.isDigit = true) ∧ Consumes unsigned [] := by
  simp only [isNumberLiteral, decide_eq_true_eq] at h
  obtain ⟨exponent, hfraction, hexponent⟩ := Option.bind_eq_some_iff.mp h
  obtain ⟨fraction, hinteger, hfraction⟩ := Option.bind_eq_some_iff.mp hfraction
  refine ⟨_, ?_, exists_digit_of_dropInteger hinteger,
    (Consumes.of_dropInteger hinteger).trans
      ((Consumes.of_dropFraction hfraction).trans (Consumes.of_dropExponent hexponent))⟩
  cases text with
  | nil => simp
  | cons c tail =>
      by_cases hc : c = '-'
      · simp [hc]
      · simp [hc]

theorem isNumberChar_of_isNumberLiteral (h : isNumberLiteral text = true) :
    ∀ c ∈ text, isNumberChar c = true := by
  obtain ⟨unsigned, htext, -, part, hpart, hchars⟩ := exists_unsigned h
  rw [List.append_nil] at hpart
  subst hpart
  obtain rfl | rfl := htext
  · exact hchars
  · intro c hc
    obtain rfl | hc := List.mem_cons.mp hc
    · decide
    · exact hchars c hc

theorem takeWhile_append_of_all {p : Char → Bool} (htext : ∀ c ∈ text, p c = true)
    (hrest : ∀ c ∈ rest.head?, p c = false) :
    (text ++ rest).takeWhile p = text ∧ (text ++ rest).dropWhile p = rest := by
  induction text with
  | nil =>
      match rest with
      | [] => simp
      | c :: rest => simp [hrest c (by simp)]
  | cons c text ih =>
      have hc : p c = true := htext c (by simp)
      have htail := ih fun d hd => htext d (by simp [hd])
      simp [hc, htail]

theorem readAtom_number (nonFinite : Bool) (h : isNumberLiteral literal.toList = true)
    (hrest : ∀ c ∈ rest.head?, isNumberChar c = false) :
    readAtom nonFinite (literal.toList ++ rest) = some (.number literal, rest) := by
  have hspan := takeWhile_append_of_all (isNumberChar_of_isNumberLiteral h) hrest
  have hnumber : readNumber (literal.toList ++ rest) = some (.number literal, rest) := by
    simp [readNumber, hspan, h]
  obtain ⟨unsigned, htext, ⟨c, tail, rfl, hdigit⟩, -⟩ := exists_unsigned h
  have hne : c ≠ 'n' ∧ c ≠ 't' ∧ c ≠ 'f' ∧ c ≠ 'N' ∧ c ≠ 'I' ∧ c ≠ '-' := by
    refine ⟨?_, ?_, ?_, ?_, ?_, ?_⟩ <;> rintro rfl <;> revert hdigit <;> decide
  rw [← hnumber]
  obtain htext | htext := htext
  · rw [htext, List.cons_append, readAtom]
    all_goals
      intro more heq
      simp_all
  · rw [htext, List.cons_append, List.cons_append, readAtom]
    all_goals
      intro more heq
      simp_all

/-! ## Values -/

mutual

/-- Fuel that is enough to read a printed value. -/
def weight : Json → Nat
  | .string text => text.toList.length + 2
  | .array items => weightItems items + 1
  | .object members => weightMembers members + 1
  | .null | .bool _ | .number _ => 1

def weightItems : List Json → Nat
  | [] => 0
  | item :: items => weight item + weightItems items + 1

def weightMembers : List (String × Json) → Nat
  | [] => 0
  | (key, value) :: members => key.toList.length + weight value + weightMembers members + 2

end

/-- The first character of a value. -/
def startsValue (c : Char) : Bool :=
  c.isDigit || decide (c.toNat ∈ [0x22, 0x7B]) || c ∈ ['[', 'n', 't', 'f', '-']

theorem startsValue_of_isBlank (h : isBlank c = true) : startsValue c = false := by
  simp only [isBlank, Bool.or_eq_true, beq_iff_eq] at h
  obtain ((rfl | rfl) | rfl) | rfl := h <;> decide

theorem skipBlanks_of_startsValue (h : startsValue c = true) (text : List Char) :
    skipBlanks (c :: text) = c :: text := by
  have hblank : isBlank c = false := by
    by_contra hblank
    rw [startsValue_of_isBlank (by simpa using hblank)] at h
    exact Bool.false_ne_true h
  simp [skipBlanks, hblank]

theorem readMark_cons {mark : Char} (h : isBlank mark = false) (text : List Char) :
    readMark mark (mark :: text) = some text := by
  rw [readMark_eq_some_iff]
  simp [skipBlanks, h]

theorem readMark_cons_of_ne {mark : Char} (h : startsValue c = true) (hc : c ≠ mark)
    (text : List Char) : readMark mark (c :: text) = none := by
  simp [readMark, skipBlanks_of_startsValue h, hc]

variable {blanks : List Char}

/-- White space before a value or a member is skipped. -/
theorem skipBlanks_blanks (h : ∀ c ∈ blanks, isBlank c = true) (text : List Char) :
    skipBlanks (blanks ++ text) = skipBlanks text := by
  induction blanks with
  | nil => rfl
  | cons c blanks ih =>
      have hc : isBlank c = true := h c (by simp)
      have htail := ih fun d hd => h d (by simp [hd])
      simpa [skipBlanks, hc] using htail

theorem readMark_blanks (h : ∀ c ∈ blanks, isBlank c = true) (mark : Char) (text : List Char) :
    readMark mark (blanks ++ text) = readMark mark text := by
  simp [readMark, skipBlanks_blanks h]

theorem readValue_blanks (h : ∀ c ∈ blanks, isBlank c = true) (nonFinite : Bool) (fuel : Nat)
    (text : List Char) :
    readValue nonFinite fuel (blanks ++ text) = readValue nonFinite fuel text := by
  cases fuel with
  | zero => simp [readValue]
  | succ fuel => simp [readValue, skipBlanks_blanks h]

theorem readItems_blanks (h : ∀ c ∈ blanks, isBlank c = true) (nonFinite : Bool) (fuel : Nat)
    (text : List Char) :
    readItems nonFinite fuel (blanks ++ text) = readItems nonFinite fuel text := by
  cases fuel with
  | zero => simp [readItems]
  | succ fuel => simp [readItems, readValue_blanks h]

theorem readMembers_blanks (h : ∀ c ∈ blanks, isBlank c = true) (nonFinite : Bool) (fuel : Nat)
    (text : List Char) :
    readMembers nonFinite fuel (blanks ++ text) = readMembers nonFinite fuel text := by
  cases fuel with
  | zero => simp [readMembers]
  | succ fuel => simp [readMembers, readMark_blanks h]

theorem numeric_array_cons_iff {item : Json} {items : List Json} :
    Numeric (.array (item :: items)) ↔ Numeric item ∧ Numeric (.array items) := by
  simp only [Numeric, literals, literalsOfItems, List.mem_append, or_imp, forall_and]

theorem numeric_object_cons_iff {key : String} :
    Numeric (.object ((key, value) :: members)) ↔ Numeric value ∧ Numeric (.object members) := by
  simp only [Numeric, literals, literalsOfMembers, List.mem_append, or_imp, forall_and]

section Values

variable {escape : Char → List Char} {commaBlanks colonBlanks : List Char}

theorem exists_cons_of_printSep (escape : Char → List Char) (comma colon : List Char)
    (h : Numeric value) :
    ∃ c tail, printSep escape comma colon value = c :: tail ∧ startsValue c = true := by
  match value with
  | .null => exact ⟨'n', _, rfl, by decide⟩
  | .bool true => exact ⟨'t', _, rfl, by decide⟩
  | .bool false => exact ⟨'f', _, rfl, by decide⟩
  | .number literal =>
      have hliteral := h literal (by simp [literals])
      obtain ⟨unsigned, htext, ⟨c, tail, rfl, hdigit⟩, -⟩ := exists_unsigned hliteral
      obtain htext | htext := htext
      · exact ⟨c, tail, htext, by simp [startsValue, hdigit]⟩
      · exact ⟨'-', c :: tail, htext, by decide⟩
  | .string text => exact ⟨Char.ofNat 0x22, _, rfl, by decide⟩
  | .array items => exact ⟨'[', _, rfl, by decide⟩
  | .object members => exact ⟨Char.ofNat 0x7B, _, rfl, by decide⟩

theorem readText_quote (hescape : Scans escape) (text : String) {fuel : Nat}
    (hfuel : text.toList.length < fuel) (rest : List Char) :
    (readMark (Char.ofNat 0x22) (quote escape text ++ rest)).bind (readText fuel) =
      some (text.toList, rest) := by
  rw [quote, List.append_assoc, List.append_assoc, List.singleton_append,
    readMark_cons (by decide), Option.bind_some, List.singleton_append]
  exact readText_escaped hescape hfuel rest

theorem readWord_append_self (word : String) (value : Json) (rest : List Char) :
    readWord word value (word.toList ++ rest) = some (value, rest) := by
  rw [readWord, if_pos (by simp), ← String.length_toList, List.drop_left]

theorem readValue_of_atom (hstart : startsValue c = true)
    (hother : c.toNat ≠ 0x22 ∧ c ≠ '[' ∧ c.toNat ≠ 0x7B) (nonFinite : Bool) (fuel : Nat)
    (tail : List Char) :
    readValue nonFinite (fuel + 1) (c :: tail) = readAtom nonFinite (c :: tail) := by
  simp [readValue, skipBlanks_of_startsValue hstart, hother]

theorem readValue_number (h : isNumberLiteral literal.toList = true)
    (hrest : ∀ c ∈ rest.head?, isNumberChar c = false) (nonFinite : Bool) (fuel : Nat) :
    readValue nonFinite (fuel + 1) (literal.toList ++ rest) = some (.number literal, rest) := by
  rw [← readAtom_number nonFinite h hrest]
  obtain ⟨unsigned, htext, ⟨c, tail, rfl, hdigit⟩, -⟩ := exists_unsigned h
  obtain htext | htext := htext
  · have hne (n : Nat) (hn : (Char.ofNat n).isDigit = false) : c.toNat ≠ n := by
      rintro rfl
      rw [Char.ofNat_toNat, hdigit] at hn
      simp at hn
    rw [htext, List.cons_append]
    refine readValue_of_atom (by simp [startsValue, hdigit]) ⟨hne _ (by decide), ?_,
      hne _ (by decide)⟩ nonFinite fuel _
    rintro rfl
    exact hne 0x5B (by decide) rfl
  · rw [htext, List.cons_append]
    exact readValue_of_atom (by decide) (by decide) nonFinite fuel _

section Read

set_option linter.unusedSectionVars false

variable (hescape : Scans escape) (hcomma : ∀ c ∈ commaBlanks, isBlank c = true)
  (hcolon : ∀ c ∈ colonBlanks, isBlank c = true) (nonFinite : Bool)
include hescape hcomma hcolon

mutual

theorem readValue_printSep :
    (value : Json) → (fuel : Nat) → (rest : List Char) → Numeric value → weight value ≤ fuel →
      (∀ c ∈ rest.head?, isNumberChar c = false) →
      readValue nonFinite fuel
        (printSep escape (',' :: commaBlanks) (':' :: colonBlanks) value ++ rest) =
          some (normal value, rest)
  | value, 0, rest, _, hfuel, _ => by
      cases value <;> simp [weight] at hfuel
  | .null, fuel + 1, rest, _, _, _ =>
      (readValue_of_atom (by decide) (by decide) nonFinite fuel _).trans
        (readWord_append_self "null" .null rest)
  | .bool true, fuel + 1, rest, _, _, _ =>
      (readValue_of_atom (by decide) (by decide) nonFinite fuel _).trans
        (readWord_append_self "true" (.bool true) rest)
  | .bool false, fuel + 1, rest, _, _, _ =>
      (readValue_of_atom (by decide) (by decide) nonFinite fuel _).trans
        (readWord_append_self "false" (.bool false) rest)
  | .number literal, fuel + 1, rest, hnumeric, _, hrest =>
      readValue_number (hnumeric literal (by simp [literals])) hrest nonFinite fuel
  | .string text, fuel + 1, rest, _, hfuel, _ => by
      have htext : text.toList.length < fuel := by
        simp only [weight] at hfuel
        omega
      have hquote := readText_quote hescape text htext rest
      rw [printSep, normal, quote, List.append_assoc, List.append_assoc, List.singleton_append,
        readValue, skipBlanks_of_startsValue (by decide)]
      rw [quote, List.append_assoc, List.append_assoc, List.singleton_append,
        readMark_cons (by decide), Option.bind_some] at hquote
      dsimp only
      rw [if_pos (by decide), hquote]
      simp
  | .array [], fuel + 1, rest, _, _, _ => by
      simp [printSep, printItemsSep, readValue, skipBlanks, isBlank, readMark, normal, normalItems]
  | .array (item :: items), fuel + 1, rest, hnumeric, hfuel, _ => by
      have hitems := readItems_printSep item items fuel rest hnumeric
        (by simpa [weight] using hfuel)
      obtain ⟨c, tail, hhead, hstart⟩ := exists_cons_of_printSep escape (',' :: commaBlanks)
        (':' :: colonBlanks) (numeric_array_cons_iff.mp hnumeric).1
      have hclose : c ≠ ']' := by
        rintro rfl
        revert hstart
        decide
      have hnone : readMark ']' (printItemsSep escape (',' :: commaBlanks) (':' :: colonBlanks)
          (item :: items) ++ ']' :: rest) = none := by
        rw [printItemsSep, hhead]
        exact readMark_cons_of_ne hstart hclose _
      rw [printSep, normal, List.append_assoc, List.append_assoc, List.singleton_append,
        List.singleton_append, readValue, skipBlanks_of_startsValue (by decide)]
      dsimp only
      rw [if_neg (by decide), if_pos rfl, hnone, hitems]
      rfl
  | .object [], fuel + 1, rest, _, _, _ => by
      rw [printSep, printMembersSep, normal, normalMembers, List.append_nil, List.append_assoc,
        List.singleton_append, List.singleton_append, readValue,
        skipBlanks_of_startsValue (by decide)]
      dsimp only
      rw [if_neg (by decide), if_neg (by decide), if_pos (by decide), readMark_cons (by decide)]
      rfl
  | .object ((key, value) :: members), fuel + 1, rest, hnumeric, hfuel, _ => by
      have hmembers := readMembers_printSep key value members fuel rest hnumeric
        (by simpa [weight] using hfuel)
      have hnone : readMark (Char.ofNat 0x7D) (printMembersSep escape (',' :: commaBlanks)
          (':' :: colonBlanks) ((key, value) :: members) ++ Char.ofNat 0x7D :: rest) = none := by
        rw [printMembersSep, quote]
        exact readMark_cons_of_ne (by decide) (by decide) _
      rw [printSep, normal, List.append_assoc, List.append_assoc, List.singleton_append,
        List.singleton_append, readValue, skipBlanks_of_startsValue (by decide)]
      dsimp only
      rw [if_neg (by decide), if_neg (by decide), if_pos (by decide), hnone, hmembers]
      rfl

theorem readItems_printSep :
    (item : Json) → (items : List Json) → (fuel : Nat) → (rest : List Char) →
      Numeric (.array (item :: items)) → weightItems (item :: items) ≤ fuel →
      readItems nonFinite fuel
        (printItemsSep escape (',' :: commaBlanks) (':' :: colonBlanks) (item :: items) ++
          ']' :: rest) = some (normalItems (item :: items), rest)
  | item, items, 0, rest, _, hfuel => by simp [weightItems] at hfuel
  | item, [], fuel + 1, rest, hnumeric, hfuel => by
      have hitem := readValue_printSep item fuel (']' :: rest)
        (numeric_array_cons_iff.mp hnumeric).1
        (by simp only [weightItems] at hfuel; omega) (by simp [isNumberChar])
      simp only [printItemsSep, List.isEmpty_nil, if_true, List.append_nil]
      rw [readItems, hitem]
      simp [readMark, skipBlanks, isBlank, normalItems]
  | item, next :: items, fuel + 1, rest, hnumeric, hfuel => by
      have hitem := readValue_printSep item fuel
        (',' :: (commaBlanks ++ (printItemsSep escape (',' :: commaBlanks) (':' :: colonBlanks)
          (next :: items) ++ ']' :: rest)))
        (numeric_array_cons_iff.mp hnumeric).1
        (by simp only [weightItems] at hfuel; omega) (by simp [isNumberChar])
      have hitems := readItems_printSep next items fuel rest
        (numeric_array_cons_iff.mp hnumeric).2
        (by simp only [weightItems] at hfuel ⊢; omega)
      rw [printItemsSep]
      simp only [List.isEmpty_cons, Bool.false_eq_true, if_false, List.append_assoc,
        List.cons_append]
      rw [readItems, hitem]
      dsimp only
      rw [readMark_cons (by decide)]
      dsimp only
      rw [readItems_blanks hcomma, hitems]
      rfl

theorem readMembers_printSep :
    (key : String) → (value : Json) → (members : List (String × Json)) → (fuel : Nat) →
      (rest : List Char) → Numeric (.object ((key, value) :: members)) →
      weightMembers ((key, value) :: members) ≤ fuel →
      readMembers nonFinite fuel
        (printMembersSep escape (',' :: commaBlanks) (':' :: colonBlanks)
          ((key, value) :: members) ++ Char.ofNat 0x7D :: rest) =
            some (normalMembers ((key, value) :: members), rest)
  | key, value, members, 0, rest, _, hfuel => by simp [weightMembers] at hfuel
  | key, value, [], fuel + 1, rest, hnumeric, hfuel => by
      simp only [weightMembers] at hfuel
      have hvalue := readValue_printSep value fuel (Char.ofNat 0x7D :: rest)
        (numeric_object_cons_iff.mp hnumeric).1 (by omega) (by simp [isNumberChar])
      have hkey := readText_quote hescape key (show key.toList.length < fuel by omega)
        (':' :: (colonBlanks ++ (printSep escape (',' :: commaBlanks) (':' :: colonBlanks) value ++
          Char.ofNat 0x7D :: rest)))
      simp only [printMembersSep, List.isEmpty_nil, if_true, List.append_nil, List.append_assoc,
        List.cons_append]
      rw [readMembers, hkey]
      dsimp only
      rw [readMark_cons (by decide), Option.bind_some, readValue_blanks hcolon, hvalue]
      simp [readMark, skipBlanks, isBlank, normalMembers]
  | key, value, (key', value') :: members, fuel + 1, rest, hnumeric, hfuel => by
      rw [weightMembers] at hfuel
      have hmembers := readMembers_printSep key' value' members fuel rest
        (numeric_object_cons_iff.mp hnumeric).2 (by omega)
      have hvalue := readValue_printSep value fuel
        (',' :: (commaBlanks ++ (printMembersSep escape (',' :: commaBlanks) (':' :: colonBlanks)
          ((key', value') :: members) ++ Char.ofNat 0x7D :: rest)))
        (numeric_object_cons_iff.mp hnumeric).1
        (by omega) (by simp [isNumberChar])
      have hkey := readText_quote hescape key (show key.toList.length < fuel by omega)
        (':' :: (colonBlanks ++ (printSep escape (',' :: commaBlanks) (':' :: colonBlanks) value ++
          (',' :: (commaBlanks ++ (printMembersSep escape (',' :: commaBlanks)
            (':' :: colonBlanks) ((key', value') :: members) ++ Char.ofNat 0x7D :: rest))))))
      rw [printMembersSep]
      simp only [List.isEmpty_cons, Bool.false_eq_true, if_false, List.append_assoc,
        List.cons_append]
      rw [readMembers, hkey]
      dsimp only
      rw [readMark_cons (by decide), Option.bind_some, readValue_blanks hcolon, hvalue]
      dsimp only
      rw [readMark_cons (by decide)]
      dsimp only
      rw [readMembers_blanks hcomma, hmembers, String.ofList_toList]
      rfl

end

end Read

theorem length_le_flatMap (hescape : Scans escape) (cs : List Char) :
    cs.length ≤ (cs.flatMap escape).length := by
  induction cs with
  | nil => simp
  | cons c cs ih =>
      have hne : escape c ≠ [] := by
        intro hnil
        have hscan := hescape c []
        simp [hnil, readScalar] at hscan
      have hpos := List.length_pos_iff.mpr hne
      simp only [List.flatMap_cons, List.length_append, List.length_cons]
      omega

theorem length_quote (hescape : Scans escape) (text : String) :
    text.toList.length + 2 ≤ (quote escape text).length := by
  have hle := length_le_flatMap hescape text.toList
  simp only [quote, List.length_append, List.length_singleton]
  omega

section Weights

set_option linter.unusedSectionVars false

variable (hescape : Scans escape) (commaBlanks colonBlanks : List Char)
include hescape

mutual

theorem weight_le :
    (value : Json) → Numeric value →
      weight value ≤
        2 * (printSep escape (',' :: commaBlanks) (':' :: colonBlanks) value).length
  | .null, _ => by simp [weight, printSep]
  | .bool value, _ => by
      rw [weight, printSep]
      cases value <;> decide
  | .number literal, hnumeric => by
      obtain ⟨c, tail, hhead, -⟩ := exists_cons_of_printSep escape (',' :: commaBlanks)
        (':' :: colonBlanks) hnumeric
      rw [hhead, weight, List.length_cons]
      omega
  | .string text, _ => by
      have hle := length_quote hescape text
      simp only [weight, printSep]
      omega
  | .array items, hnumeric => by
      have hle := weightItems_le items hnumeric
      simp only [weight, printSep, List.length_append, List.length_singleton]
      omega
  | .object members, hnumeric => by
      have hle := weightMembers_le members hnumeric
      simp only [weight, printSep, List.length_append, List.length_singleton]
      omega

theorem weightItems_le :
    (items : List Json) → Numeric (.array items) →
      weightItems items ≤
        2 * (printItemsSep escape (',' :: commaBlanks) (':' :: colonBlanks) items).length + 1
  | [], _ => by simp [weightItems]
  | item :: items, hnumeric => by
      obtain ⟨hfirst, hrest⟩ := numeric_array_cons_iff.mp hnumeric
      have hitem := weight_le item hfirst
      have hitems := weightItems_le items hrest
      cases items with
      | nil =>
          simp only [weightItems, printItemsSep, List.length_append]
          omega
      | cons next items =>
          rw [weightItems, printItemsSep]
          simp only [List.isEmpty_cons, Bool.false_eq_true, if_false, List.length_append,
            List.length_cons]
          omega

theorem weightMembers_le :
    (members : List (String × Json)) → Numeric (.object members) →
      weightMembers members ≤
        2 * (printMembersSep escape (',' :: commaBlanks) (':' :: colonBlanks) members).length
  | [], _ => by simp [weightMembers]
  | (key, value) :: members, hnumeric => by
      have hkey := length_quote hescape key
      obtain ⟨hfirst, hrest⟩ := numeric_object_cons_iff.mp hnumeric
      have hvalue := weight_le value hfirst
      have hmembers := weightMembers_le members hrest
      rw [weightMembers, printMembersSep]
      simp only [List.length_append, List.length_cons]
      omega

end

end Weights

/-- A printed value is read to its end. -/
theorem readValue_printed (hescape : Scans escape) (commaBlanks colonBlanks : List Char)
    (hcomma : ∀ c ∈ commaBlanks, isBlank c = true) (hcolon : ∀ c ∈ colonBlanks, isBlank c = true)
    (nonFinite : Bool) (hnumeric : Numeric value) :
    readValue nonFinite
      (2 * (printSep escape (',' :: commaBlanks) (':' :: colonBlanks) value).length + 2)
      (printSep escape (',' :: commaBlanks) (':' :: colonBlanks) value) =
        some (normal value, []) := by
  have hweight := weight_le hescape commaBlanks colonBlanks value hnumeric
  have hread := readValue_printSep hescape hcomma hcolon nonFinite value _ [] hnumeric
    (Nat.le_trans hweight (Nat.le_add_right _ 2)) (by simp)
  rwa [List.append_nil] at hread

theorem parse_print (hescape : Scans escape) (nonFinite : Bool) (hnumeric : Numeric value) :
    parse nonFinite (print escape value) = some (normal value) := by
  rw [← printSep_compact, parse, readValue_printed hescape [] [] (by simp) (by simp) nonFinite
    hnumeric]
  simp [skipBlanks]

/-- A printed object that is cut is no JSON text. -/
theorem parse_cut_print (hescape : Scans escape) (nonFinite : Bool)
    (hnumeric : Numeric (.object members)) {more : List Char}
    (hcut : print escape (.object members) = text ++ more) (htext : text ≠ []) (hmore : more ≠ []) :
    parse nonFinite text = none := by
  have hread := readValue_printed hescape [] [] (by simp) (by simp) nonFinite hnumeric
  rw [printSep_compact] at hread
  obtain ⟨c, tail, rfl⟩ := List.exists_cons_of_ne_nil htext
  have hc : c = Char.ofNat 0x7B := by
    rw [print, List.cons_append, List.cons_append, List.cons_append, List.cons.injEq] at hcut
    exact hcut.1.symm
  refine parse_eq_none_of_cut ⟨tail, ?_⟩ (hcut ▸ hread) hmore
  rw [hc]
  exact skipBlanks_of_startsValue (by decide) tail

/-- A printed value with more text after it is no JSON text. -/
theorem parse_print_append (hescape : Scans escape) (nonFinite : Bool) (hnumeric : Numeric value)
    (hstart : startsValue c = true) (hnumber : isNumberChar c = false) (rest : List Char) :
    parse nonFinite (print escape value ++ c :: rest) = none := by
  have hweight := weight_le hescape [] [] value hnumeric
  rw [printSep_compact] at hweight
  have hfuel : weight value ≤ 2 * (print escape value ++ c :: rest).length + 2 := by
    rw [List.length_append]
    omega
  have hblank : ∀ c ∈ ([] : List Char), isBlank c = true := by simp
  have hread := readValue_printSep hescape hblank hblank nonFinite value _ (c :: rest) hnumeric
    hfuel (by simpa using hnumber)
  rw [printSep_compact] at hread
  rw [parse, hread]
  simp [skipBlanks_of_startsValue hstart]

end Values

/-! ## Texts on one line -/

/-- A character that is no control character. -/
def Printable (c : Char) : Prop := 0x20 ≤ c.toNat

instance : DecidablePred Printable := fun c => inferInstanceAs (Decidable (0x20 ≤ c.toNat))

theorem printable_hexDigit {n : Nat} (h : n < 16) : Printable (Text.hexDigit n) := by
  revert n
  decide

theorem printable_of_mem_serdeEscape {d : Char} (h : d ∈ serdeEscape c) : Printable d := by
  unfold serdeEscape at h
  split at h
  case h_1 letter hletter =>
    have hshort : Printable letter := by
      unfold shortEscape at hletter
      unfold Printable
      split_ifs at hletter <;> obtain rfl := Option.some.inj hletter <;> simp [*]
    simp only [List.mem_cons, List.not_mem_nil, or_false] at h
    obtain rfl | rfl := h
    · decide
    · exact hshort
  case h_2 =>
    split_ifs at h with hcontrol
    · simp only [unicodeEscape, List.map_cons, List.map_nil, List.mem_cons, List.not_mem_nil,
        or_false] at h
      obtain rfl | rfl | rfl | rfl | rfl | rfl := h
      · decide
      · decide
      all_goals exact printable_hexDigit (Nat.mod_lt _ (by decide))
    · obtain rfl := List.mem_singleton.mp h
      exact Nat.le_of_not_lt hcontrol

theorem printable_quote (text : String) : ∀ c ∈ quote serdeEscape text, Printable c := by
  intro c hc
  simp only [quote, List.mem_append, List.mem_singleton, List.mem_flatMap] at hc
  obtain (rfl | ⟨d, -, hd⟩) | rfl := hc
  · decide
  · exact printable_of_mem_serdeEscape hd
  · decide

theorem printable_of_isNumberChar (h : isNumberChar c = true) : Printable c := by
  simp only [isNumberChar, Bool.or_eq_true, beq_iff_eq, Char.isDigit, Bool.and_eq_true,
    decide_eq_true_eq] at h
  obtain ((((h | rfl) | rfl) | rfl) | rfl) | rfl := h
  · have hzero : (48 : UInt32).toNat ≤ c.val.toNat := UInt32.le_iff_toNat_le.mp h.1
    exact Nat.le_trans (by decide) hzero
  all_goals decide

theorem printable_of_all (h : (text.all fun c => decide (Printable c)) = true) :
    ∀ c ∈ text, Printable c := by
  simpa only [List.all_eq_true, decide_eq_true_eq] using h

mutual

theorem printable_print : (value : Json) → Numeric value →
    ∀ c ∈ print serdeEscape value, Printable c
  | .null, _ | .bool true, _ | .bool false, _ => printable_of_all (by decide)
  | .number literal, h => fun c hc =>
      printable_of_isNumberChar (isNumberChar_of_isNumberLiteral (h literal (by simp [literals])) c hc)
  | .string text, _ => printable_quote text
  | .array items, h => by
      simp only [print, List.mem_append, List.mem_singleton]
      rintro c ((rfl | hc) | rfl)
      · decide
      · exact printable_printItems items h c hc
      · decide
  | .object members, h => by
      simp only [print, List.mem_append, List.mem_singleton]
      rintro c ((rfl | hc) | rfl)
      · decide
      · exact printable_printMembers members h c hc
      · decide

theorem printable_printItems : (items : List Json) →
    (∀ literal ∈ literalsOfItems items, isNumberLiteral literal.toList = true) →
    ∀ c ∈ printItems serdeEscape items, Printable c
  | [], _ => by simp [printItems]
  | item :: items, h => by
      simp only [literalsOfItems, List.mem_append] at h
      have hitem := printable_print item fun literal hmem => h literal (.inl hmem)
      have hitems := printable_printItems items fun literal hmem => h literal (.inr hmem)
      simp only [printItems, List.mem_append]
      rintro c ((hc | hc) | hc)
      · exact hitem c hc
      · split_ifs at hc <;> simp_all [Printable]
      · exact hitems c hc

theorem printable_printMembers : (members : List (String × Json)) →
    (∀ literal ∈ literalsOfMembers members, isNumberLiteral literal.toList = true) →
    ∀ c ∈ printMembers serdeEscape members, Printable c
  | [], _ => by simp [printMembers]
  | (key, value) :: members, h => by
      simp only [literalsOfMembers, List.mem_append] at h
      have hvalue := printable_print value fun literal hmem => h literal (.inl hmem)
      have hmembers := printable_printMembers members fun literal hmem => h literal (.inr hmem)
      simp only [printMembers, List.mem_append]
      rintro c ((((hc | hc) | hc) | hc) | hc)
      · exact printable_quote key c hc
      · simp_all [Printable]
      · exact hvalue c hc
      · split_ifs at hc <;> simp_all [Printable]
      · exact hmembers c hc

end

/-! ## Values in order -/

theorem Ordered.normal (h : Ordered value) : normal value = value := by
  induction h with
  | null | bool | number | string => rfl
  | @array items h ih =>
      rw [Json.normal, normalItems_eq_map, List.map_congr_left ih, List.map_id']
  | @object members sorted h ih =>
      have hmembers : normalMembers members = members := by
        rw [normalMembers_eq_map]
        conv_rhs => rw [← List.map_id' members]
        refine List.map_congr_left ?_
        intro member hmember
        rw [ih member hmember]
      have hsorted : Assoc.insertAll members [] = [] ++ members :=
        Assoc.insertAll_eq_append (by simpa using sorted)
      rw [Json.normal, hmembers, hsorted, List.nil_append]

theorem ordered_of_readWord {word : String} {read : Json} (hvalue : Ordered value)
    (h : readWord word value text = some (read, rest)) :
    Ordered read := by
  unfold readWord at h
  split_ifs at h
  simp only [Option.some.injEq, Prod.mk.injEq] at h
  exact h.1 ▸ hvalue

theorem ordered_of_readAtom {nonFinite : Bool} (h : readAtom nonFinite text = some (value, rest)) :
    Ordered value := by
  unfold readAtom at h
  split at h
  case h_1 => exact ordered_of_readWord .null h
  case h_2 => exact ordered_of_readWord (.bool true) h
  case h_3 => exact ordered_of_readWord (.bool false) h
  case h_7 =>
    unfold readNumber at h
    simp only at h
    split_ifs at h
    simp only [Option.some.injEq, Prod.mk.injEq] at h
    exact h.1 ▸ .number _
  all_goals
    split_ifs at h
    exact ordered_of_readWord (.number _) h

/-- Whatever is read has its members in order.  The induction is on the fuel, over the three
readers at once. -/
theorem ordered_of_read (nonFinite : Bool) (fuel : Nat) :
    (∀ text value rest, readValue nonFinite fuel text = some (value, rest) → Ordered value) ∧
    (∀ text items rest, readItems nonFinite fuel text = some (items, rest) →
      ∀ item ∈ items, Ordered item) ∧
    (∀ text members rest, readMembers nonFinite fuel text = some (members, rest) →
      ∀ member ∈ members, Ordered member.2) := by
  induction fuel with
  | zero => simp [readValue, readItems, readMembers]
  | succ fuel ih =>
      obtain ⟨ihValue, ihItems, ihMembers⟩ := ih
      refine ⟨?_, ?_, ?_⟩
      · intro text value rest h
        unfold readValue at h
        split at h
        · simp at h
        split_ifs at h
        · obtain ⟨read, -, hread⟩ := Option.map_eq_some_iff.mp h
          simp only [Prod.mk.injEq] at hread
          exact hread.1 ▸ .string _
        · split at h
          · simp only [Option.some.injEq, Prod.mk.injEq] at h
            exact h.1 ▸ .array (by simp)
          · obtain ⟨read, hitems, hread⟩ := Option.map_eq_some_iff.mp h
            simp only [Prod.mk.injEq] at hread
            exact hread.1 ▸ .array (ihItems _ read.1 read.2 hitems)
        · split at h
          · simp only [Option.some.injEq, Prod.mk.injEq] at h
            exact h.1 ▸ .object List.Pairwise.nil (by simp)
          · obtain ⟨read, hmembers, hread⟩ := Option.map_eq_some_iff.mp h
            simp only [Prod.mk.injEq] at hread
            refine hread.1 ▸ .object (Assoc.Sorted.insertAll List.Pairwise.nil _) ?_
            intro member hmember
            obtain hnew | hold := Assoc.mem_insertAll hmember
            · exact ihMembers _ read.1 read.2 hmembers member hnew
            · simp at hold
        · exact ordered_of_readAtom h
      · intro text items rest h
        unfold readItems at h
        split at h
        · simp at h
        case h_2 item after hitem =>
          split at h
          · obtain ⟨read, hitems, hread⟩ := Option.map_eq_some_iff.mp h
            simp only [Prod.mk.injEq] at hread
            rw [← hread.1]
            simpa using ⟨ihValue _ _ _ hitem, ihItems _ read.1 read.2 hitems⟩
          · obtain ⟨rest', -, hread⟩ := Option.map_eq_some_iff.mp h
            simp only [Prod.mk.injEq] at hread
            rw [← hread.1]
            simpa using ihValue _ _ _ hitem
      · intro text members rest h
        unfold readMembers at h
        split at h
        · simp at h
        split at h
        · simp at h
        case h_2 value after hvalue =>
          obtain ⟨marked, -, hvalue⟩ := Option.bind_eq_some_iff.mp hvalue
          simp only at h
          split at h
          · obtain ⟨read, hmembers, hread⟩ := Option.map_eq_some_iff.mp h
            simp only [Prod.mk.injEq] at hread
            rw [← hread.1, List.forall_mem_cons]
            exact ⟨ihValue _ _ _ hvalue, ihMembers _ read.1 read.2 hmembers⟩
          · obtain ⟨rest', -, hread⟩ := Option.map_eq_some_iff.mp h
            simp only [Prod.mk.injEq] at hread
            rw [← hread.1, List.forall_mem_singleton]
            exact ihValue _ _ _ hvalue

theorem ordered_of_parse {nonFinite : Bool} (h : parse nonFinite text = some value) :
    Ordered value := by
  unfold parse at h
  split at h
  · simp at h
  case h_2 read rest hread =>
    split_ifs at h
    obtain rfl := Option.some.inj h
    exact (ordered_of_read nonFinite _).1 _ _ _ hread

/-- A text determines the value that it was printed from. -/
theorem print_inj {escape : Char → List Char} (hescape : Scans escape) {a b : Json}
    (ha : Ordered a) (hb : Ordered b) (hnumericA : Numeric a) (hnumericB : Numeric b)
    (h : print escape a = print escape b) : a = b := by
  have hparse := parse_print hescape true hnumericA
  rw [h, parse_print hescape true hnumericB, ha.normal, hb.normal] at hparse
  exact (Option.some.inj hparse).symm

end Json
