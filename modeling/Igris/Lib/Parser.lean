import Igris.Lib.Reading

/-!
# Parsing JSON texts

A parser for JSON texts, with white space, escapes and surrogate pairs.  Objects list their
members in the order of the keys; of several members with one key the last one counts.

Main results:

- Theorem {lit}`readValue_append`: what follows a value does not change how it is read.
- Theorem {lit}`parse_eq_none_of_cut`: the text of an object that is cut anywhere is no
  JSON text.
-/

namespace Json

/-! ## Characters and texts -/

def isBlank (c : Char) : Bool :=
  c == ' ' || c == '\t' || c == '\n' || c == '\r'

def skipBlanks (text : List Char) : List Char := text.dropWhile isBlank

/-- What follows a mark, which may stand after white space. -/
def readMark (mark : Char) (text : List Char) : Option (List Char) :=
  match skipBlanks text with
  | [] => none
  | c :: rest => if c = mark then some rest else none

/-- A character that is escaped as a pair of surrogates. -/
def readPair : List Char → Option (Char × List Char)
  | '\\' :: 'u' :: text =>
      match readUnit text with
      | some (high, '\\' :: 'u' :: text) =>
          match readUnit text with
          | some (low, rest) =>
              if 0xD800 ≤ high ∧ high < 0xDC00 ∧ 0xDC00 ≤ low ∧ low < 0xE000 then
                some (Char.ofNat (0x10000 + (high - 0xD800) * 0x400 + (low - 0xDC00)), rest)
              else none
          | none => none
      | _ => none
  | _ => none

/-- The next character of a text between quotes.  Control characters must be escaped. -/
def readScalar (text : List Char) : Option (Char × List Char) :=
  match text with
  | [] => none
  | c :: _ =>
      if c.toNat < 0x20 then none
      else
        match readPair text with
        | some read => some read
        | none => readChar text

/-- The characters up to the closing quote, and what follows it. -/
def readText : Nat → List Char → Option (List Char × List Char)
  | 0, _ => none
  | _ + 1, [] => none
  | fuel + 1, c :: text =>
      if c.toNat = 0x22 then some ([], text)
      else
        match readScalar (c :: text) with
        | none => none
        | some (d, rest) => (readText fuel rest).map fun read => (d :: read.1, read.2)

/-! ## Numbers and words -/

def isNumberChar (c : Char) : Bool :=
  c.isDigit || c == '-' || c == '+' || c == '.' || c == 'e' || c == 'E'

/-- What follows one digit or more. -/
def dropDigits (text : List Char) : Option (List Char) :=
  if text.head?.any Char.isDigit then some (text.dropWhile Char.isDigit) else none

/-- What follows the integer part: no leading zero. -/
def dropInteger : List Char → Option (List Char)
  | '0' :: text => some text
  | text => dropDigits text

def dropFraction : List Char → Option (List Char)
  | '.' :: text => dropDigits text
  | text => some text

def dropSign : List Char → List Char
  | '+' :: text | '-' :: text => text
  | text => text

def dropExponent : List Char → Option (List Char)
  | 'e' :: text | 'E' :: text => dropDigits (dropSign text)
  | text => some text

/-- A number as JSON writes it. -/
def isNumberLiteral (text : List Char) : Bool :=
  let unsigned := if text.head? = some '-' then text.tail else text
  ((dropInteger unsigned).bind dropFraction).bind dropExponent = some []

def readNumber (text : List Char) : Option (Json × List Char) :=
  let literal := text.takeWhile isNumberChar
  if isNumberLiteral literal then
    some (.number (String.ofList literal), text.dropWhile isNumberChar)
  else none

def readWord (word : String) (value : Json) (text : List Char) : Option (Json × List Char) :=
  if word.toList.isPrefixOf text then some (value, text.drop word.length) else none

/-- A value that is no text, array or object.  Some parsers read numbers that are not
finite. -/
def readAtom (nonFinite : Bool) : List Char → Option (Json × List Char)
  | 'n' :: text => readWord "null" .null ('n' :: text)
  | 't' :: text => readWord "true" (.bool true) ('t' :: text)
  | 'f' :: text => readWord "false" (.bool false) ('f' :: text)
  | 'N' :: text => if nonFinite then readWord "NaN" (.number "NaN") ('N' :: text) else none
  | 'I' :: text =>
      if nonFinite then readWord "Infinity" (.number "Infinity") ('I' :: text) else none
  | '-' :: 'I' :: text =>
      if nonFinite then readWord "-Infinity" (.number "-Infinity") ('-' :: 'I' :: text) else none
  | text => readNumber text

/-! ## Values -/

mutual

/-- A value and what follows it. -/
def readValue (nonFinite : Bool) : Nat → List Char → Option (Json × List Char)
  | 0, _ => none
  | fuel + 1, text =>
      match skipBlanks text with
      | [] => none
      | c :: rest =>
          if c.toNat = 0x22 then
            (readText fuel rest).map fun read => (.string (String.ofList read.1), read.2)
          else if c = '[' then
            match readMark ']' rest with
            | some rest => some (.array [], rest)
            | none => (readItems nonFinite fuel rest).map fun read => (.array read.1, read.2)
          else if c.toNat = 0x7B then
            match readMark (Char.ofNat 0x7D) rest with
            | some rest => some (.object [], rest)
            | none => (readMembers nonFinite fuel rest).map fun read =>
                (.object (Assoc.insertAll read.1 []), read.2)
          else readAtom nonFinite (c :: rest)

/-- One item or more, up to the closing bracket. -/
def readItems (nonFinite : Bool) : Nat → List Char → Option (List Json × List Char)
  | 0, _ => none
  | fuel + 1, text =>
      match readValue nonFinite fuel text with
      | none => none
      | some (item, rest) =>
          match readMark ',' rest with
          | some rest =>
              (readItems nonFinite fuel rest).map fun read => (item :: read.1, read.2)
          | none => (readMark ']' rest).map fun rest => ([item], rest)

/-- One member or more, up to the closing brace. -/
def readMembers (nonFinite : Bool) : Nat → List Char → Option (List (String × Json) × List Char)
  | 0, _ => none
  | fuel + 1, text =>
      match (readMark (Char.ofNat 0x22) text).bind (readText fuel) with
      | none => none
      | some (key, rest) =>
          match (readMark ':' rest).bind (readValue nonFinite fuel) with
          | none => none
          | some (value, rest) =>
              let member := (String.ofList key, value)
              match readMark ',' rest with
              | some rest =>
                  (readMembers nonFinite fuel rest).map fun read => (member :: read.1, read.2)
              | none => (readMark (Char.ofNat 0x7D) rest).map fun rest => ([member], rest)

end

/-- The value of a text that holds one value and nothing else. -/
def parse (nonFinite : Bool) (text : List Char) : Option Json :=
  match readValue nonFinite (2 * text.length + 2) text with
  | none => none
  | some (value, rest) => if skipBlanks rest = [] then some value else none

/-! ## Reading does not look ahead -/

variable {rest text : List Char} {mark : Char}

variable {c : Char} {fuel : Nat} {value : Json}

theorem skipBlanks_append (h : skipBlanks text = c :: rest) (more : List Char) :
    skipBlanks (text ++ more) = c :: (rest ++ more) := by
  rw [skipBlanks, List.dropWhile_append, ← skipBlanks, h]
  rfl

theorem readMark_eq_some_iff : readMark mark text = some rest ↔ skipBlanks text = mark :: rest := by
  unfold readMark
  split <;> rename_i hskip
  · simp [hskip]
  · rw [hskip]
    split_ifs with hc
    · simp [hc]
    · simp [hc]

theorem readMark_append (h : readMark mark text = some rest) (more : List Char) :
    readMark mark (text ++ more) = some (rest ++ more) :=
  readMark_eq_some_iff.mpr (skipBlanks_append (readMark_eq_some_iff.mp h) more)

theorem skipBlanks_ne_nil (h : readMark mark text = some rest) : skipBlanks text ≠ [] := by
  simp [readMark_eq_some_iff.mp h]

theorem ne_nil_of_readMark (h : readMark mark text = some rest) : text ≠ [] := by
  rintro rfl
  exact skipBlanks_ne_nil h rfl

/-- A mark that is missing is still missing if something else is there. -/
theorem readMark_append_of_none (h : readMark mark text = none) (hskip : skipBlanks text ≠ [])
    (more : List Char) : readMark mark (text ++ more) = none := by
  obtain ⟨c, rest, hcons⟩ := List.exists_cons_of_ne_nil hskip
  have hc : c ≠ mark := by
    rintro rfl
    rw [readMark_eq_some_iff.mpr hcons] at h
    exact Option.some_ne_none rest h
  simp [readMark, skipBlanks_append hcons more, hc]

theorem readUnit_append {n : Nat} (h : readUnit text = some (n, rest)) (more : List Char) :
    readUnit (text ++ more) = some (n, rest ++ more) := by
  match text with
  | a :: b :: c :: d :: tail =>
      simp only [readUnit, List.cons_append] at h ⊢
      split at h
      · simp only [Option.some.injEq, Prod.mk.injEq] at h
        simp [h]
      · simp at h
  | [] | [_] | [_, _] | [_, _, _] => simp [readUnit] at h

theorem readChar_append (h : readChar text = some (c, rest)) (more : List Char) :
    readChar (text ++ more) = some (c, rest ++ more) := by
  cases text with
  | nil => simp [readChar] at h
  | cons d tail =>
      simp only [readChar, List.cons_append] at h ⊢
      split_ifs at h ⊢ with hquote hslash
      · cases tail with
        | nil => simp at h
        | cons letter tail =>
            simp only [List.cons_append] at h ⊢
            split_ifs at h ⊢
            · obtain ⟨⟨n, tail'⟩, hunit, hvalid⟩ := Option.bind_eq_some_iff.mp h
              simp only [readUnit_append hunit more, Option.bind_some]
              split_ifs at hvalid ⊢ with hv
              simp only [Option.some.injEq, Prod.mk.injEq] at hvalid ⊢
              simp [hvalid]
            · obtain ⟨e, he, hpair⟩ := Option.map_eq_some_iff.mp h
              simp only [Prod.mk.injEq] at hpair
              simp [he, hpair]
      · simp only [Option.some.injEq, Prod.mk.injEq] at h
        simp [h]

theorem readPair_append {read : Char × List Char} (h : readPair text = some read) (more : List Char) :
    readPair (text ++ more) = some (read.1, read.2 ++ more) := by
  unfold readPair at h
  split at h
  · split at h
    · rename_i hunit
      split at h
      · rename_i hunit'
        have hunit := readUnit_append hunit more
        have hunit' := readUnit_append hunit' more
        split_ifs at h with hrange
        simp only [Option.some.injEq] at h
        simp [readPair, hunit, hunit', hrange, ← h]
      · simp at h
    · simp at h
  · simp at h

/-- What is read as one character is no pair. -/
theorem readPair_eq_none {read : Char × List Char} (h : readChar text = some read) :
    readPair text = none := by
  unfold readPair
  split
  · rename_i tail
    split
    · rename_i high low hunit
      split
      · split_ifs with hrange
        · -- the first half is no character
          have hinvalid : ¬ high.isValidChar := by
            simp only [Nat.isValidChar]
            omega
          simp [readChar, hunit, hinvalid] at h
        · rfl
      · rfl
    · rfl
  · rfl

theorem readScalar_append (h : readScalar text = some (c, rest)) (more : List Char) :
    readScalar (text ++ more) = some (c, rest ++ more) := by
  match text with
  | [] => simp [readScalar] at h
  | d :: tail =>
      simp only [readScalar] at h
      split_ifs at h with hcontrol
      simp only [List.cons_append, readScalar, if_neg hcontrol]
      rw [← List.cons_append]
      split at h
      · rename_i hpair
        rw [readPair_append hpair more]
        simp only [Option.some.injEq] at h
        simp [h]
      · have hchar := readChar_append h more
        rw [readPair_eq_none hchar]
        exact hchar

theorem readText_append {fuel' : Nat} {cs rest : List Char} (hle : fuel ≤ fuel')
    (h : readText fuel text = some (cs, rest)) (more : List Char) :
    readText fuel' (text ++ more) = some (cs, rest ++ more) := by
  induction fuel generalizing fuel' text cs rest with
  | zero => simp [readText] at h
  | succ fuel ih =>
      obtain ⟨fuel', rfl⟩ := Nat.exists_eq_add_of_lt hle
      match text with
      | [] => simp [readText] at h
      | c :: tail =>
          simp only [readText, List.cons_append] at h ⊢
          split_ifs at h ⊢ with hquote
          · simp only [Option.some.injEq, Prod.mk.injEq] at h
            simp [h]
          · split at h
            · simp at h
            · rename_i d tail' hscalar
              obtain ⟨⟨ds, tail''⟩, htext, hread⟩ := Option.map_eq_some_iff.mp h
              simp only [Prod.mk.injEq] at hread
              rw [← List.cons_append, readScalar_append hscalar more]
              simp [ih (Nat.le_add_right ..) htext, hread]

theorem readNumber_append (h : readNumber text = some (value, rest)) (hrest : rest ≠ [])
    (more : List Char) :
    readNumber (text ++ more) = some (value, rest ++ more) := by
  unfold readNumber at h ⊢
  dsimp only at h ⊢
  split_ifs at h with hliteral
  simp only [Option.some.injEq, Prod.mk.injEq] at h
  have hdrop : text.dropWhile isNumberChar ≠ [] := by simpa [h.2] using hrest
  have htake : (text.takeWhile isNumberChar).length ≠ text.length := by
    intro hlength
    have happend := List.takeWhile_append_dropWhile (p := isNumberChar) (l := text)
    have hsum := congrArg List.length happend
    rw [List.length_append, hlength] at hsum
    exact hdrop (List.length_eq_zero_iff.mp (by omega))
  rw [List.takeWhile_append, if_neg htake, if_pos hliteral, List.dropWhile_append, h.2]
  simp [hrest, h.1]

theorem readWord_append {word : String} {read : Json}
    (h : readWord word value text = some (read, rest)) (more : List Char) :
    readWord word value (text ++ more) = some (read, rest ++ more) := by
  unfold readWord at h ⊢
  split_ifs at h with hprefix
  simp only [Option.some.injEq, Prod.mk.injEq] at h
  obtain ⟨tail, rfl⟩ := List.isPrefixOf_iff_prefix.mp hprefix
  rw [← String.length_toList, List.drop_left] at h
  rw [if_pos (by simp), ← String.length_toList, List.append_assoc, List.drop_left, h.1, h.2]

theorem readAtom_append {nonFinite : Bool} (h : readAtom nonFinite text = some (value, rest))
    (hrest : rest ≠ []) (more : List Char) :
    readAtom nonFinite (text ++ more) = some (value, rest ++ more) := by
  unfold readAtom at h
  split at h
  · exact readWord_append h more
  · exact readWord_append h more
  · exact readWord_append h more
  · split_ifs at h with hfinite
    simpa [readAtom, hfinite] using readWord_append h more
  · split_ifs at h with hfinite
    simpa [readAtom, hfinite] using readWord_append h more
  · split_ifs at h with hfinite
    simpa [readAtom, hfinite] using readWord_append h more
  · rename_i hn ht hf hN hI hm
    have hnumber := readNumber_append h hrest more
    match text with
    | [] => simp [readNumber, isNumberLiteral, dropInteger, dropDigits] at h
    | [c] =>
        -- nothing is left behind a single character
        by_cases hc : isNumberChar c = true
        · simp only [readNumber, List.dropWhile_cons, hc, if_true, List.dropWhile_nil] at h
          split_ifs at h
          simp only [Option.some.injEq, Prod.mk.injEq] at h
          exact absurd h.2.symm hrest
        · simp [readNumber, hc, isNumberLiteral, dropInteger, dropDigits] at h
    | c :: d :: tail =>
        rw [← hnumber, List.cons_append, List.cons_append, readAtom]
        all_goals
          intro more heq
          simp_all

/-- The text starts an object. -/
def OpensObject (text : List Char) : Prop :=
  ∃ tail, skipBlanks text = Char.ofNat 0x7B :: tail

section Reading

variable {nonFinite : Bool}

theorem skipBlanks_ne_nil_of_readValue {read : Json × List Char}
    (h : readValue nonFinite fuel text = some read) : skipBlanks text ≠ [] := by
  intro hskip
  cases fuel with
  | zero => simp [readValue] at h
  | succ fuel => simp [readValue, hskip] at h

theorem skipBlanks_ne_nil_of_readItems {read : List Json × List Char}
    (h : readItems nonFinite fuel text = some read) : skipBlanks text ≠ [] := by
  cases fuel with
  | zero => simp [readItems] at h
  | succ fuel =>
      rw [readItems] at h
      split at h
      · simp at h
      · rename_i hvalue
        exact skipBlanks_ne_nil_of_readValue hvalue

theorem skipBlanks_ne_nil_of_readMembers {read : List (String × Json) × List Char}
    (h : readMembers nonFinite fuel text = some read) :
    skipBlanks text ≠ [] := by
  cases fuel with
  | zero => simp [readMembers] at h
  | succ fuel =>
      rw [readMembers] at h
      split at h
      · simp at h
      · rename_i hkey
        obtain ⟨rest, hmark, -⟩ := Option.bind_eq_some_iff.mp hkey
        exact skipBlanks_ne_nil hmark

/-- Reading is stable under more fuel and under what follows the value, unless it is a number at
the very end. -/
theorem readValue_append_of {fuel' : Nat} (hle : fuel ≤ fuel')
    (hitems : ∀ {text rest : List Char} {items : List Json} (more : List Char),
      readItems nonFinite fuel text = some (items, rest) →
        readItems nonFinite fuel' (text ++ more) = some (items, rest ++ more))
    (hmembers : ∀ {text rest : List Char} {members : List (String × Json)} (more : List Char),
      readMembers nonFinite fuel text = some (members, rest) →
        readMembers nonFinite fuel' (text ++ more) = some (members, rest ++ more))
    {rest : List Char} (more : List Char)
    (h : readValue nonFinite (fuel + 1) text = some (value, rest))
    (hend : rest ≠ [] ∨ OpensObject text) :
    readValue nonFinite (fuel' + 1) (text ++ more) = some (value, rest ++ more) := by
  unfold readValue at h ⊢
  split at h
  · simp at h
  · rename_i c tail hskip
    rw [skipBlanks_append hskip more]
    dsimp only
    split_ifs at h ⊢ with hquote hopen hbrace
    · obtain ⟨⟨cs, tail'⟩, htext, hread⟩ := Option.map_eq_some_iff.mp h
      simp only [Prod.mk.injEq] at hread
      simp [readText_append hle htext more, hread]
    · split at h
      · rename_i hmark
        simp only [Option.some.injEq, Prod.mk.injEq] at h
        simp [readMark_append hmark more, h]
      · rename_i hmark
        obtain ⟨⟨items, tail'⟩, hread, hvalue⟩ := Option.map_eq_some_iff.mp h
        simp only [Prod.mk.injEq] at hvalue
        have hnone := readMark_append_of_none hmark (skipBlanks_ne_nil_of_readItems hread) more
        simp [hnone, hitems more hread, hvalue]
    · split at h
      · rename_i hmark
        simp only [Option.some.injEq, Prod.mk.injEq] at h
        simp [readMark_append hmark more, h]
      · rename_i hmark
        obtain ⟨⟨members, tail'⟩, hread, hvalue⟩ := Option.map_eq_some_iff.mp h
        simp only [Prod.mk.injEq] at hvalue
        have hnone := readMark_append_of_none hmark (skipBlanks_ne_nil_of_readMembers hread) more
        simp [hnone, hmembers more hread, hvalue]
    · refine readAtom_append h ?_ more
      refine hend.resolve_right ?_
      rintro ⟨tail', htail⟩
      rw [hskip, List.cons.injEq] at htail
      exact hbrace (by rw [htail.1]; decide)

mutual

theorem readValue_append {fuel fuel' : Nat} {text rest : List Char} {value : Json}
    (hle : fuel ≤ fuel') (more : List Char)
    (h : readValue nonFinite fuel text = some (value, rest))
    (hend : rest ≠ [] ∨ OpensObject text) :
    readValue nonFinite fuel' (text ++ more) = some (value, rest ++ more) := by
  match fuel with
  | 0 => simp [readValue] at h
  | fuel + 1 =>
      obtain ⟨extra, rfl⟩ := Nat.exists_eq_add_of_lt hle
      have hle := Nat.le_add_right fuel extra
      exact readValue_append_of hle (fun more h => readItems_append hle more h)
        (fun more h => readMembers_append hle more h) more h hend

theorem readItems_append {fuel fuel' : Nat} {text rest : List Char} {items : List Json}
    (hle : fuel ≤ fuel') (more : List Char)
    (h : readItems nonFinite fuel text = some (items, rest)) :
    readItems nonFinite fuel' (text ++ more) = some (items, rest ++ more) := by
  match fuel with
  | 0 => simp [readItems] at h
  | fuel + 1 =>
      obtain ⟨extra, rfl⟩ := Nat.exists_eq_add_of_lt hle
      have hle := Nat.le_add_right fuel extra
      rw [readItems] at h ⊢
      split at h
      · simp at h
      · rename_i item tail hitem
        split at h
        · rename_i hcomma
          obtain ⟨⟨items', tail'⟩, hread, hvalue⟩ := Option.map_eq_some_iff.mp h
          simp only [Prod.mk.injEq] at hvalue
          rw [readValue_append hle more hitem (.inl (ne_nil_of_readMark hcomma))]
          simp [readMark_append hcomma more, readItems_append hle more hread, hvalue]
        · rename_i hcomma
          obtain ⟨tail', hclose, hvalue⟩ := Option.map_eq_some_iff.mp h
          simp only [Prod.mk.injEq] at hvalue
          rw [readValue_append hle more hitem (.inl (ne_nil_of_readMark hclose))]
          simp [readMark_append_of_none hcomma (skipBlanks_ne_nil hclose) more,
            readMark_append hclose more, hvalue]

theorem readMembers_append {fuel fuel' : Nat} {text rest : List Char}
    {members : List (String × Json)} (hle : fuel ≤ fuel') (more : List Char)
    (h : readMembers nonFinite fuel text = some (members, rest)) :
    readMembers nonFinite fuel' (text ++ more) = some (members, rest ++ more) := by
  match fuel with
  | 0 => simp [readMembers] at h
  | fuel + 1 =>
      obtain ⟨extra, rfl⟩ := Nat.exists_eq_add_of_lt hle
      have hle := Nat.le_add_right fuel extra
      rw [readMembers] at h ⊢
      split at h
      · simp at h
      · rename_i key tail hkey
        obtain ⟨tail₁, hquote, htext⟩ := Option.bind_eq_some_iff.mp hkey
        rw [readMark_append hquote more, Option.bind_some, readText_append hle htext more]
        split at h
        · simp at h
        · rename_i value tail₂ hvalue
          obtain ⟨tail₃, hcolon, hread⟩ := Option.bind_eq_some_iff.mp hvalue
          dsimp only
          rw [readMark_append hcolon more, Option.bind_some]
          dsimp only at h
          split at h
          · rename_i hcomma
            obtain ⟨⟨members', tail'⟩, hmembers, hresult⟩ := Option.map_eq_some_iff.mp h
            simp only [Prod.mk.injEq] at hresult
            rw [readValue_append hle more hread (.inl (ne_nil_of_readMark hcomma))]
            simp [readMark_append hcomma more, readMembers_append hle more hmembers, hresult]
          · rename_i hcomma
            obtain ⟨tail', hclose, hresult⟩ := Option.map_eq_some_iff.mp h
            simp only [Prod.mk.injEq] at hresult
            rw [readValue_append hle more hread (.inl (ne_nil_of_readMark hclose))]
            simp [readMark_append_of_none hcomma (skipBlanks_ne_nil hclose) more,
              readMark_append hclose more, hresult]

end

/-- An object that is cut anywhere is no JSON text. -/
theorem parse_eq_none_of_cut {more : List Char} (hopen : OpensObject text)
    (h : readValue nonFinite fuel (text ++ more) = some (value, [])) (hmore : more ≠ []) :
    parse nonFinite text = none := by
  unfold parse
  split
  · rfl
  · rename_i cut rest hcut
    -- the part before the cut would be a whole value, with the rest left over
    obtain ⟨tail, htail⟩ := hopen
    have hread := readValue_append (Nat.le_max_left _ fuel) more hcut (.inr ⟨tail, htail⟩)
    have hwhole := readValue_append (Nat.le_max_right (2 * text.length + 2) _) [] h
      (.inr ⟨_, skipBlanks_append htail more⟩)
    rw [List.append_nil, hread] at hwhole
    simp [hmore] at hwhole

end Reading

end Json
