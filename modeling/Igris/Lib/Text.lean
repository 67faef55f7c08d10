import Mathlib.Tactic

/-!
# Strings and byte encodings

The string operations and the byte encodings that the modelled code takes from
its standard library: trimming and lower-casing, substring search, hexadecimal
and base64.  Decoding functions return {lit}`none` where the library reports an
error.
-/

namespace Text

/-! ## Strings -/

/-- White space as Unicode defines it. -/
def isSpace (c : Char) : Bool :=
  decide (c.toNat ∈ [0x09, 0x0A, 0x0B, 0x0C, 0x0D, 0x20, 0x85, 0xA0, 0x1680, 0x2028, 0x2029,
      0x202F, 0x205F, 0x3000]) ||
    decide (0x2000 ≤ c.toNat ∧ c.toNat ≤ 0x200A)

/-- Drop the white space at both ends. -/
def trimSpace (s : String) : String :=
  String.ofList ((s.toList.dropWhile isSpace).reverse.dropWhile isSpace).reverse

/-- Lower case of one character.  Two letters outside ASCII have an ASCII lower
case; the other letters outside ASCII are left as they are, which no search for
an ASCII word can notice. -/
def lowerChar (c : Char) : Char :=
  if c.toNat = 0x130 then 'i' else if c.toNat = 0x212A then 'k' else c.toLower

/-- Lower case of a string. -/
def toLower (s : String) : String :=
  String.ofList (s.toList.map lowerChar)

/-- The first list of characters occurs in the second. -/
def occursIn (needle : List Char) : List Char → Bool
  | [] => needle.isEmpty
  | c :: cs => needle.isPrefixOf (c :: cs) || occursIn needle cs

/-- Substring search. -/
def contains (s needle : String) : Bool :=
  occursIn needle.toList s.toList

def hasPrefix (s start : String) : Bool :=
  start.toList.isPrefixOf s.toList

def hasSuffix (s ending : String) : Bool :=
  ending.toList.isSuffixOf s.toList

def trimSuffix (s ending : String) : String :=
  if hasSuffix s ending then String.ofList (s.toList.take (s.length - ending.length)) else s

/-- Drop a character from the end as often as it occurs there. -/
def trimEndMatches (c : Char) (s : String) : String :=
  String.ofList (s.toList.reverse.dropWhile fun d => decide (d = c)).reverse

/-- The part between a given beginning and a given end. -/
def between (start ending s : String) : Option String :=
  if hasPrefix s start && hasSuffix (String.ofList (s.toList.drop start.length)) ending then
    some (String.ofList ((s.toList.drop start.length).take
      (s.length - start.length - ending.length)))
  else none

/-- Split at the first occurrence. -/
def cut (needle : List Char) : List Char → Option (List Char × List Char)
  | [] => if needle.isEmpty then some ([], []) else none
  | c :: cs =>
      if needle.isPrefixOf (c :: cs) then some ([], (c :: cs).drop needle.length)
      else (cut needle cs).map fun parts => (c :: parts.1, parts.2)

/-- Split at every occurrence of a separator. -/
def splitChars (separator : Char) : List Char → List (List Char)
  | [] => [[]]
  | c :: cs =>
      if c = separator then [] :: splitChars separator cs
      else
        match splitChars separator cs with
        | [] => [[c]]
        | first :: rest => (c :: first) :: rest

def split (separator : Char) (s : String) : List String :=
  (splitChars separator s.toList).map String.ofList

/-- Replace the occurrences of a non-empty text from left to right; the counter is the
number of characters that belong to an occurrence already replaced. -/
def replaceChars (needle new : List Char) : Nat → List Char → List Char
  | _, [] => []
  | skip + 1, _ :: cs => replaceChars needle new skip cs
  | 0, c :: cs =>
      if needle.isPrefixOf (c :: cs) then new ++ replaceChars needle new (needle.length - 1) cs
      else c :: replaceChars needle new 0 cs

def replace (s needle new : String) : String :=
  String.ofList (replaceChars needle.toList new.toList 0 s.toList)

example : replace "a Bearer x" "Bearer " "[redacted-auth] " = "a [redacted-auth] x" := by
  decide +kernel

example : split '.' "nodes.a.b" = ["nodes", "a", "b"] := by decide +kernel

/-- A cut is at the first occurrence: there is none before its last character. -/
theorem cut_eq_some_iff {needle cs before rest : List Char} (hneedle : needle ≠ []) :
    cut needle cs = some (before, rest) ↔
      cs = before ++ needle ++ rest ∧ ¬ needle <:+: before ++ needle.dropLast := by
  have hshort : needle.dropLast.length < needle.length := by
    rw [List.length_dropLast]
    exact Nat.sub_lt (List.length_pos_of_ne_nil hneedle) Nat.one_pos
  induction cs generalizing before with
  | nil => simp [cut, hneedle]
  | cons c cs ih =>
      rw [cut]
      split <;> rename_i hprefix
      · rw [List.isPrefixOf_iff_prefix] at hprefix
        obtain ⟨tail, htail⟩ := hprefix
        rw [← htail, List.drop_left, Option.some.injEq, Prod.mk.injEq]
        constructor
        · rintro ⟨rfl, rfl⟩
          exact ⟨rfl, fun hinfix => absurd hinfix.length_le (by simpa using hshort)⟩
        · rintro ⟨heq, hfirst⟩
          cases before with
          | nil => simpa using heq
          | cons d before =>
              refine absurd (List.IsPrefix.isInfix ?_) hfirst
              have hlong : d :: before ++ needle.dropLast <+: needle ++ tail := by
                rw [heq, List.append_assoc, List.prefix_append_right_inj]
                exact (List.dropLast_prefix needle).trans (List.prefix_append _ _)
              refine List.prefix_of_prefix_length_le (List.prefix_append needle tail) hlong ?_
              simp only [List.length_append, List.length_cons, List.length_dropLast]
              omega
      · rw [List.isPrefixOf_iff_prefix] at hprefix
        simp only [Option.map_eq_some_iff, Prod.mk.injEq, Prod.exists]
        constructor
        · rintro ⟨before, tail, hcut, rfl, rfl⟩
          obtain ⟨rfl, hfirst⟩ := ih.mp hcut
          refine ⟨rfl, ?_⟩
          rw [List.cons_append, List.infix_cons_iff, not_or]
          refine ⟨fun hstart => hprefix (hstart.trans ?_), hfirst⟩
          rw [List.append_assoc, List.prefix_cons_inj, List.prefix_append_right_inj]
          exact (List.dropLast_prefix needle).trans (List.prefix_append _ _)
        · rintro ⟨heq, hfirst⟩
          cases before with
          | nil => exact absurd ⟨rest, heq.symm⟩ hprefix
          | cons d before =>
              obtain ⟨rfl, rfl⟩ := List.cons.inj heq
              rw [List.cons_append, List.infix_cons_iff, not_or] at hfirst
              exact ⟨before, rest, ih.mpr ⟨rfl, hfirst.2⟩, rfl, rfl⟩

theorem cut_eq_none_iff {needle cs : List Char} (hneedle : needle ≠ []) :
    cut needle cs = none ↔ ¬ needle <:+: cs := by
  induction cs with
  | nil => simp [cut, hneedle]
  | cons c cs ih =>
      rw [cut, List.infix_cons_iff, ← List.isPrefixOf_iff_prefix]
      split <;> simp_all

theorem between_eq_some_iff {start ending s path : String} :
    between start ending s = some path ↔
      s.toList = start.toList ++ path.toList ++ ending.toList := by
  unfold between hasPrefix hasSuffix
  simp only [Bool.and_eq_true, List.isPrefixOf_iff_prefix, List.isSuffixOf_iff_suffix,
    String.toList_ofList, Option.ite_none_right_eq_some, Option.some.injEq, ← String.length_toList]
  constructor
  · rintro ⟨⟨⟨rest, hstart⟩, hending⟩, hpath⟩
    rw [← hstart, List.drop_left] at hending hpath
    obtain ⟨middle, rfl⟩ := hending
    have hmiddle : path.toList = middle := by
      rw [← hpath, String.toList_ofList]
      simp [List.take_left']
    rw [← hstart, hmiddle, List.append_assoc]
  · intro h
    rw [h, List.append_assoc, List.drop_left]
    refine ⟨⟨List.prefix_append _ _, List.suffix_append _ _⟩, ?_⟩
    simp [List.take_left']

/-! ## Hexadecimal -/

/-- Value of a hexadecimal digit of either case. -/
def hexDigit? (c : Char) : Option Nat :=
  if '0' ≤ c ∧ c ≤ '9' then some (c.toNat - '0'.toNat)
  else if 'a' ≤ c ∧ c ≤ 'f' then some (c.toNat - 'a'.toNat + 10)
  else if 'A' ≤ c ∧ c ≤ 'F' then some (c.toNat - 'A'.toNat + 10)
  else none

/-- Decode pairs of hexadecimal digits. -/
def hexDecodeChars : List Char → Option (List UInt8)
  | [] => some []
  | [_] => none
  | hi :: lo :: rest =>
      match hexDigit? hi, hexDigit? lo, hexDecodeChars rest with
      | some h, some l, some bytes => some (UInt8.ofNat (16 * h + l) :: bytes)
      | _, _, _ => none

def hexDecode (s : String) : Option (List UInt8) :=
  hexDecodeChars s.toList

/-- Hexadecimal digit of a value below sixteen, in lower case. -/
def hexDigit (n : Nat) : Char :=
  if n < 10 then Char.ofNat ('0'.toNat + n) else Char.ofNat ('a'.toNat + (n - 10))

def hexEncode (bytes : List UInt8) : String :=
  String.ofList (bytes.flatMap fun b => [hexDigit (b.toNat / 16), hexDigit (b.toNat % 16)])

/-! ## Base64 -/

/-- The two base64 alphabets differ in the digits for 62 and 63. -/
inductive Alphabet where
  | std
  | url
deriving DecidableEq

def Alphabet.digit62 : Alphabet → Char
  | .std => '+'
  | .url => '-'

def Alphabet.digit63 : Alphabet → Char
  | .std => '/'
  | .url => '_'

/-- Digit of a six-bit value. -/
def Alphabet.encode (alphabet : Alphabet) (n : Nat) : Char :=
  if n < 26 then Char.ofNat ('A'.toNat + n)
  else if n < 52 then Char.ofNat ('a'.toNat + (n - 26))
  else if n < 62 then Char.ofNat ('0'.toNat + (n - 52))
  else if n = 62 then alphabet.digit62
  else alphabet.digit63

/-- Six-bit value of a digit. -/
def Alphabet.decode (alphabet : Alphabet) (c : Char) : Option Nat :=
  if 'A' ≤ c ∧ c ≤ 'Z' then some (c.toNat - 'A'.toNat)
  else if 'a' ≤ c ∧ c ≤ 'z' then some (c.toNat - 'a'.toNat + 26)
  else if '0' ≤ c ∧ c ≤ '9' then some (c.toNat - '0'.toNat + 52)
  else if c = alphabet.digit62 then some 62
  else if c = alphabet.digit63 then some 63
  else none

/-- Digits of a byte list, padded to a multiple of four. -/
def base64EncodeBytes (alphabet : Alphabet) : List UInt8 → List Char
  | [] => []
  | [a] =>
      let n := a.toNat * 65536
      [alphabet.encode (n / 262144), alphabet.encode (n / 4096 % 64), '=', '=']
  | [a, b] =>
      let n := a.toNat * 65536 + b.toNat * 256
      [alphabet.encode (n / 262144), alphabet.encode (n / 4096 % 64),
        alphabet.encode (n / 64 % 64), '=']
  | a :: b :: c :: rest =>
      let n := a.toNat * 65536 + b.toNat * 256 + c.toNat
      alphabet.encode (n / 262144) :: alphabet.encode (n / 4096 % 64) ::
        alphabet.encode (n / 64 % 64) :: alphabet.encode (n % 64) ::
          base64EncodeBytes alphabet rest

/-- Standard padded base64. -/
def base64Encode (bytes : List UInt8) : String :=
  String.ofList (base64EncodeBytes .std bytes)

/-- Decode groups of four digits.  The last group may be short: with padding it
carries {lit}`=` signs, without it simply ends. -/
def base64DecodeChars (alphabet : Alphabet) (padded : Bool) : List Char → Option (List UInt8)
  | [] => some []
  | a :: b :: c :: d :: rest =>
      match alphabet.decode a, alphabet.decode b, alphabet.decode c, alphabet.decode d with
      | some w, some x, some y, some z =>
          let n := w * 262144 + x * 4096 + y * 64 + z
          (base64DecodeChars alphabet padded rest).map fun bytes =>
            UInt8.ofNat (n / 65536) :: UInt8.ofNat (n / 256 % 256) ::
              UInt8.ofNat (n % 256) :: bytes
      | some w, some x, some y, none =>
          if padded && d = '=' && rest.isEmpty then
            let n := w * 262144 + x * 4096 + y * 64
            some [UInt8.ofNat (n / 65536), UInt8.ofNat (n / 256 % 256)]
          else none
      | some w, some x, none, none =>
          if padded && c = '=' && d = '=' && rest.isEmpty then
            some [UInt8.ofNat ((w * 262144 + x * 4096) / 65536)]
          else none
      | _, _, _, _ => none
  | [a, b, c] =>
      match alphabet.decode a, alphabet.decode b, alphabet.decode c with
      | some w, some x, some y =>
          let n := w * 262144 + x * 4096 + y * 64
          if padded then none
          else some [UInt8.ofNat (n / 65536), UInt8.ofNat (n / 256 % 256)]
      | _, _, _ => none
  | [a, b] =>
      match alphabet.decode a, alphabet.decode b with
      | some w, some x =>
          if padded then none else some [UInt8.ofNat ((w * 262144 + x * 4096) / 65536)]
      | _, _ => none
  | [_] => none

/-- Base64 decoding; line breaks inside the text are skipped. -/
def base64Decode (alphabet : Alphabet) (padded : Bool) (s : String) : Option (List UInt8) :=
  base64DecodeChars alphabet padded (s.toList.filter fun c => c != '\r' && c != '\n')

example : base64Encode [77, 97, 110, 33] = "TWFuIQ==" := by decide

example : base64Decode .std true "TWFu\nIQ==" = some [77, 97, 110, 33] := by decide

example : hexDecode "00fF" = some [0, 255] := by decide

end Text
