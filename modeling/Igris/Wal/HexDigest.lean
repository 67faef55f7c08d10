import Igris.Wal.Transfer

/-!
# Digests in checkpoint payloads

A resume token carries its digest as a text.  The runtime reads the text two bytes
at a time: a slice that ends inside a character or behind the text panics, and a
slice that is no number of base 16 is an error.  The number parser takes a leading
plus sign.

Main results:

- Theorem {lit}`deserialize_exact_iff`: which texts are decoded as documented.
-/

namespace Igris
namespace Wal

inductive DigestError where
  | invalidDigit
  | expected32Bytes
  deriving DecidableEq

inductive Decoded (α : Type) where
  | value (a : α)
  | error (e : DigestError)
  | panic
  deriving DecidableEq

def Decoded.bind {α β : Type} (r : Decoded α) (f : α → Decoded β) : Decoded β :=
  match r with
  | .value a => f a
  | .error e => .error e
  | .panic => .panic

/-- The bytes of a text from its character boundary on.  A two-byte character is a
slice of its own, and no digit. -/
def decodeSlices : List Char → Decoded (List UInt8)
  | [] => .value []
  | [c] => if c.utf8Size = 2 then .error .invalidDigit else .panic
  | c :: d :: rest =>
      if c.utf8Size = 2 then .error .invalidDigit
      else if c.utf8Size = 1 ∧ d.utf8Size = 1 then
        match decodeHexPair c d with
        | none => .error .invalidDigit
        | some byte => (decodeSlices rest).bind fun bytes => .value (byte :: bytes)
      else .panic

def deserialize (s : String) : Decoded Digest :=
  (decodeSlices s.toList).bind fun bytes =>
    if h : bytes.length = 32 then .value ⟨bytes, h⟩ else .error .expected32Bytes

def serialize (digest : Digest) : String :=
  Text.hexEncode digest.1

/-- The text is 64 hexadecimal digits. -/
def HexText (s : String) : Prop :=
  s.toList.length = 64 ∧ ∀ c ∈ s.toList, (Text.hexDigit? c).isSome

/-- A digest for 64 hexadecimal digits and a typed error for any other text. -/
def Exact (s : String) : Prop :=
  ((∃ digest, deserialize s = .value digest) ↔ HexText s) ∧
    (¬HexText s → ∃ e, deserialize s = .error e)

/-- Every slice up to the first that is no number lies on character boundaries. -/
inductive Sliced : List Char → Prop
  | nil : Sliced []
  | char {c : Char} {rest : List Char} (h : c.utf8Size = 2) : Sliced (c :: rest)
  | illegible {c d : Char} {rest : List Char} (hc : c.utf8Size = 1) (hd : d.utf8Size = 1)
      (h : decodeHexPair c d = none) : Sliced (c :: d :: rest)
  | number {c d : Char} {rest : List Char} (h : (decodeHexPair c d).isSome)
      (hrest : Sliced rest) : Sliced (c :: d :: rest)

theorem utf8Size_of_hexDigit? {c : Char} (h : (Text.hexDigit? c).isSome) : c.utf8Size = 1 := by
  have hle : c ≤ 'f' := by
    unfold Text.hexDigit? at h
    split at h
    next hdigit => exact Char.le_trans hdigit.2 (by decide)
    split at h
    next hlower => exact hlower.2
    split at h
    next hupper => exact Char.le_trans hupper.2 (by decide)
    cases h
  exact Char.utf8Size_eq_one_iff.2 (UInt32.le_trans hle (by decide))

theorem decodeHexPair_isSome_iff {c d : Char} : (decodeHexPair c d).isSome ↔
    (c = '+' ∨ (Text.hexDigit? c).isSome) ∧ (Text.hexDigit? d).isSome := by
  unfold decodeHexPair
  by_cases hplus : c = '+'
  · cases hd : Text.hexDigit? d <;> simp [hplus]
  · cases hc : Text.hexDigit? c <;> cases hd : Text.hexDigit? d <;> simp [hplus]

theorem decodeHexPair_eq_none {c d : Char} (h : ¬(c.utf8Size = 1 ∧ d.utf8Size = 1)) :
    decodeHexPair c d = none := by
  refine Option.not_isSome_iff_eq_none.1 fun hsome => h ?_
  obtain ⟨rfl | hc, hd⟩ := decodeHexPair_isSome_iff.1 hsome
  · exact ⟨by decide, utf8Size_of_hexDigit? hd⟩
  · exact ⟨utf8Size_of_hexDigit? hc, utf8Size_of_hexDigit? hd⟩

/-- The three outcomes in terms of the characters. -/
theorem decodeSlices_spec (chars : List Char) :
    match decodeSlices chars with
    | .value bytes => decodeHexPairs chars = some bytes ∧ Sliced chars
    | .error _ => decodeHexPairs chars = none ∧ Sliced chars
    | .panic => decodeHexPairs chars = none ∧ ¬Sliced chars := by
  fun_induction decodeSlices chars with
  | case1 => exact ⟨rfl, .nil⟩
  | case2 c hc => exact ⟨rfl, .char hc⟩
  | case3 c hc => exact ⟨rfl, fun h => by cases h; exact hc ‹_›⟩
  | case4 c d rest hc =>
      have hpair : decodeHexPair c d = none := decodeHexPair_eq_none (by omega)
      exact ⟨by simp [decodeHexPairs, hpair], .char hc⟩
  | case5 c d rest hc hascii hpair =>
      exact ⟨by simp [decodeHexPairs, hpair], .illegible hascii.1 hascii.2 hpair⟩
  | case6 c d rest hc hascii byte hpair ih =>
      have hsliced (h : Sliced rest) : Sliced (c :: d :: rest) := .number (by simp [hpair]) h
      cases hrest : decodeSlices rest with
      | value | error =>
          rw [hrest] at ih
          exact ⟨by simp [decodeHexPairs, hpair, ih.1], hsliced ih.2⟩
      | panic =>
          rw [hrest] at ih
          refine ⟨by simp [decodeHexPairs, hpair, ih.1], ?_⟩
          rintro (_ | hc' | ⟨-, -, hnone⟩ | ⟨-, hslices⟩)
          · exact hc ‹_›
          · simp [hpair] at hnone
          · exact ih.2 hslices
  | case7 c d rest hc hascii =>
      have hnone := decodeHexPair_eq_none hascii
      refine ⟨by simp [decodeHexPairs, hnone], ?_⟩
      rintro (_ | hc' | ⟨hc', hd, -⟩ | ⟨hpair, -⟩)
      · exact hc ‹_›
      · exact hascii ⟨hc', hd⟩
      · simp [hnone] at hpair

theorem length_of_decodeHexPairs {chars : List Char} {bytes : List UInt8}
    (h : decodeHexPairs chars = some bytes) : chars.length = 2 * bytes.length := by
  fun_induction decodeHexPairs chars generalizing bytes <;> grind

/-- Without plus signs the numbers are pairs of digits. -/
theorem decodeHexPairs_isSome_iff : ∀ {chars : List Char}, '+' ∉ chars →
    ((decodeHexPairs chars).isSome ↔
      chars.length % 2 = 0 ∧ ∀ c ∈ chars, (Text.hexDigit? c).isSome)
  | [], _ => by simp [decodeHexPairs]
  | [_], _ => by simp [decodeHexPairs]
  | hi :: lo :: rest, h => by
      simp only [List.mem_cons, not_or] at h
      have hpair := decodeHexPair_isSome_iff (c := hi) (d := lo)
      have hrest := decodeHexPairs_isSome_iff h.2.2
      simp only [Ne.symm h.1, false_or] at hpair
      rw [List.length_cons, List.length_cons, Nat.add_assoc, Nat.add_mod_right]
      cases hp : decodeHexPair hi lo <;> cases hr : decodeHexPairs rest <;>
        simp_all [decodeHexPairs, ← and_assoc]

/-- Decoding is as documented unless a slice cuts a character or runs past the end, or
a plus sign stands for the first digit of one of 32 numbers. -/
theorem deserialize_exact_iff (s : String) (digest : Digest) :
    (Exact s ↔ Sliced s.toList ∧
      ('+' ∈ s.toList → s.toList.length = 64 → decodeHexPairs s.toList = none)) ∧
    deserialize (serialize digest) = .value digest := by
  constructor
  · have hspec := decodeSlices_spec s.toList
    have hplus (hhex : HexText s) : '+' ∉ s.toList := fun h => absurd (hhex.2 '+' h) (by decide)
    cases hslices : decodeSlices s.toList with
    | panic =>
        rw [hslices] at hspec
        simp [Exact, deserialize, hslices, Decoded.bind, hspec]
    | error e =>
        rw [hslices] at hspec
        have hhex : ¬HexText s := by
          intro hhex
          have hsome := (decodeHexPairs_isSome_iff (hplus hhex)).2 ⟨by rw [hhex.1], hhex.2⟩
          simp [hspec.1] at hsome
        simp [Exact, deserialize, hslices, Decoded.bind, hhex, hspec]
    | value bytes =>
        rw [hslices] at hspec
        have hlength := length_of_decodeHexPairs hspec.1
        by_cases h : bytes.length = 32
        · have hhex : HexText s ↔ '+' ∉ s.toList := by
            refine ⟨hplus, fun hplus => ⟨by omega, ?_⟩⟩
            exact ((decodeHexPairs_isSome_iff hplus).1 (by rw [hspec.1]; rfl)).2
          simp [Exact, deserialize, hslices, Decoded.bind, h, hhex, hspec, hlength]
        · have hlong : s.toList.length ≠ 64 := by omega
          have hhex : ¬HexText s := fun hhex => hlong hhex.1
          simp [Exact, deserialize, hslices, Decoded.bind, h, hhex, hspec, hlong]
  · have hspec := decodeSlices_spec (serialize digest).toList
    rw [serialize, decodeHexPairs_hexEncode] at hspec
    cases hslices : decodeSlices (Text.hexEncode digest.1).toList with
    | value bytes =>
        rw [hslices] at hspec
        cases hspec.1
        simp only [deserialize, serialize, hslices, Decoded.bind, dif_pos digest.2]
    | _ =>
        rw [hslices] at hspec
        cases hspec.1

/-- An odd number of digits panics, and so does a character of three bytes; a sign and 63
zeros are taken for a digest. -/
theorem digest_misread :
    deserialize (String.ofList ['0']) = .panic ∧ deserialize (String.ofList ['€']) = .panic ∧
      ∃ digest, deserialize (String.ofList ('+' :: List.replicate 63 '0')) = .value digest := by
  simp only [deserialize, String.toList_ofList]
  exact ⟨by decide, by decide, ⟨List.replicate 32 0, by decide⟩, by decide +kernel⟩

end Wal
end Igris
