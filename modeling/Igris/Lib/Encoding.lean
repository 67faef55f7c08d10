import Igris.Lib.Text

/-!
# Round trips of the byte encodings

Decoding what was encoded gives the bytes back, for hexadecimal digits and for
base64, and encoded bytes contain no white space that trimming could remove.

Main results:

- Theorem {lit}`hexDecode_hexEncode`: hexadecimal digits decode to the bytes.
- Theorem {lit}`base64DecodeChars_encode`: so do base64 digits.
- Theorem {lit}`trimSpace_of_noSpace`: trimming keeps a text without white space.
-/

namespace Text

/-! ## Trimming -/

theorem dropWhile_eq_self_of_all {p : Char → Bool} {cs : List Char}
    (h : ∀ c ∈ cs, p c = false) : cs.dropWhile p = cs := by
  cases cs with
  | nil => rfl
  | cons c cs => simp [h c (by simp)]

theorem trimSpace_of_noSpace {s : String} (h : ∀ c ∈ s.toList, isSpace c = false) :
    trimSpace s = s := by
  unfold trimSpace
  rw [dropWhile_eq_self_of_all h, dropWhile_eq_self_of_all (by simpa using h), List.reverse_reverse,
    String.ofList_toList]

/-- Lower case of the ASCII letters only. -/
def toAsciiLower (s : String) : String :=
  String.ofList (s.toList.map Char.toLower)

theorem dropWhile_dropWhile (p : Char → Bool) (cs : List Char) :
    (cs.dropWhile p).dropWhile p = cs.dropWhile p := by
  induction cs with
  | nil => rfl
  | cons c cs ih =>
      by_cases hp : p c = true
      · simp [hp, ih]
      · simp [hp]

/-- What remains after both ends are trimmed does not start with a trimmed character. -/
theorem dropWhile_trimmed (p : Char → Bool) (cs : List Char) :
    ((cs.dropWhile p).reverse.dropWhile p).reverse.dropWhile p =
      ((cs.dropWhile p).reverse.dropWhile p).reverse := by
  have hstart : ((cs.dropWhile p).reverse.dropWhile p).reverse <+: cs.dropWhile p := by
    have hend : (cs.dropWhile p).reverse.dropWhile p <:+ (cs.dropWhile p).reverse :=
      List.dropWhile_suffix p
    simpa using List.reverse_prefix.mpr hend
  cases htrim : ((cs.dropWhile p).reverse.dropWhile p).reverse with
  | nil => rfl
  | cons c rest =>
      rw [htrim] at hstart
      obtain ⟨tail, htail⟩ := hstart
      have hhead : p c = false := by
        have hne : cs.dropWhile p ≠ [] := by simp [← htail]
        have hnot := List.head_dropWhile_not p hne
        simpa [← htail] using hnot
      simp [hhead]

theorem trimSpace_trimSpace (s : String) : trimSpace (trimSpace s) = trimSpace s := by
  unfold trimSpace
  rw [String.toList_ofList, dropWhile_trimmed isSpace s.toList, List.reverse_reverse,
    dropWhile_dropWhile]

theorem toLower_toLower (c : Char) : c.toLower.toLower = c.toLower := by
  by_cases hupper : c.val ≥ 'A'.val ∧ c.val ≤ 'Z'.val
  · have hval : c.toLower.val = c.val + ('a'.val - 'A'.val) := by
      rw [Char.toLower.eq_def, dif_pos hupper]
    have hlower : ¬(c.toLower.val ≥ 'A'.val ∧ c.toLower.val ≤ 'Z'.val) := by
      rw [hval]
      rintro ⟨-, hle⟩
      have hfirst : 65 ≤ c.val.toNat := hupper.1
      have hlast : c.val.toNat ≤ 90 := hupper.2
      have hsum : (c.val.toNat + 32) % 2 ^ 32 ≤ 90 := hle
      omega
    rw [Char.toLower.eq_def c.toLower, dif_neg hlower]
  · have hsame : c.toLower = c := by rw [Char.toLower.eq_def, dif_neg hupper]
    rw [hsame, hsame]

theorem toLower_lowerChar (c : Char) : (lowerChar c).toLower = lowerChar c := by
  unfold lowerChar
  split_ifs
  · rfl
  · rfl
  · exact toLower_toLower c

/-- A trimmed text in lower case has no further ASCII capitals. -/
theorem toAsciiLower_trimSpace_toLower (s : String) :
    toAsciiLower (trimSpace (toLower s)) = trimSpace (toLower s) := by
  have hmem : ∀ c ∈ (trimSpace (toLower s)).toList, c.toLower = c := by
    intro c hc
    have hlower : c ∈ (toLower s).toList := by
      simp only [trimSpace, String.toList_ofList, List.mem_reverse] at hc
      exact (List.dropWhile_sublist _).subset (by simpa using (List.dropWhile_sublist _).subset hc)
    obtain ⟨d, -, rfl⟩ := List.mem_map.mp (by simpa [toLower] using hlower)
    exact toLower_lowerChar d
  unfold toAsciiLower
  rw [List.map_congr_left hmem, List.map_id', String.ofList_toList]

theorem length_zeros : (List.replicate 32 (0 : UInt8)).length = 32 :=
  List.length_replicate

/-! ## Hexadecimal -/

theorem hexDigit?_hexDigit {n : Nat} (h : n < 16) : hexDigit? (hexDigit n) = some n := by
  revert n
  decide

theorem isSpace_hexDigit {n : Nat} (h : n < 16) : isSpace (hexDigit n) = false := by
  revert n
  decide

theorem hexDecode_hexEncode (bytes : List UInt8) : hexDecode (hexEncode bytes) = some bytes := by
  unfold hexDecode hexEncode
  rw [String.toList_ofList]
  induction bytes with
  | nil => rfl
  | cons b bytes ih =>
      have hb := b.toNat_lt
      have hhi := hexDigit?_hexDigit (n := b.toNat / 16) (by omega)
      have hlo := hexDigit?_hexDigit (n := b.toNat % 16) (by omega)
      have hjoin : 16 * (b.toNat / 16) + b.toNat % 16 = b.toNat := by omega
      simp only [List.flatMap_cons, List.cons_append, List.nil_append, hexDecodeChars, hhi, hlo, ih,
        hjoin]
      simp

theorem hexEncode_injective {a b : List UInt8} (h : hexEncode a = hexEncode b) : a = b := by
  have hdecode := hexDecode_hexEncode a
  rw [h, hexDecode_hexEncode] at hdecode
  exact (Option.some.inj hdecode).symm

theorem exists_of_mem_hexEncode {bytes : List UInt8} {c : Char}
    (h : c ∈ (hexEncode bytes).toList) : ∃ n < 16, c = hexDigit n := by
  simp only [hexEncode, String.toList_ofList, List.mem_flatMap, List.mem_cons, List.not_mem_nil,
    or_false] at h
  obtain ⟨b, -, rfl | rfl⟩ := h
  · have hb := b.toNat_lt
    exact ⟨b.toNat / 16, by omega, rfl⟩
  · exact ⟨b.toNat % 16, by omega, rfl⟩

theorem noSpace_hexEncode (bytes : List UInt8) :
    ∀ c ∈ (hexEncode bytes).toList, isSpace c = false := by
  intro c hc
  obtain ⟨n, hn, rfl⟩ := exists_of_mem_hexEncode hc
  exact isSpace_hexDigit hn

theorem length_hexDecodeChars : ∀ {cs : List Char} {bytes : List UInt8},
    hexDecodeChars cs = some bytes → cs.length = 2 * bytes.length
  | [], bytes, h => by
      simp only [hexDecodeChars, Option.some.injEq] at h
      simp [← h]
  | [_], bytes, h => by simp [hexDecodeChars] at h
  | hi :: lo :: rest, bytes, h => by
      simp only [hexDecodeChars] at h
      split at h
      · rename_i tail htail
        have hlength := length_hexDecodeChars htail
        cases h
        simp [hlength]
        omega
      · cases h

/-! ## Base64 -/

theorem Alphabet.decode_encode (alphabet : Alphabet) {n : Nat} (h : n < 64) :
    alphabet.decode (alphabet.encode n) = some n := by
  revert n
  cases alphabet <;> decide

theorem Alphabet.decode_pad (alphabet : Alphabet) : alphabet.decode '=' = none := by
  cases alphabet <;> decide

theorem Alphabet.isSpace_encode (alphabet : Alphabet) {n : Nat} (h : n < 64) :
    isSpace (alphabet.encode n) = false := by
  revert n
  cases alphabet <;> decide

/-- A number is put together again from its six-bit digits. -/
theorem sixBitDigits (n : Nat) :
    n / 262144 * 262144 + n / 4096 % 64 * 4096 + n / 64 % 64 * 64 + n % 64 = n := by
  have hsecond : n / 4096 = n / 64 / 64 := by rw [Nat.div_div_eq_div_mul]
  have hfirst : n / 262144 = n / 64 / 64 / 64 := by
    rw [Nat.div_div_eq_div_mul, Nat.div_div_eq_div_mul]
  rw [hfirst, hsecond]
  have h₀ := Nat.div_add_mod n 64
  have h₁ := Nat.div_add_mod (n / 64) 64
  have h₂ := Nat.div_add_mod (n / 64 / 64) 64
  linarith

theorem base64DecodeChars_encode (alphabet : Alphabet) :
    ∀ bytes : List UInt8,
      base64DecodeChars alphabet true (base64EncodeBytes alphabet bytes) = some bytes
  | [] => rfl
  | [a] => by
      have ha := a.toNat_lt
      have hw := alphabet.decode_encode (n := a.toNat * 65536 / 262144) (by omega)
      have hx := alphabet.decode_encode (n := a.toNat * 65536 / 4096 % 64) (by omega)
      have hbyte : (a.toNat * 65536 / 262144 * 262144 + a.toNat * 65536 / 4096 % 64 * 4096) / 65536 =
          a.toNat := by omega
      simp only [base64EncodeBytes, base64DecodeChars, hw, hx, alphabet.decode_pad, hbyte]
      simp
  | [a, b] => by
      have ha := a.toNat_lt
      have hb := b.toNat_lt
      generalize hn : a.toNat * 65536 + b.toNat * 256 = n
      have hw := alphabet.decode_encode (n := n / 262144) (by omega)
      have hx := alphabet.decode_encode (n := n / 4096 % 64) (by omega)
      have hy := alphabet.decode_encode (n := n / 64 % 64) (by omega)
      have hjoin : n / 262144 * 262144 + n / 4096 % 64 * 4096 + n / 64 % 64 * 64 = n := by
        have hdigits := sixBitDigits n
        have hlast : n % 64 = 0 := by omega
        linarith
      have hfirst : n / 65536 = a.toNat := by omega
      have hsecond : n / 256 % 256 = b.toNat := by omega
      simp only [base64EncodeBytes, hn, base64DecodeChars, hw, hx, hy, alphabet.decode_pad, hjoin,
        hfirst, hsecond]
      simp
  | a :: b :: c :: rest => by
      have ha := a.toNat_lt
      have hb := b.toNat_lt
      have hc := c.toNat_lt
      generalize hn : a.toNat * 65536 + b.toNat * 256 + c.toNat = n
      have hw := alphabet.decode_encode (n := n / 262144) (by omega)
      have hx := alphabet.decode_encode (n := n / 4096 % 64) (by omega)
      have hy := alphabet.decode_encode (n := n / 64 % 64) (by omega)
      have hz := alphabet.decode_encode (n := n % 64) (by omega)
      have hjoin := sixBitDigits n
      have hfirst : n / 65536 = a.toNat := by omega
      have hsecond : n / 256 % 256 = b.toNat := by omega
      have hthird : n % 256 = c.toNat := by omega
      simp only [base64EncodeBytes, hn, base64DecodeChars, hw, hx, hy, hz, hjoin, hfirst, hsecond,
        hthird, base64DecodeChars_encode alphabet rest]
      simp

/-- Every encoded character is a digit or padding. -/
theorem mem_base64EncodeBytes (alphabet : Alphabet) :
    ∀ (bytes : List UInt8) (c : Char), c ∈ base64EncodeBytes alphabet bytes →
      c = '=' ∨ ∃ n < 64, c = alphabet.encode n
  | [], c, h => by simp [base64EncodeBytes] at h
  | [a], c, h => by
      have ha := a.toNat_lt
      simp only [base64EncodeBytes, List.mem_cons, List.not_mem_nil, or_false] at h
      obtain rfl | rfl | rfl | rfl := h
      · exact Or.inr ⟨_, by omega, rfl⟩
      · exact Or.inr ⟨_, Nat.mod_lt _ (by omega), rfl⟩
      · exact Or.inl rfl
      · exact Or.inl rfl
  | [a, b], c, h => by
      have ha := a.toNat_lt
      have hb := b.toNat_lt
      simp only [base64EncodeBytes, List.mem_cons, List.not_mem_nil, or_false] at h
      obtain rfl | rfl | rfl | rfl := h
      · exact Or.inr ⟨_, by omega, rfl⟩
      · exact Or.inr ⟨_, Nat.mod_lt _ (by omega), rfl⟩
      · exact Or.inr ⟨_, Nat.mod_lt _ (by omega), rfl⟩
      · exact Or.inl rfl
  | a :: b :: c' :: rest, c, h => by
      have ha := a.toNat_lt
      have hb := b.toNat_lt
      have hc := c'.toNat_lt
      simp only [base64EncodeBytes, List.mem_cons] at h
      obtain rfl | rfl | rfl | rfl | h := h
      · exact Or.inr ⟨_, by omega, rfl⟩
      · exact Or.inr ⟨_, Nat.mod_lt _ (by omega), rfl⟩
      · exact Or.inr ⟨_, Nat.mod_lt _ (by omega), rfl⟩
      · exact Or.inr ⟨_, Nat.mod_lt _ (by omega), rfl⟩
      · exact mem_base64EncodeBytes alphabet rest c h

theorem noSpace_base64Encode (bytes : List UInt8) :
    ∀ c ∈ (base64Encode bytes).toList, isSpace c = false := by
  intro c hc
  rw [base64Encode, String.toList_ofList] at hc
  obtain rfl | ⟨n, hn, rfl⟩ := mem_base64EncodeBytes _ _ _ hc
  · decide
  · exact Alphabet.isSpace_encode _ hn

/-- Encoded bytes contain no line break that decoding would skip. -/
theorem base64Decode_base64Encode (bytes : List UInt8) :
    base64Decode .std true (base64Encode bytes) = some bytes := by
  have hkeep : (base64Encode bytes).toList.filter (fun c => c != '\r' && c != '\n') =
      (base64Encode bytes).toList := by
    apply List.filter_eq_self.mpr
    intro c hc
    have hspace := noSpace_base64Encode bytes c hc
    by_cases hr : c = '\r'
    · subst hr
      revert hspace
      decide
    · by_cases hn : c = '\n'
      · subst hn
        revert hspace
        decide
      · simp [hr, hn]
  rw [base64Decode, hkeep, base64Encode, String.toList_ofList]
  exact base64DecodeChars_encode .std bytes

/-- Base64 digits with or without padding. -/
def base64EncodeWith (alphabet : Alphabet) (padded : Bool) (bytes : List UInt8) : List Char :=
  if padded then base64EncodeBytes alphabet bytes
  else (base64EncodeBytes alphabet bytes).filter fun c => c != '='

/-- Decoding that accepts only the text that encoding produces. -/
def base64DecodeStrict (alphabet : Alphabet) (padded : Bool) (s : String) : Option (List UInt8) :=
  (base64DecodeChars alphabet padded s.toList).filter fun bytes =>
    decide (base64EncodeWith alphabet padded bytes = s.toList)

theorem base64DecodeStrict_base64Encode (bytes : List UInt8) :
    base64DecodeStrict .std true (base64Encode bytes) = some bytes := by
  simp [base64DecodeStrict, base64Encode, base64DecodeChars_encode, base64EncodeWith]

theorem length_base64EncodeBytes (alphabet : Alphabet) :
    ∀ bytes : List UInt8, (base64EncodeBytes alphabet bytes).length = (bytes.length + 2) / 3 * 4
  | [] => by simp [base64EncodeBytes]
  | [_] => by simp [base64EncodeBytes]
  | [_, _] => by simp [base64EncodeBytes]
  | a :: b :: c :: rest => by
      have hrest := length_base64EncodeBytes alphabet rest
      simp only [base64EncodeBytes, List.length_cons, hrest]
      omega

/-- Bytes whose number is not a multiple of three are padded. -/
theorem pad_mem_base64EncodeBytes (alphabet : Alphabet) :
    ∀ bytes : List UInt8, bytes.length % 3 ≠ 0 → '=' ∈ base64EncodeBytes alphabet bytes
  | [], h => by simp at h
  | [_], _ => by simp [base64EncodeBytes]
  | [_, _], _ => by simp [base64EncodeBytes]
  | a :: b :: c :: rest, h => by
      have hrest : rest.length % 3 ≠ 0 := by
        simp only [List.length_cons] at h
        omega
      simp [base64EncodeBytes, pad_mem_base64EncodeBytes alphabet rest hrest]

end Text
