import Mathlib

/-!
# Files of lines

Texts as the bytes of a file, and the lines of a file.

Main results:

- Theorems {lit}`decode_encode` and {lit}`encode_of_decode`: UTF-8 is read back, and nothing
  else is read.
- Theorem {lit}`prefix_of_encode_prefix`: bytes of a text that are cut are a shorter text
  or no text.
- Theorem {lit}`lines_append`: a line break separates the lines before it from those after it.
-/

namespace Bytes

/-! ## UTF-8 -/

def encode (text : List Char) : List UInt8 := text.flatMap String.utf8EncodeChar

def decode (bytes : List UInt8) : Option (List Char) :=
  bytes.toByteArray.utf8Decode?.map Array.toList

theorem toByteArray_encode (text : List Char) : (encode text).toByteArray = text.utf8Encode := rfl

theorem decode_encode (text : List Char) : decode (encode text) = some text := by
  simp [decode, toByteArray_encode]

theorem toByteArray_inj {a b : List UInt8} (h : a.toByteArray = b.toByteArray) : a = b := by
  have hdata := congrArg (fun bytes => bytes.data.toList) h
  simpa using hdata

variable {bytes : List UInt8} {text : List Char} {b : UInt8} {contents : List (List UInt8)}

theorem encode_of_decode (h : decode bytes = some text) :
    encode text = bytes := by
  obtain ⟨chars, hchars, rfl⟩ := Option.map_eq_some_iff.mp h
  apply toByteArray_inj
  have hsome : bytes.toByteArray.utf8Decode?.isSome = true := by simp [hchars]
  have hget : bytes.toByteArray.utf8Decode?.get hsome = chars := by simp [hchars]
  rw [toByteArray_encode, ← hget]
  exact ByteArray.utf8Encode_get_utf8Decode?

theorem encode_append (a b : List Char) : encode (a ++ b) = encode a ++ encode b := by
  simp [encode]

theorem encode_cons (c : Char) (text : List Char) :
    encode (c :: text) = String.utf8EncodeChar c ++ encode text := by
  simp [encode]

/-- The first character of encoded bytes, whatever follows them. -/
theorem head_of_encode_append {c d : Char} {text' : List Char} {more : List UInt8}
    (h : encode (c :: text) ++ more = encode (d :: text')) : c = d := by
  have hbytes := congrArg List.toByteArray h
  have hc : (encode (c :: text) ++ more).toByteArray.utf8DecodeChar? 0 = some c := by
    rw [List.toByteArray_append, toByteArray_encode]
    exact ByteArray.utf8DecodeChar?_append_eq_some List.utf8DecodeChar?_utf8Encode_cons _
  have hd : (encode (d :: text')).toByteArray.utf8DecodeChar? 0 = some d := by
    rw [toByteArray_encode]
    exact List.utf8DecodeChar?_utf8Encode_cons
  rw [h, hd] at hc
  exact (Option.some.inj hc).symm

theorem prefix_of_encode_prefix {text' : List Char} {more : List UInt8}
    (h : encode text ++ more = encode text') : text <+: text' := by
  induction text generalizing text' with
  | nil => exact List.nil_prefix
  | cons c text ih =>
      match text' with
      | [] =>
          have hlength := congrArg List.length h
          simp [encode, Char.utf8Size_pos, Nat.pos_iff_ne_zero.mp] at hlength
      | d :: text' =>
          obtain rfl := head_of_encode_append h
          rw [encode_cons, encode_cons, List.append_assoc] at h
          exact List.cons_prefix_cons.mpr ⟨rfl, ih (List.append_cancel_left h)⟩

/-- Bytes of ASCII characters stand for themselves. -/
theorem eq_of_mem_utf8EncodeChar {c : Char} (h : b ∈ String.utf8EncodeChar c)
    (hb : b.toNat < 0x80) : c = Char.ofNat b.toNat := by
  have hchar : c.val.toNat ≤ 0x7f ∧ c.val.toNat = b.toNat := by
    simp only [String.utf8EncodeChar] at h
    split_ifs at h with h1 h2 h3
    · simp only [List.mem_singleton] at h
      refine ⟨h1, ?_⟩
      rw [h, UInt8.toNat_ofNat']
      omega
    all_goals
      -- the other encodings have no byte below 0x80
      simp only [List.mem_cons, List.not_mem_nil, or_false] at h
    · obtain rfl | rfl := h <;> rw [UInt8.toNat_ofNat'] at hb <;> omega
    · obtain rfl | rfl | rfl := h <;> rw [UInt8.toNat_ofNat'] at hb <;> omega
    · obtain rfl | rfl | rfl | rfl := h <;> rw [UInt8.toNat_ofNat'] at hb <;> omega
  rw [← hchar.2]
  exact (Char.ofNat_toNat c).symm

/-- A line break in the bytes is one in the text. -/
theorem newline_mem_encode (h : (10 : UInt8) ∈ encode text) : '\n' ∈ text := by
  obtain ⟨c, hc, hmem⟩ := List.mem_flatMap.mp h
  rw [eq_of_mem_utf8EncodeChar hmem (by decide)] at hc
  exact hc

/-! ## Lines -/

/-- The lines of a file; all but the last one end with a line break. -/
def lines : List UInt8 → List (List UInt8)
  | [] => [[]]
  | b :: bytes =>
      if b = 10 then [] :: lines bytes
      else
        match lines bytes with
        | [] => [[b]]
        | line :: rest => (b :: line) :: rest

theorem lines_ne_nil (bytes : List UInt8) : lines bytes ≠ [] := by
  cases bytes with
  | nil => simp [lines]
  | cons b bytes =>
      rw [lines]
      split_ifs
      · simp
      · split <;> simp

theorem lines_append (bytes more : List UInt8) :
    lines (bytes ++ 10 :: more) = lines bytes ++ lines more := by
  induction bytes with
  | nil => simp [lines]
  | cons b bytes ih =>
      rw [List.cons_append, lines, lines, ih]
      by_cases hb : b = 10
      · simp [hb]
      · obtain ⟨line, rest, hlines⟩ := List.exists_cons_of_ne_nil (lines_ne_nil bytes)
        simp [hb, hlines]

theorem lines_of_notMem (h : (10 : UInt8) ∉ bytes) : lines bytes = [bytes] := by
  induction bytes with
  | nil => rfl
  | cons b bytes ih =>
      simp only [List.mem_cons, not_or] at h
      rw [lines, if_neg (Ne.symm h.1), ih h.2]

/-- A file of lines that all end with a line break. -/
def unlines (contents : List (List UInt8)) : List UInt8 := contents.flatMap fun line => line ++ [10]

theorem lines_unlines_append (h : ∀ line ∈ contents, 10 ∉ line) (tail : List UInt8) :
    lines (unlines contents ++ tail) = contents ++ lines tail := by
  induction contents with
  | nil => rfl
  | cons line contents ih =>
      have hrest := ih fun other hother => h other (List.mem_cons_of_mem _ hother)
      have hline := lines_of_notMem (h line List.mem_cons_self)
      rw [unlines, List.flatMap_cons, List.append_assoc, List.append_assoc, List.singleton_append,
        lines_append, hline]
      simpa [unlines] using hrest

theorem unlines_cons (line : List UInt8) (contents : List (List UInt8)) :
    unlines (line :: contents) = line ++ 10 :: unlines contents := by
  simp [unlines]

theorem getLast?_unlines (h : contents ≠ []) :
    (unlines contents).getLast? = some 10 := by
  obtain rfl | ⟨contents, line, rfl⟩ := contents.eq_nil_or_concat'
  · exact absurd rfl h
  · simp [unlines]

/-- A file that is cut ends inside one of its lines. -/
theorem take_unlines {k : Nat} (hk : k < (unlines contents).length) :
    ∃ before line after j, contents = before ++ line :: after ∧ j ≤ line.length ∧
      (unlines contents).take k = unlines before ++ line.take j ∧
      (unlines contents)[k]? = (line ++ [10])[j]? := by
  induction contents generalizing k with
  | nil => simp [unlines] at hk
  | cons line contents ih =>
      by_cases hline : k ≤ line.length
      · refine ⟨[], line, contents, k, rfl, hline, ?_, ?_⟩
        · simp [unlines, List.take_append_of_le_length hline]
        · have hlt : k < (line ++ [10]).length := by simp; omega
          rw [unlines_cons, ← List.singleton_append, ← List.append_assoc,
            List.getElem?_append_left hlt]
      · obtain ⟨d, rfl⟩ : ∃ d, k = line.length + 1 + d := ⟨k - (line.length + 1), by omega⟩
        have hd : d < (unlines contents).length := by
          rw [unlines_cons, List.length_append, List.length_cons] at hk
          omega
        obtain ⟨before, cut, after, j, rfl, hj, htake, hget⟩ := ih hd
        refine ⟨line :: before, cut, after, j, rfl, hj, ?_, ?_⟩
        · rw [unlines_cons, unlines_cons, List.take_append, List.append_assoc, List.cons_append,
            ← htake]
          simp [List.take_of_length_le, Nat.add_assoc, Nat.add_comm 1 d]
        · rw [unlines_cons, ← hget, List.getElem?_append_right (by omega)]
          simp [Nat.add_assoc, Nat.add_comm 1 d]

/-! ## White space around a line -/

def isSpace (b : UInt8) : Bool := b == 32 || decide (9 ≤ b ∧ b ≤ 13)

def stripEnd (bytes : List UInt8) : List UInt8 := (bytes.reverse.dropWhile isSpace).reverse

def strip (bytes : List UInt8) : List UInt8 := stripEnd (bytes.dropWhile isSpace)

theorem stripEnd_prefix (bytes : List UInt8) : stripEnd bytes <+: bytes := by
  have hsuffix := List.dropWhile_suffix (l := bytes.reverse) isSpace
  rw [stripEnd, ← List.reverse_suffix, List.reverse_reverse]
  exact hsuffix

theorem stripEnd_of_last (h : isSpace b = false) :
    stripEnd (bytes ++ [b]) = bytes ++ [b] := by
  simp [stripEnd, h]

theorem stripEnd_cons_ne_nil (h : isSpace b = false) (bytes : List UInt8) :
    stripEnd (b :: bytes) ≠ [] := by
  intro hnil
  simp only [stripEnd, List.reverse_cons, List.reverse_eq_nil_iff, List.dropWhile_eq_nil_iff,
    List.mem_append, List.mem_singleton] at hnil
  rw [hnil b (.inr rfl)] at h
  simp at h

theorem strip_cons (h : isSpace b = false) (bytes : List UInt8) :
    strip (b :: bytes) = stripEnd (b :: bytes) := by
  simp [strip, h]

end Bytes
