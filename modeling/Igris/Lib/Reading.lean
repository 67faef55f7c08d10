import Igris.Lib.Encoding
import Igris.Lib.Json

/-!
# Reading printed texts

The characters of a JSON text, one at a time.  Serializers that escape differently are
read in the same way, so their output determines what was printed.

Main results:

- Theorems {lit}`reads_serdeEscape` and {lit}`reads_goEscape`: both escapes are read back.
- Theorem {lit}`printTexts_inj`: objects of texts that print alike are equal, whichever of
  the serializers printed them.
-/

namespace Json

/-- The number that four hexadecimal digits stand for. -/
def readUnit : List Char → Option (Nat × List Char)
  | a :: b :: c :: d :: rest =>
      match Text.hexDigit? a, Text.hexDigit? b, Text.hexDigit? c, Text.hexDigit? d with
      | some h, some i, some j, some k => some (4096 * h + 256 * i + 16 * j + k, rest)
      | _, _, _, _ => none
  | _ => none

/-- The character of a two-character escape. -/
def shortUnescape (letter : Char) : Option Char :=
  if letter.toNat = 0x22 ∨ letter.toNat = 0x5C ∨ letter.toNat = 0x2F then some letter
  else if letter = 'b' then some (Char.ofNat 0x08)
  else if letter = 't' then some (Char.ofNat 0x09)
  else if letter = 'n' then some (Char.ofNat 0x0A)
  else if letter = 'f' then some (Char.ofNat 0x0C)
  else if letter = 'r' then some (Char.ofNat 0x0D)
  else none

/-- The next character of a text between quotes; {lit}`none` at its end.  Characters outside
the basic plane are written as they are. -/
def readChar : List Char → Option (Char × List Char)
  | [] => none
  | c :: rest =>
      if c.toNat = 0x22 then none
      else if c = '\\' then
        match rest with
        | [] => none
        | letter :: rest =>
            if letter = 'u' then
              (readUnit rest).bind fun read =>
                if read.1.isValidChar then some (Char.ofNat read.1, read.2) else none
            else (shortUnescape letter).map fun c => (c, rest)
      else some (c, rest)

/-- What an escape writes is read back. -/
def Reads (escape : Char → List Char) : Prop :=
  ∀ c rest, readChar (escape c ++ rest) = some (c, rest)

theorem readUnit_unicodeEscape {n : Nat} (h : n < 65536) (rest : List Char) :
    readUnit ([n / 4096 % 16, n / 256 % 16, n / 16 % 16, n % 16].map Text.hexDigit ++ rest) =
      some (n, rest) := by
  have hdigit (m : Nat) : Text.hexDigit? (Text.hexDigit (m % 16)) = some (m % 16) :=
    Text.hexDigit?_hexDigit (Nat.mod_lt m (by decide))
  simp only [List.map_cons, List.map_nil, List.cons_append, List.nil_append, readUnit, hdigit,
    Option.some.injEq, Prod.mk.injEq, and_true]
  omega

theorem readChar_unicodeEscape {c : Char} (h : c.toNat < 65536) (rest : List Char) :
    readChar (unicodeEscape c.toNat ++ rest) = some (c, rest) := by
  have hunit := readUnit_unicodeEscape h rest
  have hvalid : c.toNat.isValidChar := c.valid
  simp only [unicodeEscape, List.cons_append, readChar]
  rw [if_neg (by decide)]
  simp only [if_true, hunit, Option.bind_some, hvalid, Char.ofNat_toNat]

theorem readChar_shortEscape {c letter : Char} (h : shortEscape c = some letter)
    (rest : List Char) : readChar (['\\', letter] ++ rest) = some (c, rest) := by
  have hchar {n : Nat} (hn : c.toNat = n) : Char.ofNat n = c := by rw [← hn, Char.ofNat_toNat]
  have hread : letter ≠ 'u' ∧ shortUnescape letter = some c := by
    unfold shortEscape at h
    split_ifs at h with h1 h2 h3 h4 h5 h6 h7 <;> obtain rfl := Option.some.inj h
    · exact ⟨by rintro rfl; revert h1; decide, by simp [shortUnescape, h1]⟩
    · exact ⟨by rintro rfl; revert h2; decide, by simp [shortUnescape, h2]⟩
    · exact ⟨by decide, by rw [← hchar h3]; rfl⟩
    · exact ⟨by decide, by rw [← hchar h4]; rfl⟩
    · exact ⟨by decide, by rw [← hchar h5]; rfl⟩
    · exact ⟨by decide, by rw [← hchar h6]; rfl⟩
    · exact ⟨by decide, by rw [← hchar h7]; rfl⟩
  simp only [List.cons_append, List.nil_append, readChar]
  rw [if_neg (by decide)]
  simp [hread]

theorem reads_serdeEscape : Reads serdeEscape := by
  intro c rest
  unfold serdeEscape
  cases hshort : shortEscape c with
  | some letter => exact readChar_shortEscape hshort rest
  | none =>
      by_cases hcontrol : c.toNat < 0x20
      · simp only [hcontrol, if_true]
        exact readChar_unicodeEscape (by omega) rest
      · have hquote : c.toNat ≠ 0x22 := by
          intro hc
          simp [shortEscape, hc] at hshort
        have hbackslash : c ≠ '\\' := by
          rintro rfl
          revert hshort
          decide
        simp [hcontrol, readChar, hquote, hbackslash]

theorem reads_goEscape : Reads goEscape := by
  intro c rest
  unfold goEscape
  by_cases hescaped : htmlEscaped c = true
  · rw [if_pos hescaped]
    apply readChar_unicodeEscape
    simp only [htmlEscaped, List.mem_cons, List.not_mem_nil, or_false, decide_eq_true_eq]
      at hescaped
    omega
  · rw [if_neg hescaped]
    exact reads_serdeEscape c rest

/-! ## Texts and objects of texts -/

section Injective

variable {e₁ e₂ : Char → List Char}

theorem readChar_quote (rest : List Char) : readChar (Char.ofNat 0x22 :: rest) = none := by
  simp only [readChar]
  rw [if_pos (by decide)]

theorem flatMap_escape_inj (h₁ : Reads e₁) (h₂ : Reads e₂) {s t x y : List Char}
    (h : s.flatMap e₁ ++ Char.ofNat 0x22 :: x = t.flatMap e₂ ++ Char.ofNat 0x22 :: y) :
    s = t ∧ x = y := by
  induction s generalizing t with
  | nil =>
      cases t with
      | nil => simpa using h
      | cons d t =>
          -- one side ends here, the other has a character
          have hread := congrArg readChar h
          simp [readChar_quote, h₂ d] at hread
  | cons c s ih =>
      cases t with
      | nil =>
          have hread := congrArg readChar h
          simp [readChar_quote, h₁ c] at hread
      | cons d t =>
          have hread := congrArg readChar h
          simp only [List.flatMap_cons, List.append_assoc, h₁ c, h₂ d, Option.some.injEq,
            Prod.mk.injEq] at hread
          obtain ⟨rfl, hrest⟩ := ih hread.2
          exact ⟨by rw [hread.1], hrest⟩

theorem quote_append_inj (h₁ : Reads e₁) (h₂ : Reads e₂) {s t : String} {x y : List Char}
    (h : quote e₁ s ++ x = quote e₂ t ++ y) : s = t ∧ x = y := by
  simp only [quote, List.cons_append, List.nil_append, List.append_assoc, List.cons.injEq,
    true_and] at h
  obtain ⟨hchars, hrest⟩ := flatMap_escape_inj h₁ h₂ h
  exact ⟨String.toList_inj.mp hchars, hrest⟩

/-- The object whose members are texts. -/
def ofTexts (entries : List (String × String)) : Json :=
  .object (entries.map fun entry => (entry.1, .string entry.2))

theorem printMembers_ofTexts_inj (h₁ : Reads e₁) (h₂ : Reads e₂)
    {a b : List (String × String)}
    (h : printMembers e₁ (a.map fun entry => (entry.1, .string entry.2)) ++ [Char.ofNat 0x7D] =
      printMembers e₂ (b.map fun entry => (entry.1, .string entry.2)) ++ [Char.ofNat 0x7D]) :
    a = b := by
  induction a generalizing b with
  | nil =>
      cases b with
      | nil => rfl
      | cons entry b =>
          simp only [List.map_nil, List.map_cons, printMembers, quote, List.nil_append,
            List.cons_append, List.cons.injEq] at h
          exact absurd h.1 (by decide)
  | cons entry a ih =>
      cases b with
      | nil =>
          simp only [List.map_nil, List.map_cons, printMembers, quote, List.nil_append,
            List.cons_append, List.cons.injEq] at h
          exact absurd h.1 (by decide)
      | cons entry' b =>
          simp only [List.map_cons, printMembers, print, List.append_assoc] at h
          obtain ⟨hkey, hrest⟩ := quote_append_inj h₁ h₂ h
          obtain ⟨hvalue, hrest⟩ := quote_append_inj h₁ h₂ (List.append_cancel_left hrest)
          have hentry : entry = entry' := Prod.ext hkey hvalue
          -- a comma follows on both sides, or on neither
          cases a with
          | nil =>
              cases b with
              | nil => rw [hentry]
              | cons next b =>
                  simp only [List.map_nil, List.map_cons, printMembers, List.isEmpty_nil,
                    List.isEmpty_cons, if_true, Bool.false_eq_true, if_false, List.nil_append,
                    List.cons_append, List.cons.injEq] at hrest
                  exact absurd hrest.1 (by decide)
          | cons first a =>
              cases b with
              | nil =>
                  simp only [List.map_nil, List.map_cons, printMembers, List.isEmpty_nil,
                    List.isEmpty_cons, if_true, Bool.false_eq_true, if_false, List.nil_append,
                    List.cons_append, List.cons.injEq] at hrest
                  exact absurd hrest.1 (by decide)
              | cons next b =>
                  simp only [List.map_cons, List.isEmpty_cons, Bool.false_eq_true,
                    if_false] at hrest
                  have htail : first :: a = next :: b := by
                    apply ih
                    exact List.append_cancel_left hrest
                  rw [hentry, htail]

/-- Objects of texts that print alike are equal. -/
theorem printTexts_inj (h₁ : Reads e₁) (h₂ : Reads e₂) {a b : List (String × String)}
    (h : print e₁ (ofTexts a) = print e₂ (ofTexts b)) : a = b := by
  simp only [ofTexts, print, List.cons_append, List.nil_append,
    List.cons.injEq, true_and] at h
  exact printMembers_ofTexts_inj h₁ h₂ h

end Injective

end Json
