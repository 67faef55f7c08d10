import Igris.Lib.Text

/-!
# Name patterns

A pattern is a name, the star, or a stem with a trailing {lit}`.*`.  As every pattern is
also a text, patterns can be matched against patterns.

Main results:

- Theorem {lit}`matches_iff`: the test for a trailing {lit}`.*` and its two ways to take off
  the star.
- Theorem {lit}`Covers.trans`: a pattern that matches a pattern covers what that covers.
-/

namespace Pattern

/-- The pattern matches the name. -/
def Covers (pattern name : String) : Prop :=
  pattern = name ∨ pattern = "*" ∨
    ∃ stem : List Char, pattern.toList = stem ++ ['.', '*'] ∧ (stem ++ ['.']) <+: name.toList

/-- The pattern matches more than its own text. -/
def Wildcard (pattern : String) : Prop :=
  pattern = "*" ∨ ∃ stem : List Char, pattern.toList = stem ++ ['.', '*']

theorem Covers.eq_of_not_wildcard {pattern name : String} (h : Covers pattern name)
    (hliteral : ¬Wildcard pattern) : pattern = name := by
  obtain heq | hstar | ⟨stem, hstem, -⟩ := h
  · exact heq
  · exact absurd (.inl hstar) hliteral
  · exact absurd (.inr ⟨stem, hstem⟩) hliteral

/-- The stem of a wildcard with its dot starts with every stem that the wildcard starts with. -/
theorem stem_start {stem stem' : List Char} (h : (stem ++ ['.']) <+: stem' ++ ['.', '*']) :
    (stem ++ ['.']) <+: stem' ++ ['.'] := by
  have hsplit : stem' ++ ['.', '*'] = (stem' ++ ['.']) ++ ['*'] := by simp
  rw [hsplit] at h
  obtain heq | hstart := List.prefix_concat_iff.mp h
  · have hlast := congrArg List.getLast? heq
    simp at hlast
  · exact hstart

theorem Covers.trans {pattern middle name : String} (h : Covers pattern middle)
    (h' : Covers middle name) : Covers pattern name := by
  obtain rfl | hstar | ⟨stem, hpattern, hstem⟩ := h
  · exact h'
  · exact .inr (.inl hstar)
  · obtain rfl | rfl | ⟨stem', hmiddle, hstem'⟩ := h'
    · exact .inr (.inr ⟨stem, hpattern, hstem⟩)
    · have hdot : '.' ∈ "*".toList := hstem.subset (by simp)
      simp at hdot
    · rw [hmiddle] at hstem
      exact .inr (.inr ⟨stem, hpattern, (stem_start hstem).trans hstem'⟩)

/-! ## Testing -/

section Testing

variable {pattern name : String}

theorem hasSuffix_iff : Text.hasSuffix pattern ".*" = true ↔
    ∃ stem : List Char, pattern.toList = stem ++ ['.', '*'] := by
  rw [Text.hasSuffix, List.isSuffixOf_iff_suffix]
  constructor
  · rintro ⟨stem, hstem⟩
    exact ⟨stem, hstem.symm⟩
  · rintro ⟨stem, hstem⟩
    exact ⟨stem, hstem.symm⟩

theorem trimSuffix_star {stem : List Char} (h : pattern.toList = stem ++ ['.', '*']) :
    (Text.trimSuffix pattern "*").toList = stem ++ ['.'] := by
  have hsuffix : Text.hasSuffix pattern "*" = true := by
    rw [Text.hasSuffix, List.isSuffixOf_iff_suffix, h]
    exact ⟨stem ++ ['.'], by simp⟩
  have hlength : pattern.length = stem.length + 2 := by
    rw [← String.length_toList, h]
    simp
  have hkeep : pattern.length - "*".length = stem.length + 1 := by
    rw [hlength]
    rfl
  rw [Text.trimSuffix, if_pos hsuffix, String.toList_ofList, h, hkeep]
  simp [List.take_append]

theorem trimEndMatches_star {stem : List Char} (h : pattern.toList = stem ++ ['.', '*']) :
    (Text.trimEndMatches '*' pattern).toList = stem ++ ['.'] := by
  simp [Text.trimEndMatches, h]

/-- A pattern is tested in the same way with either form of its stem. -/
theorem matches_iff {start : String}
    (hstart : ∀ stem : List Char, pattern.toList = stem ++ ['.', '*'] → start.toList = stem ++ ['.']) :
    (decide (pattern = name) || decide (pattern = "*") ||
      (Text.hasSuffix pattern ".*" && Text.hasPrefix name start)) = true ↔ Covers pattern name := by
  simp only [Bool.or_eq_true, Bool.and_eq_true, decide_eq_true_eq, hasSuffix_iff, Text.hasPrefix,
    List.isPrefixOf_iff_prefix, Covers, or_assoc]
  refine or_congr_right (or_congr_right ?_)
  constructor
  · rintro ⟨⟨stem, hstem⟩, hname⟩
    exact ⟨stem, hstem, hstart stem hstem ▸ hname⟩
  · rintro ⟨stem, hstem, hname⟩
    exact ⟨⟨stem, hstem⟩, hstart stem hstem ▸ hname⟩

end Testing

end Pattern
