import Mathlib.Tactic

/-!
# Chains of checks

Validation code is a chain of conditions, each with the error it stops with.  A chain
succeeds exactly if every link does.
-/

namespace Validation

variable {ε α β : Type}

/-- Go on if a condition holds, otherwise stop with an error. -/
def require (condition : Bool) (error : ε) : Except ε Unit :=
  if condition then .ok () else .error error

theorem bind_eq_ok_iff {first : Except ε α} {rest : α → Except ε β} {b : β} :
    (first >>= rest) = .ok b ↔ ∃ a, first = .ok a ∧ rest a = .ok b := by
  cases first <;> simp [bind, Except.bind]

theorem bind_eq_error_iff {first : Except ε α} {rest : α → Except ε β} {err : ε} :
    (first >>= rest) = .error err ↔
      first = .error err ∨ ∃ a, first = .ok a ∧ rest a = .error err := by
  cases first <;> simp [bind, Except.bind]

/-- A chain that starts with a condition. -/
theorem require_bind_eq_ok_iff {condition : Bool} {error : ε} {rest : Unit → Except ε β} {b : β} :
    (require condition error >>= rest) = .ok b ↔ condition = true ∧ rest () = .ok b := by
  cases condition <;> simp [require, bind, Except.bind]

/-! ## Checks of every element -/

/-- An error comes from one of the elements. -/
theorem exists_of_mapM_eq_error {f : α → Except ε β} {items : List α} {err : ε}
    (h : items.mapM f = .error err) : ∃ item ∈ items, f item = .error err := by
  induction items with
  | nil => simp [pure, Except.pure] at h
  | cons item items ih =>
      rw [List.mapM_cons] at h
      cases hitem : f item with
      | error err' =>
          simp only [hitem, bind, Except.bind, Except.error.injEq] at h
          exact ⟨item, List.mem_cons_self, by rw [hitem, h]⟩
      | ok b =>
          cases hrest : items.mapM f with
          | error err' =>
              simp only [hitem, hrest, bind, Except.bind, Except.error.injEq] at h
              obtain ⟨other, hmem, hother⟩ := ih (by rw [hrest, h])
              exact ⟨other, List.mem_cons_of_mem _ hmem, hother⟩
          | ok bs => simp [hitem, hrest, bind, Except.bind, pure, Except.pure] at h

/-- Two lists whose elements give the same results one by one. -/
theorem mapM_eq_of_forall₂ {α' : Type} {f : α → Except ε β} {g : α' → Except ε β} {as : List α}
    {bs : List α'} (h : List.Forall₂ (fun a b => f a = g b) as bs) : as.mapM f = bs.mapM g := by
  induction h with
  | nil => rfl
  | cons hfirst _ ih => rw [List.mapM_cons, List.mapM_cons, hfirst, ih]

end Validation
