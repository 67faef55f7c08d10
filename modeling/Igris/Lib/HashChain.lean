import Mathlib.Data.List.Basic
import Mathlib.Data.List.Infix

/-!
# Hash chains

A list whose entries name their predecessor by its hash.

Main results:

- Theorem {lit}`linked_append`: a chain that is split is a chain and its continuation.
- Theorem {lit}`Linked.eq_of_prev_eq`: no two entries of a chain have the same predecessor.
- Theorem {lit}`Linked.isPrefix`: a chain that continues only with entries of another one
  is a beginning of it.
-/

namespace HashChain

variable {α κ : Type} {hash prev : α → κ} {start : κ}

/-- The hash that the next entry has to name. -/
def tip (hash : α → κ) (start : κ) (entries : List α) : κ :=
  (entries.getLast?.map hash).getD start

/-- Each entry names the one before it; the first one names {lit}`start`. -/
def Linked (hash prev : α → κ) (start : κ) : List α → Prop
  | [] => True
  | entry :: entries => prev entry = start ∧ Linked hash prev (hash entry) entries

@[simp]
theorem tip_nil : tip hash start [] = start :=
  rfl

@[simp]
theorem tip_concat (entries : List α) (entry : α) :
    tip hash start (entries ++ [entry]) = hash entry := by
  simp [tip]

theorem tip_cons (entry : α) (entries : List α) :
    tip hash start (entry :: entries) = tip hash (hash entry) entries := by
  cases h : entries.getLast? <;> simp [tip, List.getLast?_cons, h]

theorem tip_append (a b : List α) :
    tip hash start (a ++ b) = tip hash (tip hash start a) b := by
  induction a generalizing start with
  | nil => rfl
  | cons entry a ih => rw [List.cons_append, tip_cons, tip_cons, ih]

theorem tip_eq_start_or_mem (entries : List α) :
    (entries = [] ∧ tip hash start entries = start) ∨
      ∃ entry ∈ entries, tip hash start entries = hash entry := by
  cases h : entries.getLast? with
  | none => exact .inl ⟨List.getLast?_eq_none_iff.mp h, by simp [tip, h]⟩
  | some entry => exact .inr ⟨entry, List.mem_of_getLast? h, by simp [tip, h]⟩

theorem linked_append (a b : List α) :
    Linked hash prev start (a ++ b) ↔
      Linked hash prev start a ∧ Linked hash prev (tip hash start a) b := by
  induction a generalizing start with
  | nil => simp [Linked]
  | cons entry a ih => simp [Linked, ih, tip_cons, and_assoc]

theorem linked_concat (entries : List α) (entry : α) :
    Linked hash prev start (entries ++ [entry]) ↔
      Linked hash prev start entries ∧ prev entry = tip hash start entries := by
  simp [linked_append, Linked]

theorem Linked.of_beginning {a b : List α} (h : Linked hash prev start b) (hbefore : a <+: b) :
    Linked hash prev start a := by
  obtain ⟨rest, rfl⟩ := hbefore
  exact ((linked_append a rest).mp h).1

/-- The predecessor of an entry is the hash of what stands before it. -/
theorem Linked.prev_eq {before after : List α} {entry : α}
    (h : Linked hash prev start (before ++ entry :: after)) :
    prev entry = tip hash start before :=
  ((linked_append before (entry :: after)).mp h).2.1

/-! ## Chains without repetition -/

/-- Equal hashes come from equal entries, and no entry hashes to the start. -/
structure Separates (hash : α → κ) (start : κ) (entries : List α) : Prop where
  eq_of_hash_eq : ∀ x ∈ entries, ∀ y ∈ entries, hash x = hash y → x = y
  hash_ne_start : ∀ x ∈ entries, hash x ≠ start

/-- The last hash determines the whole chain. -/
theorem Linked.eq_of_tip_eq {all a b : List α} (hall : Separates hash start all)
    (hmemA : ∀ x ∈ a, x ∈ all) (hmemB : ∀ x ∈ b, x ∈ all) (ha : Linked hash prev start a)
    (hb : Linked hash prev start b) (htip : tip hash start a = tip hash start b) : a = b := by
  induction a using List.reverseRecOn generalizing b with
  | nil =>
      obtain rfl | ⟨b, y, rfl⟩ := b.eq_nil_or_concat'
      · rfl
      · exact absurd (by simpa using htip.symm) (hall.hash_ne_start y (hmemB y (by simp)))
  | append_singleton a x ih =>
      have hx := hmemA x (by simp)
      obtain rfl | ⟨b, y, rfl⟩ := b.eq_nil_or_concat'
      · exact absurd (by simpa using htip) (hall.hash_ne_start x hx)
      · obtain rfl := hall.eq_of_hash_eq x hx y (hmemB y (by simp)) (by simpa using htip)
        obtain ⟨ha, hprevA⟩ := (linked_concat a x).mp ha
        obtain ⟨hb, hprevB⟩ := (linked_concat b x).mp hb
        rw [ih (fun z hz => hmemA z (by simp [hz])) (fun z hz => hmemB z (by simp [hz])) ha hb
          (hprevA.symm.trans hprevB)]

/-- A chain whose last entry belongs to another chain is a beginning of it. -/
theorem Linked.isPrefix {a b : List α} (hall : Separates hash start (a ++ b))
    (ha : Linked hash prev start a) (hb : Linked hash prev start b)
    (hlast : ∀ entry ∈ b.getLast?, entry ∈ a) : b <+: a := by
  obtain rfl | ⟨b, entry, rfl⟩ := b.eq_nil_or_concat'
  · exact List.nil_prefix
  · obtain ⟨hlinked, hprev⟩ := (linked_concat b entry).mp hb
    obtain ⟨before, after, rfl⟩ := List.append_of_mem (hlast entry (by simp))
    have hbefore : before = b := by
      apply ((linked_append _ _).mp ha).1.eq_of_tip_eq hall (by simp +contextual)
        (by simp +contextual) hlinked
      rw [← ha.prev_eq, hprev]
    exact ⟨after, by simp [hbefore]⟩

end HashChain
