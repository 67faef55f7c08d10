import Mathlib.Data.List.Basic
import Mathlib.Tactic

/-!
# Keyed merge with conflict detection

Entries arrive one after the other and are collected by key.  The first entry of
a key is kept; a later entry of the same key is dropped when it is equivalent to
the kept one, and stops the merge otherwise.

Main results:

- Theorem {lit}`lookup_addAll`: a finished merge answers every key with the first
  entry that carries it.
- Theorem {lit}`addAll_isSome_iff`: the merge finishes exactly when entries of one
  key are pairwise equivalent.
-/

namespace KeyedMerge

variable {κ ε : Type} [DecidableEq κ] {key : ε → κ} {same : ε → ε → Bool}

/-- The first entry that carries the key. -/
def lookup (key : ε → κ) (m : List ε) (k : κ) : Option ε :=
  m.find? fun e => decide (key e = k)

/-- Add one entry; {lit}`none` when the key is taken by an entry that differs. -/
def add (key : ε → κ) (same : ε → ε → Bool) (m : List ε) (e : ε) : Option (List ε) :=
  match lookup key m (key e) with
  | some old => if same old e then some m else none
  | none => some (m ++ [e])

/-- Add entries in order, stopping at the first conflict. -/
def addAll (key : ε → κ) (same : ε → ε → Bool) : List ε → List ε → Option (List ε)
  | m, [] => some m
  | m, e :: es => (add key same m e).bind fun m' => addAll key same m' es

variable {m : List ε} {e : ε}

theorem key_of_lookup {k : κ} (h : lookup key m k = some e) : key e = k := by
  simpa using List.find?_some h

theorem mem_of_lookup {k : κ} (h : lookup key m k = some e) : e ∈ m :=
  List.mem_of_find?_eq_some h

theorem lookup_append (m m' : List ε) (k : κ) :
    lookup key (m ++ m') k = (lookup key m k).or (lookup key m' k) := by
  unfold lookup
  rw [List.find?_append]

/-- A key is answered exactly when some entry carries it. -/
theorem exists_lookup_iff {k : κ} : (∃ e, lookup key m k = some e) ↔ ∃ e ∈ m, key e = k := by
  constructor
  · rintro ⟨e, he⟩
    exact ⟨e, mem_of_lookup he, key_of_lookup he⟩
  · rintro ⟨e, hmem, hkey⟩
    cases hl : lookup key m k with
    | some e' => exact ⟨e', rfl⟩
    | none =>
        have hnone := List.find?_eq_none.mp hl e hmem
        exact absurd hkey (by simpa using hnone)

theorem exists_lookup_of_mem (key : ε → κ) (h : e ∈ m) : ∃ x, lookup key m (key e) = some x :=
  exists_lookup_iff.mpr ⟨e, h, rfl⟩

/-- An added entry was already represented, or its key was free. -/
theorem add_eq_some {m m' : List ε} (h : add key same m e = some m') :
    (∃ old, lookup key m (key e) = some old ∧ same old e = true ∧ m' = m) ∨
      lookup key m (key e) = none ∧ m' = m ++ [e] := by
  unfold add at h
  split at h
  · rename_i old hl
    split at h <;> rename_i hsame
    · cases h
      exact Or.inl ⟨old, hl, hsame, rfl⟩
    · cases h
  · rename_i hl
    cases h
    exact Or.inr ⟨hl, rfl⟩

/-- Adding an entry answers keys as appending it would. -/
theorem lookup_add {m m' : List ε} (h : add key same m e = some m') (k : κ) :
    lookup key m' k = lookup key (m ++ [e]) k := by
  rcases add_eq_some h with ⟨old, hl, -, rfl⟩ | ⟨-, rfl⟩
  · rw [lookup_append]
    by_cases hk : key e = k
    · subst hk
      rw [hl]
      rfl
    · have hmiss : lookup key [e] k = none := by simp [lookup, hk]
      rw [hmiss, Option.or_none]
  · rfl

theorem lookup_addAll {m m' es : List ε} (h : addAll key same m es = some m') (k : κ) :
    lookup key m' k = lookup key (m ++ es) k := by
  induction es generalizing m with
  | nil =>
      cases h
      rw [List.append_nil]
  | cons e es ih =>
      rcases Option.bind_eq_some_iff.mp h with ⟨m₁, hadd, hrest⟩
      calc lookup key m' k = (lookup key m₁ k).or (lookup key es k) := by
            rw [ih hrest, lookup_append]
        _ = lookup key (m ++ e :: es) k := by
            rw [lookup_add hadd, ← lookup_append, List.append_assoc, List.singleton_append]

/-- Every entry of a finished merge was in the start or among the added ones. -/
theorem mem_addAll {m m' es : List ε} (h : addAll key same m es = some m') (he : e ∈ m') :
    e ∈ m ∨ e ∈ es := by
  induction es generalizing m with
  | nil =>
      cases h
      exact Or.inl he
  | cons x es ih =>
      rcases Option.bind_eq_some_iff.mp h with ⟨m₁, hadd, hrest⟩
      rcases ih hrest with hmem | hmem
      · rcases add_eq_some hadd with ⟨-, -, -, rfl⟩ | ⟨-, rfl⟩
        · exact Or.inl hmem
        · rcases List.mem_append.mp hmem with hmem | hmem
          · exact Or.inl hmem
          · exact Or.inr (List.mem_cons.mpr (Or.inl (List.mem_singleton.mp hmem)))
      · exact Or.inr (List.mem_cons_of_mem _ hmem)

/-- Merging in two parts is merging once. -/
theorem addAll_append (m es es' : List ε) :
    addAll key same m (es ++ es') =
      (addAll key same m es).bind fun m' => addAll key same m' es' := by
  induction es generalizing m with
  | nil => rfl
  | cons e es ih =>
      simp only [List.cons_append, addAll, ih, Option.bind_assoc]

/-! ## When a merge finishes -/

/-- One entry can be added exactly when it agrees with the entry its key leads to. -/
theorem add_isSome_iff (hrefl : ∀ e, same e e = true) (m : List ε) (e : ε) :
    (∃ m', add key same m e = some m') ↔
      ∀ old, lookup key (m ++ [e]) (key e) = some old → same old e = true := by
  have hself : lookup key [e] (key e) = some e := by simp [lookup]
  rw [lookup_append, hself]
  unfold add
  cases hl : lookup key m (key e) with
  | none =>
      constructor
      · rintro - old hold
        cases hold
        exact hrefl e
      · intro _
        exact ⟨_, rfl⟩
  | some old =>
      constructor
      · rintro ⟨m', hm'⟩ old' hold'
        cases hold'
        by_contra hsame
        simp [hsame] at hm'
      · intro hsame
        exact ⟨m, by simp [hsame old rfl]⟩

theorem addAll_isSome_iff_first (hrefl : ∀ e, same e e = true) (m es : List ε) :
    (∃ m', addAll key same m es = some m') ↔
      ∀ e ∈ es, ∀ old, lookup key (m ++ es) (key e) = some old → same old e = true := by
  induction es generalizing m with
  | nil => simp [addAll]
  | cons e es ih =>
      have hassoc : m ++ e :: es = (m ++ [e]) ++ es := by simp
      -- the answer for the key of `e` is settled once `e` itself is in the list
      have hhead : lookup key (m ++ e :: es) (key e) = lookup key (m ++ [e]) (key e) := by
        have hmem : e ∈ m ++ [e] := List.mem_append_right m (List.mem_singleton_self e)
        rcases exists_lookup_of_mem key hmem with ⟨x, hx⟩
        rw [hassoc, lookup_append, hx]
        rfl
      constructor
      · rintro ⟨m', hm'⟩ x hx old hold
        rcases Option.bind_eq_some_iff.mp hm' with ⟨m₁, hadd, hrest⟩
        rcases List.mem_cons.mp hx with rfl | hx
        · exact (add_isSome_iff hrefl m x).mp ⟨m₁, hadd⟩ old (hhead ▸ hold)
        · apply (ih m₁).mp ⟨m', hrest⟩ x hx
          rw [lookup_append, lookup_add hadd, ← lookup_append, ← hassoc]
          exact hold
      · intro hall
        have hfirst := hall e List.mem_cons_self
        rw [hhead] at hfirst
        rcases (add_isSome_iff hrefl m e).mpr hfirst with ⟨m₁, hadd⟩
        have hrest : ∃ m', addAll key same m₁ es = some m' := by
          apply (ih m₁).mpr
          intro x hx old hold
          rw [lookup_append, lookup_add hadd, ← lookup_append, ← hassoc] at hold
          exact hall x (List.mem_cons_of_mem e hx) old hold
        rcases hrest with ⟨m', hm'⟩
        exact ⟨m', by rw [addAll, hadd, Option.bind_some, hm']⟩

theorem addAll_isSome_iff (hrefl : ∀ e, same e e = true)
    (hsymm : ∀ a b, same a b = true → same b a = true)
    (htrans : ∀ a b c, same a b = true → same b c = true → same a c = true) (es : List ε) :
    (∃ m, addAll key same [] es = some m) ↔
      ∀ a ∈ es, ∀ b ∈ es, key a = key b → same a b = true := by
  rw [addAll_isSome_iff_first hrefl, List.nil_append]
  constructor
  · intro hfirst a ha b hb hkey
    rcases exists_lookup_of_mem key ha with ⟨old, hold⟩
    have haold := hfirst a ha old hold
    have hbold := hfirst b hb old (hkey ▸ hold)
    exact htrans a old b (hsymm old a haold) hbold
  · intro hpair e he old hold
    exact hpair old (mem_of_lookup hold) e he (key_of_lookup hold)

end KeyedMerge
