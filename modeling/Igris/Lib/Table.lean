import Mathlib.Data.List.Nodup
import Mathlib.Tactic

/-!
# Keyed tables with conditional updates

A relational table is a list of rows whose keys are pairwise distinct.  The
primary-key constraint is a field of the structure, so a table that violates it
cannot be built.  The two writes are the ones a store issues: inserting a row
whose key is free, and updating every row that satisfies a predicate.

Main results:

- Theorem {lit}`Table.get_updateWhere`: reading a key after a conditional update
  applies the update to the row exactly when the row meets the predicate.
- Theorem {lit}`Table.get_insert`: an insert changes the answer for one key only.
- Theorem {lit}`Table.get_put`: storing a row over an older one does so as well.
- Theorem {lit}`Table.mem_selected`: the keys an update reports are the keys of
  the rows that met its predicate.
-/

namespace Relational

variable {κ ρ : Type} {key : ρ → κ}

/-- Values stay pairwise distinct when a row with a new value is appended. -/
theorem nodup_map_append_singleton {ν : Type} {f : ρ → ν} {rows : List ρ} {r : ρ}
    (h : (rows.map f).Nodup) (hfresh : f r ∉ rows.map f) : ((rows ++ [r]).map f).Nodup := by
  rw [List.map_append, List.map_singleton]
  refine List.nodup_append.mpr ⟨h, by simp, ?_⟩
  intro v hv v' hv'
  rw [List.mem_singleton] at hv'
  subst hv'
  exact fun heq => hfresh (heq ▸ hv)

/-- A table of rows with a primary key. -/
structure Table (κ ρ : Type) (key : ρ → κ) where
  rows : List ρ
  nodup : (rows.map key).Nodup

namespace Table

/-- The table without rows. -/
def empty : Table κ ρ key where
  rows := []
  nodup := List.nodup_nil

/-- Update every row that satisfies {lit}`p`; the update must keep the key. -/
def updateWhere (t : Table κ ρ key) (p : ρ → Bool) (f : ρ → ρ)
    (hf : ∀ r, key (f r) = key r) : Table κ ρ key where
  rows := t.rows.map fun r => if p r then f r else r
  nodup := by
    have hkeys : (t.rows.map fun r => if p r then f r else r).map key = t.rows.map key := by
      rw [List.map_map]
      apply List.map_congr_left
      intro r _
      by_cases hp : p r <;> simp [hp, hf]
    rw [hkeys]
    exact t.nodup

/-- Keys of the rows that satisfy {lit}`p`, in table order. -/
def selected (t : Table κ ρ key) (p : ρ → Bool) : List κ :=
  (t.rows.filter p).map key

/-- A conditional update reports each key at most once. -/
theorem nodup_selected (t : Table κ ρ key) (p : ρ → Bool) : (t.selected p).Nodup :=
  (t.nodup.sublist (List.filter_sublist.map key))

section Lookup

variable [DecidableEq κ]

/-- The row stored under a key. -/
def get (t : Table κ ρ key) (k : κ) : Option ρ :=
  t.rows.find? fun r => decide (key r = k)

@[simp]
theorem get_empty (k : κ) : (empty : Table κ ρ key).get k = none :=
  rfl

/-- Insert a row whose key is free. -/
def insert (t : Table κ ρ key) (r : ρ) (h : t.get (key r) = none) : Table κ ρ key where
  rows := t.rows ++ [r]
  nodup := by
    apply nodup_map_append_singleton t.nodup
    intro hmem
    rcases List.mem_map.mp hmem with ⟨r', hr', hkey⟩
    have hnone := List.find?_eq_none.mp h r' hr'
    exact hnone (by simpa using hkey)

variable {t : Table κ ρ key} {r : ρ}

theorem key_of_get {k : κ} (h : t.get k = some r) : key r = k := by
  simpa using List.find?_some h

theorem mem_of_get {k : κ} (h : t.get k = some r) : r ∈ t.rows :=
  List.mem_of_find?_eq_some h

/-- A stored row is the answer for its own key: keys are pairwise distinct. -/
theorem get_of_mem (h : r ∈ t.rows) : t.get (key r) = some r := by
  cases hget : t.get (key r) with
  | none =>
      have hnone := List.find?_eq_none.mp hget r h
      simp at hnone
  | some r' =>
      have hkey := key_of_get hget
      have hmem := mem_of_get hget
      rw [List.inj_on_of_nodup_map t.nodup hmem h hkey]

theorem get_eq_some_iff {k : κ} : t.get k = some r ↔ r ∈ t.rows ∧ key r = k := by
  constructor
  · intro h
    exact ⟨mem_of_get h, key_of_get h⟩
  · rintro ⟨hmem, rfl⟩
    exact get_of_mem hmem

theorem get_updateWhere (t : Table κ ρ key) (p : ρ → Bool) (f : ρ → ρ)
    (hf : ∀ r, key (f r) = key r) (k : κ) :
    (t.updateWhere p f hf).get k = (t.get k).map fun r => if p r then f r else r := by
  have hpred : ((fun r => decide (key r = k)) ∘ fun r => if p r then f r else r) =
      fun r => decide (key r = k) := by
    funext r
    by_cases hp : p r <;> simp [hp, hf]
  simp only [get, updateWhere, List.find?_map, hpred]

theorem get_insert (t : Table κ ρ key) (r : ρ) (h : t.get (key r) = none) (k : κ) :
    (t.insert r h).get k = if k = key r then some r else t.get k := by
  by_cases hk : k = key r
  · subst hk
    rw [if_pos rfl]
    exact get_of_mem (t := t.insert r h) (by simp [insert])
  · rw [if_neg hk]
    have hne : ¬key r = k := fun heq => hk heq.symm
    simp [get, insert, List.find?_append, hne]

/-- Store a row under its key, over the one that may already be there. -/
def put (t : Table κ ρ key) (r : ρ) : Table κ ρ key :=
  if h : t.get (key r) = none then t.insert r h
  else t.updateWhere (fun row => decide (key row = key r)) (fun row => if key row = key r then r else row)
    (by
      intro row
      by_cases hkey : key row = key r <;> simp [hkey])

theorem get_put (t : Table κ ρ key) (r : ρ) (k : κ) :
    (t.put r).get k = if k = key r then some r else t.get k := by
  unfold put
  split <;> rename_i hget
  · exact get_insert t r hget k
  · rw [get_updateWhere]
    by_cases hk : k = key r
    · obtain ⟨old, hold⟩ := Option.ne_none_iff_exists'.mp hget
      simp [hk, hold, key_of_get hold]
    · rw [if_neg hk]
      cases hold : t.get k with
      | none => rfl
      | some old =>
          have hne : ¬key old = key r := fun heq => hk ((key_of_get hold).symm.trans heq)
          simp [hne]

theorem mem_rows_iff : r ∈ t.rows ↔ t.get (key r) = some r := by
  rw [get_eq_some_iff]
  simp

/-- After a row is stored, the table holds it and the rows of the other keys. -/
theorem mem_put {r row : ρ} :
    row ∈ (t.put r).rows ↔ row = r ∨ (row ∈ t.rows ∧ key row ≠ key r) := by
  rw [mem_rows_iff, get_put]
  by_cases hkey : key row = key r
  · simp [hkey, eq_comm]
  · have hne : row ≠ r := fun heq => hkey (heq ▸ rfl)
    simp [hkey, hne, mem_rows_iff]

/-- After some rows are stored, each key has the last one that was stored under it. -/
theorem get_foldl_put (t : Table κ ρ key) (rows : List ρ) (k : κ) :
    (rows.foldl put t).get k = (rows.reverse.find? fun r => decide (key r = k)).or (t.get k) := by
  induction rows using List.reverseRecOn with
  | nil => rfl
  | append_singleton rows r ih =>
      rw [List.foldl_append, List.foldl_cons, List.foldl_nil, get_put, ih, List.reverse_append,
        List.reverse_singleton, List.singleton_append, List.find?_cons]
      by_cases hkey : key r = k
      · simp [hkey]
      · simp [hkey, Ne.symm hkey]

theorem mem_selected {p : ρ → Bool} {k : κ} :
    k ∈ t.selected p ↔ ∃ r, t.get k = some r ∧ p r = true := by
  simp only [selected, List.mem_map, List.mem_filter, get_eq_some_iff]
  constructor
  · rintro ⟨r, ⟨hmem, hp⟩, hkey⟩
    exact ⟨r, ⟨hmem, hkey⟩, hp⟩
  · rintro ⟨r, ⟨hmem, hkey⟩, hp⟩
    exact ⟨r, ⟨hmem, hp⟩, hkey⟩

end Lookup

end Table

end Relational
