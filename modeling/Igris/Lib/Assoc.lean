import Mathlib.Data.String.Basic
import Mathlib.Tactic

/-!
# Ordered association lists

Finite maps as lists of entries in the order of their keys, as a B-tree map lists
them.

Main results:

- Theorem {lit}`get_insert`: what is found after an insertion.
- Theorem {lit}`Sorted.ext`: ordered lists with the same entries are equal.
- Theorem {lit}`insertAll_eq_iff`: the same insertions make two lists equal exactly if
  they agree on all other keys.
- Theorem {lit}`get_ofFields`: what is found in a map is the entry that it was built from.
- Theorem {lit}`ofFields_congr`: the order in which entries are listed does not matter.
-/

namespace Assoc

variable {κ α : Type} [LinearOrder κ]

/-- Insert an entry, replacing the one with the same key. -/
def insert (key : κ) (value : α) : List (κ × α) → List (κ × α)
  | [] => [(key, value)]
  | entry :: entries =>
      if key = entry.1 then (key, value) :: entries
      else if key < entry.1 then (key, value) :: entry :: entries
      else entry :: insert key value entries

/-- The value of a key. -/
def get : List (κ × α) → κ → Option α
  | [], _ => none
  | entry :: entries, key => if key = entry.1 then some entry.2 else get entries key

/-- Insert entries one after the other. -/
def insertAll (new entries : List (κ × α)) : List (κ × α) :=
  new.foldl (fun acc entry => insert entry.1 entry.2 acc) entries

/-- The entries are in the order of their keys. -/
def Sorted (entries : List (κ × α)) : Prop :=
  entries.Pairwise fun a b => a.1 < b.1

/-! ## Finding -/

theorem get_insert (entries : List (κ × α)) (key : κ) (value : α) (k : κ) :
    get (insert key value entries) k = if k = key then some value else get entries k := by
  induction entries with
  | nil => simp [insert, get]
  | cons entry entries ih =>
      by_cases hkey : key = entry.1
      · by_cases hk : k = key
        · simp [insert, get, hkey, hk]
        · simp [insert, get, ← hkey, hk]
      · by_cases hlt : key < entry.1
        · simp [insert, get, hkey, hlt]
        · by_cases hk : k = entry.1
          · have hne : entry.1 ≠ key := Ne.symm hkey
            simp [insert, get, hkey, hlt, hk, hne]
          · simp [insert, get, hkey, hlt, hk, ih]

variable {value : α} {key : κ} {entries new : List (κ × α)}

theorem mem_of_get (h : get entries key = some value) : (key, value) ∈ entries := by
  induction entries with
  | nil => simp [get] at h
  | cons entry entries ih =>
      simp only [get] at h
      split at h
      · rename_i hkey
        obtain rfl : entry.2 = value := by simpa using h
        simp [hkey]
      · exact List.mem_cons_of_mem _ (ih h)

theorem get_eq_none_of_lt (h : ∀ entry ∈ entries, key < entry.1) : get entries key = none := by
  cases hget : get entries key with
  | none => rfl
  | some value => exact absurd (h _ (mem_of_get hget)) (lt_irrefl key)

/-! ## Order -/

/-- Every entry of an ordered list is found. -/
theorem Sorted.get_of_mem (h : Sorted entries) (hmem : (key, value) ∈ entries) :
    get entries key = some value := by
  induction entries with
  | nil => simp at hmem
  | cons entry entries ih =>
      obtain ⟨hfirst, hrest⟩ := List.pairwise_cons.mp h
      rcases List.mem_cons.mp hmem with rfl | hmem
      · simp [get]
      · have hne : key ≠ entry.1 := (hfirst (key, value) hmem).ne'
        simp [get, hne, ih hrest hmem]

theorem sorted_iff_keys : Sorted entries ↔ (entries.map Prod.fst).Pairwise (· < ·) :=
  List.pairwise_map.symm

theorem Sorted.nodup_keys (h : Sorted entries) : (entries.map Prod.fst).Nodup :=
  (sorted_iff_keys.mp h).imp fun hlt => ne_of_lt hlt

/-- Among different keys, what is found is what is there. -/
theorem get_eq_some_iff_of_nodup (h : (entries.map Prod.fst).Nodup) :
    get entries key = some value ↔ (key, value) ∈ entries := by
  induction entries with
  | nil => simp [get]
  | cons entry entries ih =>
      rw [List.map_cons, List.nodup_cons] at h
      rw [get, List.mem_cons]
      by_cases hkey : key = entry.1
      · have hnone : (key, value) ∉ entries := fun hmem =>
          h.1 (hkey ▸ List.mem_map_of_mem hmem)
        simp [hkey, hkey ▸ hnone, Prod.ext_iff, eq_comm]
      · simp [hkey, ih h.2, Prod.ext_iff]

variable {β : Type} {entry : κ × α} {R : α → β → Prop}

theorem mem_insert (h : entry ∈ insert key value entries) :
    entry = (key, value) ∨ entry ∈ entries := by
  induction entries with
  | nil => simpa [insert] using h
  | cons first entries ih =>
      simp only [insert] at h
      split_ifs at h with hkey hlt
      · obtain rfl | hmem := List.mem_cons.mp h
        · exact .inl rfl
        · exact .inr (List.mem_cons_of_mem _ hmem)
      · obtain rfl | hmem := List.mem_cons.mp h
        · exact .inl rfl
        · exact .inr hmem
      · obtain rfl | hmem := List.mem_cons.mp h
        · exact .inr List.mem_cons_self
        · exact (ih hmem).imp_right (List.mem_cons_of_mem _)

theorem Sorted.insert (h : Sorted entries) (key : κ) (value : α) :
    Sorted (insert key value entries) := by
  induction entries with
  | nil => simp [Assoc.insert, Sorted]
  | cons entry entries ih =>
      obtain ⟨hfirst, hrest⟩ := List.pairwise_cons.mp h
      simp only [Assoc.insert]
      split_ifs with hkey hlt
      · exact List.pairwise_cons.mpr ⟨by simpa [hkey] using hfirst, hrest⟩
      · refine List.pairwise_cons.mpr ⟨?_, h⟩
        intro other hother
        obtain rfl | hmem := List.mem_cons.mp hother
        · exact hlt
        · exact hlt.trans (hfirst other hmem)
      · refine List.pairwise_cons.mpr ⟨?_, ih hrest⟩
        intro other hother
        obtain rfl | hmem := mem_insert hother
        · exact lt_of_le_of_ne (not_lt.mp hlt) (Ne.symm hkey)
        · exact hfirst other hmem

theorem Sorted.insertAll (h : Sorted entries) (new : List (κ × α)) :
    Sorted (insertAll new entries) := by
  induction new generalizing entries with
  | nil => exact h
  | cons entry new ih => exact ih (h.insert entry.1 entry.2)

theorem insert_eq_append (value : α) (h : ∀ entry ∈ entries, entry.1 < key) :
    insert key value entries = entries ++ [(key, value)] := by
  induction entries with
  | nil => rfl
  | cons entry entries ih =>
      have hlt : entry.1 < key := h entry (by simp)
      have hrest := ih fun other hother => h other (by simp [hother])
      simp [insert, hlt.ne', hlt.asymm, hrest]

/-- Insertions in the order of the keys go to the end. -/
theorem insertAll_eq_append (h : Sorted (entries ++ new)) :
    insertAll new entries = entries ++ new := by
  induction new generalizing entries with
  | nil => simp [insertAll]
  | cons entry new ih =>
      have hbefore : ∀ other ∈ entries, other.1 < entry.1 := fun other hother =>
        (List.pairwise_append.mp h).2.2 other hother entry (by simp)
      have hstep : insertAll (entry :: new) entries =
          insertAll new (entries ++ [(entry.1, entry.2)]) := by
        rw [← insert_eq_append entry.2 hbefore]
        rfl
      rw [hstep, ih (by simpa using h)]
      simp

/-- Ordered lists whose entries are related key by key are related entry by entry. -/
theorem Sorted.forall₂ {a : List (κ × α)} {b : List (κ × β)} (ha : Sorted a) (hb : Sorted b)
    (h : ∀ key, Option.Rel R (get a key) (get b key)) :
    List.Forall₂ (fun x y => x.1 = y.1 ∧ R x.2 y.2) a b := by
  induction a generalizing b with
  | nil =>
      cases b with
      | nil => exact .nil
      | cons entry b => simpa [get] using h entry.1
  | cons entry a ih =>
      obtain ⟨hfirst, hrest⟩ := List.pairwise_cons.mp ha
      cases b with
      | nil => simpa [get] using h entry.1
      | cons entry' b =>
          obtain ⟨hfirst', hrest'⟩ := List.pairwise_cons.mp hb
          -- the smaller of the two first keys would be missing on the other side
          have hkey : entry.1 = entry'.1 := by
            rcases lt_trichotomy entry.1 entry'.1 with hlt | heq | hgt
            · have hrel := h entry.1
              rw [get_eq_none_of_lt (List.forall_mem_cons.mpr
                ⟨hlt, fun other hother => hlt.trans (hfirst' other hother)⟩)] at hrel
              simp [get] at hrel
            · exact heq
            · have hrel := h entry'.1
              rw [get_eq_none_of_lt (List.forall_mem_cons.mpr
                ⟨hgt, fun other hother => hgt.trans (hfirst other hother)⟩)] at hrel
              simp [get] at hrel
          refine .cons ⟨hkey, by simpa [get, hkey] using h entry.1⟩ (ih hrest hrest' ?_)
          intro key
          by_cases hk : key = entry.1
          · rw [hk, get_eq_none_of_lt hfirst, hkey, get_eq_none_of_lt hfirst']
            exact .none
          · simpa [get, hk, hkey ▸ hk] using h key

/-- Lists related through a third one. -/
theorem forall₂_comp {γ : Type} {S : β → γ → Prop} {a : List α} {b : List β} {c : List γ}
    (h : List.Forall₂ R a b) (h' : List.Forall₂ S b c) :
    List.Forall₂ (fun x z => ∃ y, R x y ∧ S y z) a c := by
  induction h generalizing c with
  | nil =>
      cases h'
      exact .nil
  | cons hfirst _ ih =>
      cases h' with
      | cons hfirst' hrest' => exact .cons ⟨_, hfirst, hfirst'⟩ (ih hrest')

theorem exists_of_mem_forall₂ {a : List α} {b : List β} (h : List.Forall₂ R a b) {x : α}
    (hx : x ∈ a) : ∃ y ∈ b, R x y := by
  induction h with
  | nil => cases hx
  | cons hfirst _ ih =>
      obtain rfl | hx := List.mem_cons.mp hx
      · exact ⟨_, .head _, hfirst⟩
      · obtain ⟨y, hy, hrelated⟩ := ih hx
        exact ⟨y, .tail _ hy, hrelated⟩

theorem keys_of_forall₂ {κ : Type} {R : κ × α → κ × β → Prop} {a : List (κ × α)}
    {b : List (κ × β)} (hkey : ∀ x y, R x y → x.1 = y.1) (h : List.Forall₂ R a b) :
    b.map Prod.fst = a.map Prod.fst := by
  induction h with
  | nil => rfl
  | cons hfirst _ ih => simp [hkey _ _ hfirst, ih]

/-- Entries that are related one by one are related key by key. -/
theorem rel_get_of_forall₂ {a : List (κ × α)} {b : List (κ × β)}
    (h : List.Forall₂ (fun x y => x.1 = y.1 ∧ R x.2 y.2) a b) (key : κ) :
    Option.Rel R (get a key) (get b key) := by
  induction h with
  | nil => exact .none
  | cons hentry _ ih =>
      rw [get, get, ← hentry.1]
      split
      · exact .some hentry.2
      · exact ih

/-- Ordered lists are determined by what is found in them. -/
theorem Sorted.ext {a b : List (κ × α)} (ha : Sorted a) (hb : Sorted b)
    (h : ∀ key, get a key = get b key) : a = b := by
  have hrel : ∀ key, Option.Rel (· = ·) (get a key) (get b key) := by
    intro key
    rw [h key]
    cases get b key with
    | none => exact .none
    | some value => exact .some rfl
  have hforall := ha.forall₂ hb hrel
  rw [← List.forall₂_eq_eq_eq]
  exact hforall.imp fun _ _ hentry => Prod.ext hentry.1 hentry.2

/-! ## Several insertions -/

theorem get_insertAll_of_notMem (h : key ∉ new.map Prod.fst) :
    get (insertAll new entries) key = get entries key := by
  induction new generalizing entries with
  | nil => rfl
  | cons entry new ih =>
      simp only [List.map_cons, List.mem_cons, not_or] at h
      have hstep : get (insertAll new (insert entry.1 entry.2 entries)) key = _ := ih h.2
      rw [get_insert, if_neg h.1] at hstep
      exact hstep

theorem get_insertAll_of_mem {new a b : List (κ × α)} (h : key ∈ new.map Prod.fst) :
    get (insertAll new a) key = get (insertAll new b) key := by
  induction new generalizing a b with
  | nil => simp at h
  | cons entry new ih =>
      by_cases hnew : key ∈ new.map Prod.fst
      · exact ih hnew
      · obtain rfl : key = entry.1 := by simpa [hnew] using h
        have hstep (c : List (κ × α)) :
            get (insertAll new (insert entry.1 entry.2 c)) entry.1 = some entry.2 := by
          rw [get_insertAll_of_notMem hnew, get_insert, if_pos rfl]
        exact (hstep a).trans (hstep b).symm

/-- Insertions under different keys are all found. -/
theorem get_insertAll_of_nodup (hkeys : (new.map Prod.fst).Nodup) (hmem : (key, value) ∈ new) :
    get (insertAll new entries) key = some value := by
  induction new generalizing entries with
  | nil => simp at hmem
  | cons entry new ih =>
      rw [List.map_cons, List.nodup_cons] at hkeys
      obtain rfl | hmem := List.mem_cons.mp hmem
      · have hstep : get (insertAll new (insert key value entries)) key = _ :=
          get_insertAll_of_notMem hkeys.1
        rw [get_insert, if_pos rfl] at hstep
        exact hstep
      · exact ih hkeys.2 hmem

/-- The same insertions make two lists equal exactly if the lists agree elsewhere. -/
theorem insertAll_eq_iff {new a b : List (κ × α)} (ha : Sorted a) (hb : Sorted b) :
    insertAll new a = insertAll new b ↔ ∀ key ∉ new.map Prod.fst, get a key = get b key := by
  constructor
  · intro h key hkey
    rw [← get_insertAll_of_notMem hkey, h, get_insertAll_of_notMem hkey]
  · intro h
    apply (ha.insertAll new).ext (hb.insertAll new)
    intro key
    by_cases hkey : key ∈ new.map Prod.fst
    · exact get_insertAll_of_mem hkey
    · rw [get_insertAll_of_notMem hkey, get_insertAll_of_notMem hkey, h key hkey]

/-! ## Leaving out keys -/

/-- The entries whose key is kept. -/
def keep (kept : κ → Bool) (entries : List (κ × α)) : List (κ × α) :=
  entries.filter fun entry => kept entry.1

omit [LinearOrder κ] in
theorem keep_sublist (kept : κ → Bool) (entries : List (κ × α)) :
    (keep kept entries).Sublist entries :=
  List.filter_sublist

theorem Sorted.keep (h : Sorted entries) (kept : κ → Bool) : Sorted (keep kept entries) :=
  List.Pairwise.sublist (keep_sublist kept entries) h

theorem get_keep (kept : κ → Bool) (entries : List (κ × α)) (key : κ) :
    get (keep kept entries) key = if kept key then get entries key else none := by
  induction entries with
  | nil => simp [keep, get]
  | cons entry entries ih =>
      by_cases hkept : kept entry.1
      · by_cases hkey : key = entry.1
        · simp [keep, get, hkept, hkey]
        · simpa [keep, get, hkept, hkey] using ih
      · by_cases hkey : key = entry.1
        · rw [hkey] at ih ⊢
          simpa [keep, get, hkept] using ih
        · simpa [keep, get, hkept, hkey] using ih

theorem keep_insert (h : Sorted entries) (kept : κ → Bool) (key : κ) (value : α) :
    keep kept (insert key value entries) =
      if kept key then insert key value (keep kept entries) else keep kept entries := by
  split_ifs with hkept
  · apply ((h.insert key value).keep kept).ext ((h.keep kept).insert key value)
    intro k
    simp only [get_keep, get_insert]
    split_ifs with hk hkey <;> simp_all
  · apply ((h.insert key value).keep kept).ext (h.keep kept)
    intro k
    simp only [get_keep, get_insert]
    split_ifs with hk hkey <;> simp_all

theorem keep_insertAll (h : Sorted entries) (kept : κ → Bool) (new : List (κ × α)) :
    keep kept (insertAll new entries) = insertAll (keep kept new) (keep kept entries) := by
  induction new generalizing entries with
  | nil => rfl
  | cons entry new ih =>
      have hstep : keep kept (insertAll (entry :: new) entries) = _ :=
        ih (h.insert entry.1 entry.2)
      rw [hstep, keep_insert h]
      by_cases hkept : kept entry.1
      · rw [if_pos hkept]
        simp [keep, hkept, insertAll]
      · rw [if_neg hkept]
        simp [keep, hkept, insertAll]

/-! ## Maps with optional entries -/

/-- The entries that are present. -/
def present (fields : List (κ × Option α)) : List (κ × α) :=
  fields.filterMap fun field => field.2.map fun value => (field.1, value)

/-- The map with the entries that are present. -/
def ofFields (fields : List (κ × Option α)) : List (κ × α) :=
  insertAll (present fields) []

omit [LinearOrder κ] in
theorem mem_present {fields : List (κ × Option α)} :
    (key, value) ∈ present fields ↔ (key, some value) ∈ fields := by
  simp only [present, List.mem_filterMap, Option.map_eq_some_iff, Prod.mk.injEq]
  constructor
  · rintro ⟨⟨name, member⟩, hmem, found, rfl, rfl, rfl⟩
    exact hmem
  · intro hmem
    exact ⟨(key, some value), hmem, value, rfl, rfl, rfl⟩

omit [LinearOrder κ] in
theorem keys_present_sublist (fields : List (κ × Option α)) :
    ((present fields).map Prod.fst).Sublist (fields.map Prod.fst) := by
  induction fields with
  | nil => exact List.Sublist.refl []
  | cons field fields ih =>
      obtain ⟨key, member⟩ := field
      cases member with
      | none => exact ih.cons key
      | some value => exact ih.cons_cons key

theorem sorted_ofFields (fields : List (κ × Option α)) : Sorted (ofFields fields) :=
  Sorted.insertAll List.Pairwise.nil _

theorem ofFields_append (a b : List (κ × Option α)) :
    ofFields (a ++ b) = insertAll (present b) (ofFields a) := by
  simp [ofFields, insertAll, present]

theorem mem_insertAll (h : entry ∈ insertAll new entries) :
    entry ∈ new ∨ entry ∈ entries := by
  induction new generalizing entries with
  | nil => exact .inr h
  | cons first new ih =>
      have hfold : entry ∈ insertAll new (insert first.1 first.2 entries) := h
      obtain hnew | hrest := ih hfold
      · exact .inl (List.mem_cons_of_mem _ hnew)
      · obtain hfirst | hold := mem_insert hrest
        · exact .inl (by simp [hfirst])
        · exact .inr hold

theorem mem_ofFields {fields : List (κ × Option α)} (h : entry ∈ ofFields fields) :
    (entry.1, some entry.2) ∈ fields := by
  obtain hpresent | hnil := mem_insertAll h
  · exact mem_present.mp hpresent
  · simp at hnil

theorem keep_ofFields (kept : κ → Bool) (fields : List (κ × Option α)) :
    keep kept (ofFields fields) = ofFields (keep kept fields) := by
  have hpresent : keep kept (present fields) = present (keep kept fields) := by
    induction fields with
    | nil => rfl
    | cons field fields ih =>
        obtain ⟨key, member⟩ := field
        cases member <;> by_cases hkept : kept key <;> simpa [keep, present, hkept] using ih
  rw [ofFields, keep_insertAll List.Pairwise.nil, hpresent]
  rfl

section Find

variable {fields : List (κ × Option α)} {member : Option α}

theorem get_ofFields_of_mem (hkeys : (fields.map Prod.fst).Nodup)
    (hmem : (key, member) ∈ fields) : get (ofFields fields) key = member := by
  have hpresent := hkeys.sublist (keys_present_sublist fields)
  cases member with
  | some value => exact get_insertAll_of_nodup hpresent (mem_present.mpr hmem)
  | none =>
      have habsent : key ∉ (present fields).map Prod.fst := by
        intro hkey
        obtain ⟨entry, hentry, rfl⟩ := List.mem_map.mp hkey
        -- the key would stand for a present and for an absent entry
        have hother := mem_present.mp hentry
        have hsame := List.inj_on_of_nodup_map hkeys hmem hother rfl
        simp at hsame
      exact get_insertAll_of_notMem habsent

theorem get_ofFields_of_notMem (h : key ∉ fields.map Prod.fst) :
    get (ofFields fields) key = none :=
  get_insertAll_of_notMem fun hkey => h ((keys_present_sublist fields).subset hkey)

/-- What is found in the map is the entry that it was built from. -/
theorem get_ofFields (hkeys : (fields.map Prod.fst).Nodup) (key : κ) :
    get (ofFields fields) key = (fields.lookup key).join := by
  cases hlookup : fields.lookup key with
  | none =>
      apply get_ofFields_of_notMem
      intro hkey
      obtain ⟨entry, hentry, rfl⟩ := List.mem_map.mp hkey
      have hne := List.lookup_eq_none_iff.mp hlookup entry hentry
      simp at hne
  | some member =>
      apply get_ofFields_of_mem hkeys
      obtain ⟨before, after, rfl, -⟩ := List.lookup_eq_some_iff.mp hlookup
      simp

end Find

/-- The order in which the entries are listed does not matter. -/
theorem ofFields_congr {a b : List (κ × Option α)} (ha : (a.map Prod.fst).Nodup)
    (hb : (b.map Prod.fst).Nodup) (hab : a ⊆ b) (hba : b ⊆ a) : ofFields a = ofFields b := by
  apply (sorted_ofFields a).ext (sorted_ofFields b)
  intro key
  by_cases hkey : key ∈ a.map Prod.fst
  · obtain ⟨⟨name, member⟩, hfield, rfl⟩ := List.mem_map.mp hkey
    rw [get_ofFields_of_mem ha hfield, get_ofFields_of_mem hb (hab hfield)]
  · have hkey' : key ∉ b.map Prod.fst := by
      intro hmem
      obtain ⟨field, hfield, rfl⟩ := List.mem_map.mp hmem
      exact hkey (List.mem_map_of_mem (hba hfield))
    rw [get_ofFields_of_notMem hkey, get_ofFields_of_notMem hkey']

end Assoc
