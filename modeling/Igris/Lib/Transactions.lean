import Mathlib.Data.List.Pairwise
import Mathlib.Data.List.Basic

/-!
# Tables under read committed transactions

A table holds committed rows and the rows that open transactions have written.  A
statement of a transaction sees the committed rows and its own.  A unique index is a
relation between rows that clash.  An insertion whose row clashes with a visible
row fails, and one whose row clashes with a row of another open transaction waits
until that transaction has ended.

Main results:

- Theorem {lit}`Distinct.insert`: an insertion that neither waits nor fails leaves no
  clashing rows.
- Theorem {lit}`Distinct.commit`, {lit}`Distinct.rollback`: nor does the end of a
  transaction.
-/

namespace Transactions

variable {ρ : Type}

/-- The answer to a commit.  One that reports an error may have been applied. -/
inductive Committed where
  | ok
  | failed (applied : Bool)
  deriving Repr, DecidableEq

/-- Rows with the transaction that wrote them. -/
structure Table (ρ : Type) where
  committed : List (Nat × ρ)
  pending : List (Nat × ρ)

namespace Table

def empty : Table ρ :=
  ⟨[], []⟩

/-- The rows that a transaction has written. -/
def own (t : Table ρ) (tx : Nat) : List (Nat × ρ) :=
  t.pending.filter fun entry => entry.1 = tx

/-- The rows that a statement of a transaction sees. -/
def visible (t : Table ρ) (tx : Nat) : List ρ :=
  (t.committed ++ t.own tx).map Prod.snd

def insert (t : Table ρ) (tx : Nat) (row : ρ) : Table ρ :=
  { t with pending := t.pending ++ [(tx, row)] }

def commit (t : Table ρ) (tx : Nat) : Table ρ :=
  ⟨t.committed ++ t.own tx, t.pending.filter fun entry => entry.1 ≠ tx⟩

def rollback (t : Table ρ) (tx : Nat) : Table ρ :=
  { t with pending := t.pending.filter fun entry => entry.1 ≠ tx }

/-- A row of another open transaction clashes. -/
def Waits (t : Table ρ) (clash : ρ → ρ → Prop) (tx : Nat) (row : ρ) : Prop :=
  ∃ entry ∈ t.pending, entry.1 ≠ tx ∧ clash entry.2 row

/-- A visible row clashes. -/
def Conflicts (t : Table ρ) (clash : ρ → ρ → Prop) (tx : Nat) (row : ρ) : Prop :=
  ∃ other ∈ t.visible tx, clash other row

instance (t : Table ρ) (clash : ρ → ρ → Prop) [DecidableRel clash] (tx : Nat) (row : ρ) :
    Decidable (t.Waits clash tx row) :=
  inferInstanceAs (Decidable (∃ entry ∈ t.pending, entry.1 ≠ tx ∧ clash entry.2 row))

instance (t : Table ρ) (clash : ρ → ρ → Prop) [DecidableRel clash] (tx : Nat) (row : ρ) :
    Decidable (t.Conflicts clash tx row) :=
  inferInstanceAs (Decidable (∃ other ∈ t.visible tx, clash other row))

/-! ## Rows -/

section Rows

variable {t : Table ρ} {tx : Nat} {row : ρ} {entry : Nat × ρ} {change : ρ → ρ}

theorem mem_own : entry ∈ t.own tx ↔ entry ∈ t.pending ∧ entry.1 = tx := by
  simp [own]

theorem mem_visible :
    row ∈ t.visible tx ↔ (∃ owner, (owner, row) ∈ t.committed) ∨ (tx, row) ∈ t.pending := by
  simp only [visible, List.mem_map, List.mem_append, mem_own, Prod.exists]
  constructor
  · rintro ⟨owner, _, hmem | ⟨hmem, rfl⟩, rfl⟩
    · exact .inl ⟨owner, hmem⟩
    · exact .inr hmem
  · rintro (⟨owner, hmem⟩ | hmem)
    · exact ⟨owner, row, .inl hmem, rfl⟩
    · exact ⟨tx, row, .inr ⟨hmem, rfl⟩, rfl⟩

@[simp]
theorem mem_committed_commit :
    entry ∈ (t.commit tx).committed ↔
      entry ∈ t.committed ∨ (entry ∈ t.pending ∧ entry.1 = tx) := by
  simp [commit, mem_own]

@[simp]
theorem mem_pending_commit :
    entry ∈ (t.commit tx).pending ↔ entry ∈ t.pending ∧ entry.1 ≠ tx := by
  simp [commit]

@[simp]
theorem mem_pending_rollback :
    entry ∈ (t.rollback tx).pending ↔ entry ∈ t.pending ∧ entry.1 ≠ tx := by
  simp [rollback]

@[simp]
theorem mem_pending_insert :
    entry ∈ (t.insert tx row).pending ↔ entry ∈ t.pending ∨ entry = (tx, row) := by
  simp [insert]

@[simp]
theorem committed_rollback : (t.rollback tx).committed = t.committed :=
  rfl

@[simp]
theorem committed_insert : (t.insert tx row).committed = t.committed :=
  rfl

theorem own_insert_self : (t.insert tx row).own tx = t.own tx ++ [(tx, row)] := by
  simp [own, insert]

theorem own_insert_of_ne {other : Nat} (h : other ≠ tx) :
    (t.insert tx row).own other = t.own other := by
  simp [own, insert, Ne.symm h]

@[simp]
theorem own_rollback_self : (t.rollback tx).own tx = [] := by
  simp [own, rollback]

theorem own_rollback_of_ne {other : Nat} (h : other ≠ tx) :
    (t.rollback tx).own other = t.own other := by
  rw [own, own, rollback, List.filter_filter]
  refine List.filter_congr fun entry _ => ?_
  by_cases howner : entry.1 = other <;> simp [howner, h]

@[simp]
theorem own_commit_self : (t.commit tx).own tx = [] :=
  own_rollback_self (t := t)

theorem own_commit_of_ne {other : Nat} (h : other ≠ tx) :
    (t.commit tx).own other = t.own other :=
  own_rollback_of_ne (t := t) h

end Rows

/-! ## Frames -/

/-- A step of one transaction: committed rows stay, and the rows of the others are as before. -/
structure Frame (tx : Nat) (t t' : Table ρ) : Prop where
  committed : ∀ entry ∈ t.committed, entry ∈ t'.committed
  fresh : ∀ entry ∈ t'.committed, entry ∈ t.committed ∨ entry.1 = tx
  own : ∀ other, other ≠ tx → t'.own other = t.own other

/-- A transaction has written nothing. -/
def Untouched (t : Table ρ) (tx : Nat) : Prop :=
  t.own tx = [] ∧ ∀ entry ∈ t.committed, entry.1 ≠ tx

section Frame

variable {t t' : Table ρ} {tx other : Nat}

theorem Frame.refl (tx : Nat) (t : Table ρ) : Frame tx t t :=
  ⟨fun _ h => h, fun _ h => .inl h, fun _ _ => rfl⟩

theorem frame_insert (row : ρ) : Frame tx t (t.insert tx row) :=
  ⟨fun _ h => h, fun _ h => .inl h, fun _ h => own_insert_of_ne h⟩

theorem frame_rollback : Frame tx t (t.rollback tx) :=
  ⟨fun _ h => h, fun _ h => .inl h, fun _ h => own_rollback_of_ne h⟩

theorem frame_commit : Frame tx t (t.commit tx) where
  committed _ h := mem_committed_commit.mpr (.inl h)
  fresh _ h := (mem_committed_commit.mp h).imp_right And.right
  own _ h := own_commit_of_ne h

theorem Untouched.frame (h : t.Untouched other) (hne : other ≠ tx) (hframe : Frame tx t t') :
    t'.Untouched other := by
  refine ⟨(hframe.own other hne).trans h.1, fun entry hmem => ?_⟩
  rcases hframe.fresh entry hmem with hold | howner
  · exact h.2 entry hold
  · exact fun heq => hne (heq.symm.trans howner)

theorem Untouched.rollback (h : t.Untouched tx) : (t.rollback tx).Untouched tx :=
  ⟨own_rollback_self, h.2⟩

theorem Untouched.commit (h : t.Untouched tx) : (t.commit tx).Untouched tx := by
  refine ⟨own_commit_self, fun entry hmem => ?_⟩
  rw [Table.commit, h.1, List.append_nil] at hmem
  exact h.2 entry hmem

end Frame

/-! ## Unique rows -/

/-- No two rows clash, committed or not. -/
def Distinct (t : Table ρ) (clash : ρ → ρ → Prop) : Prop :=
  (t.committed ++ t.pending).Pairwise fun a b => ¬ clash a.2 b.2

section Distinct

variable {t : Table ρ} {clash : ρ → ρ → Prop} {tx : Nat} {row : ρ}

theorem distinct_empty : (empty : Table ρ).Distinct clash :=
  .nil

theorem Distinct.insert (h : t.Distinct clash) (hwaits : ¬ t.Waits clash tx row)
    (hconflicts : ¬ t.Conflicts clash tx row) : (t.insert tx row).Distinct clash := by
  have hnone : ∀ entry ∈ t.committed ++ t.pending, ¬ clash entry.2 row := by
    rintro ⟨owner, other⟩ hmem hclash
    rcases List.mem_append.mp hmem with hmem | hmem
    · exact hconflicts ⟨other, mem_visible.mpr (.inl ⟨owner, hmem⟩), hclash⟩
    · by_cases howner : owner = tx
      · subst howner
        exact hconflicts ⟨other, mem_visible.mpr (.inr hmem), hclash⟩
      · exact hwaits ⟨(owner, other), hmem, howner, hclash⟩
  rw [Distinct, Table.insert, ← List.append_assoc]
  refine List.pairwise_append.mpr ⟨h, List.pairwise_singleton _ _, ?_⟩
  intro entry hmem last hlast
  rw [List.mem_singleton.mp hlast]
  exact hnone entry hmem

theorem Distinct.commit (hsymm : ∀ a b, clash a b → clash b a) (h : t.Distinct clash) (tx : Nat) :
    (t.commit tx).Distinct clash := by
  have hperm : ((t.commit tx).committed ++ (t.commit tx).pending).Perm
      (t.committed ++ t.pending) := by
    rw [Table.commit, List.append_assoc]
    refine List.Perm.append_left _ ?_
    have hfilter := List.filter_append_perm (fun entry : Nat × ρ => decide (entry.1 = tx)) t.pending
    simpa [own] using hfilter
  exact (hperm.pairwise_iff fun hab hba => hab (hsymm _ _ hba)).mpr h

theorem Distinct.rollback (h : t.Distinct clash) (tx : Nat) : (t.rollback tx).Distinct clash :=
  List.Pairwise.sublist (List.Sublist.append_left List.filter_sublist _) h

/-- Rows that clash are one row. -/
theorem Distinct.eq_of_clash (hsymm : ∀ a b, clash a b → clash b a) (h : t.Distinct clash)
    {a b : Nat × ρ} (ha : a ∈ t.committed ++ t.pending) (hb : b ∈ t.committed ++ t.pending)
    (hclash : clash a.2 b.2) : a = b := by
  by_contra hne
  have : Std.Symm fun a b : Nat × ρ => ¬ clash a.2 b.2 :=
    ⟨fun a b hab hba => hab (hsymm _ _ hba)⟩
  exact List.Pairwise.forall h ha hb hne hclash

end Distinct

end Table
end Transactions
