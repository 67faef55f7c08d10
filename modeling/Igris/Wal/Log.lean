import Igris.Lib.Table
import Igris.Task.Definition
import Mathlib.Data.List.Sort

/-!
# The write-ahead log of a runtime

A runtime records every step in a local table: first the intent to execute it, then
that it was committed or failed.  The rolling digest over the committed entries is
what a checkpoint carries and what a resume is verified against.  SHA-256 is an
arbitrary function from bytes to digests.

Main results:

- Theorem {lit}`committedState_eq`: the loop over the log computes the last committed
  step and the digest of the committed outputs.
- Theorem {lit}`lastCommittedStep_eq_some_iff`: the last committed step is the largest one.
- Theorem {lit}`committedEntries_put`: an entry committed for a later step comes last.
-/

namespace Igris
namespace Wal

open Relational

/-- A SHA-256 digest. -/
abbrev Digest := { bytes : List UInt8 // bytes.length = 32 }

/-- Lifecycle status of an entry. -/
inductive WalStatus where
  | intent
  | executing
  | committed
  | failed (reason : String)
deriving DecidableEq, Repr

/-- An entry of the log.  The step type is kept as the JSON text it encodes to. -/
structure Entry where
  entryID : Uuid
  taskID : Uuid
  stepIndex : UInt32
  stepType : String
  status : WalStatus
  inputDigest : Digest
  outputDigest : Option Digest
  timestampMs : UInt64
  runtimeID : String
  signature : Option (List UInt8)
deriving DecidableEq, Repr

/-- Entries are stored under their task and their own identifier. -/
def Entry.key (entry : Entry) : Uuid × Uuid :=
  (entry.taskID, entry.entryID)

/-- The table of log entries of all tasks of a runtime. -/
abbrev Log := Table (Uuid × Uuid) Entry Entry.key

/-! ## Writes -/

/-- Record the intent to execute a step.  The identifier is new and the time is read
from the clock. -/
def writeIntent (log : Log) (taskID : Uuid) (runtimeID : String) (entryID : Uuid)
    (timestampMs : UInt64) (stepIndex : UInt32) (stepType : String) (inputDigest : Digest) :
    Entry × Log :=
  let entry : Entry := {
    entryID := entryID
    taskID := taskID
    stepIndex := stepIndex
    stepType := stepType
    status := .intent
    inputDigest := inputDigest
    outputDigest := none
    timestampMs := timestampMs
    runtimeID := runtimeID
    signature := none }
  (entry, log.put entry)

/-- The entry with a committed output. -/
def Entry.commit (entry : Entry) (outputDigest : Digest) (timestampMs : UInt64)
    (signature : List UInt8) : Entry :=
  { entry with
    status := .committed
    outputDigest := some outputDigest
    timestampMs := timestampMs
    signature := some signature }

/-- Commit an entry; {lit}`none` if there is no such entry. -/
def writeCommitted (log : Log) (taskID entryID : Uuid) (outputDigest : Digest)
    (timestampMs : UInt64) (signature : List UInt8) : Option (Entry × Log) :=
  (log.get (taskID, entryID)).map fun entry =>
    let committed := entry.commit outputDigest timestampMs signature
    (committed, log.put committed)

/-- Import entries from a checkpoint.  Those before the first entry of another task
stay in the log when the import fails. -/
def importEntries (taskID : Uuid) : Log → List Entry → Log × Except String Unit
  | log, [] => (log, .ok ())
  | log, entry :: entries =>
      if entry.taskID ≠ taskID then
        (log, .error ("checkpoint entry task_id " ++ entry.taskID.string ++ " does not match " ++
          taskID.string))
      else importEntries taskID (log.put entry) entries

/-! ## Reads -/

/-- Order by step, then by identifier. -/
def Entry.le (a b : Entry) : Prop :=
  a.stepIndex < b.stepIndex ∨ (a.stepIndex = b.stepIndex ∧ a.entryID ≤ b.entryID)

instance (a b : Entry) : Decidable (a.le b) :=
  inferInstanceAs (Decidable (_ ∨ _))

/-- Sort entries by step and identifier. -/
def sortEntries (entries : List Entry) : List Entry :=
  entries.insertionSort Entry.le

/-- The entries of a task from a step on. -/
def readFromStep (log : Log) (taskID : Uuid) (fromStep : UInt32) : List Entry :=
  sortEntries (log.rows.filter fun entry =>
    decide (entry.taskID = taskID) && decide (fromStep ≤ entry.stepIndex))

/-- The bytes an entry adds to the rolling digest. -/
def Entry.outputBytes (entry : Entry) : List UInt8 :=
  match entry.outputDigest with
  | some digest => digest.1
  | none => []

/-- One round of the loop over the log. -/
def observeEntry (acc : Option UInt32 × List UInt8) (entry : Entry) :
    Option UInt32 × List UInt8 :=
  match entry.status with
  | .committed => (some entry.stepIndex, acc.2 ++ entry.outputBytes)
  | _ => acc

/-- The last committed step of a task and the rolling digest. -/
def committedState (sha256 : List UInt8 → Digest) (log : Log) (taskID : Uuid) :
    Option UInt32 × Digest :=
  let (lastStep, hashed) := (readFromStep log taskID 0).foldl observeEntry (none, [])
  (lastStep, sha256 hashed)

/-! ## Specifications -/

def Entry.committed (entry : Entry) : Bool :=
  decide (entry.status = .committed)

/-- The committed entries of a task, in order. -/
def committedEntries (log : Log) (taskID : Uuid) : List Entry :=
  (readFromStep log taskID 0).filter Entry.committed

def lastCommittedStep (log : Log) (taskID : Uuid) : Option UInt32 :=
  (committedEntries log taskID).getLast?.map Entry.stepIndex

theorem foldl_observeEntry (entries : List Entry) (acc : Option UInt32 × List UInt8) :
    entries.foldl observeEntry acc =
      (((entries.filter Entry.committed).getLast?.map Entry.stepIndex).or acc.1,
        acc.2 ++ (entries.filter Entry.committed).flatMap Entry.outputBytes) := by
  induction entries generalizing acc with
  | nil => simp
  | cons entry entries ih =>
      rw [List.foldl_cons, ih]
      by_cases hcommitted : entry.status = .committed
      · have hobserve : observeEntry acc entry = (some entry.stepIndex, acc.2 ++ entry.outputBytes) := by
          simp [observeEntry, hcommitted]
        rw [hobserve]
        cases hlast : (entries.filter Entry.committed).getLast? <;>
          simp [Entry.committed, hcommitted, List.getLast?_cons, hlast, List.append_assoc]
      · have hobserve : observeEntry acc entry = acc := by
          unfold observeEntry
          split
          · contradiction
          · rfl
        simp [hobserve, Entry.committed, hcommitted]

theorem committedState_eq (sha256 : List UInt8 → Digest) (log : Log) (taskID : Uuid) :
    committedState sha256 log taskID =
      (lastCommittedStep log taskID,
        sha256 ((committedEntries log taskID).flatMap Entry.outputBytes)) := by
  unfold committedState
  rw [foldl_observeEntry]
  simp [lastCommittedStep, committedEntries]

variable {log : Log} {taskID : Uuid}

theorem mem_committedEntries {entry : Entry} :
    entry ∈ committedEntries log taskID ↔
      entry ∈ log.rows ∧ entry.taskID = taskID ∧ entry.status = .committed := by
  simp [committedEntries, readFromStep, sortEntries, Entry.committed, and_assoc]

theorem Entry.le_iff {a b : Entry} :
    a.le b ↔ a.stepIndex.toNat < b.stepIndex.toNat ∨
      (a.stepIndex.toNat = b.stepIndex.toNat ∧ a.entryID.toNat ≤ b.entryID.toNat) := by
  simp only [Entry.le, UInt32.lt_iff_toNat_lt, BitVec.le_def, UInt32.toNat_inj]

instance : Std.Total Entry.le where
  total a b := by
    simp only [Entry.le_iff]
    omega

instance : IsTrans Entry Entry.le where
  trans a b c := by
    simp only [Entry.le_iff]
    omega

theorem sortEntries_pairwise (entries : List Entry) : (sortEntries entries).Pairwise Entry.le :=
  List.pairwise_insertionSort _ _

theorem committedEntries_pairwise (log : Log) (taskID : Uuid) :
    (committedEntries log taskID).Pairwise Entry.le :=
  (sortEntries_pairwise _).filter _

/-- The last committed step is committed, and no committed step is larger. -/
theorem lastCommittedStep_eq_some_iff {step : UInt32} :
    lastCommittedStep log taskID = some step ↔
      (∃ entry ∈ committedEntries log taskID, entry.stepIndex = step) ∧
        ∀ entry ∈ committedEntries log taskID, entry.stepIndex ≤ step := by
  have hsorted := committedEntries_pairwise log taskID
  unfold lastCommittedStep
  cases hlast : (committedEntries log taskID).getLast? with
  | none => simp [List.getLast?_eq_none_iff.mp hlast]
  | some last =>
      obtain ⟨init, hentries⟩ := List.getLast?_eq_some_iff.mp hlast
      rw [hentries] at hsorted ⊢
      have hmax : ∀ entry ∈ init ++ [last], entry.stepIndex ≤ last.stepIndex := by
        intro entry hentry
        simp only [List.mem_append, List.mem_singleton] at hentry
        obtain hentry | rfl := hentry
        · have hle := (List.pairwise_append.mp hsorted).2.2 entry hentry last (by simp)
          rw [Entry.le_iff] at hle
          rw [UInt32.le_iff_toNat_le]
          omega
        · exact UInt32.le_refl _
      simp only [Option.map_some, Option.some.injEq]
      constructor
      · rintro rfl
        exact ⟨⟨last, by simp, rfl⟩, hmax⟩
      · rintro ⟨⟨entry, hentry, rfl⟩, hbound⟩
        exact UInt32.le_antisymm (hbound last (by simp)) (hmax entry hentry)

theorem lastCommittedStep_eq_none_iff :
    lastCommittedStep log taskID = none ↔ committedEntries log taskID = [] := by
  simp [lastCommittedStep]

/-! ## What a write does to the committed entries -/

theorem committedEntries_nodup (log : Log) (taskID : Uuid) : (committedEntries log taskID).Nodup := by
  have hrows : log.rows.Nodup := List.Nodup.of_map _ log.nodup
  have hsorted : (readFromStep log taskID 0).Nodup :=
    ((List.perm_insertionSort _ _).nodup_iff).mpr (hrows.filter _)
  exact hsorted.filter _

/-- Only one entry of the log has a given task and identifier. -/
theorem eq_of_key {a b : Entry} (ha : a ∈ log.rows) (hb : b ∈ log.rows) (hkey : a.key = b.key) :
    a = b :=
  List.inj_on_of_nodup_map log.nodup ha hb hkey

/-- The committed entries are determined by their membership. -/
theorem committedEntries_eq_of_mem {entries : List Entry} (hsorted : entries.Pairwise Entry.le)
    (hnodup : entries.Nodup) (hmem : ∀ entry, entry ∈ committedEntries log taskID ↔ entry ∈ entries) :
    committedEntries log taskID = entries := by
  have hperm : (committedEntries log taskID).Perm entries :=
    (List.perm_ext_iff_of_nodup (committedEntries_nodup log taskID) hnodup).mpr hmem
  apply hperm.eq_of_pairwise _ (committedEntries_pairwise log taskID) hsorted
  intro a b ha hb hab hba
  obtain ⟨harow, hatask, -⟩ := mem_committedEntries.mp ha
  obtain ⟨hbrow, hbtask, -⟩ := mem_committedEntries.mp ((hmem b).mpr hb)
  have hid : a.entryID = b.entryID := by
    rw [Entry.le_iff] at hab hba
    apply BitVec.eq_of_toNat_eq
    omega
  exact eq_of_key harow hbrow (by rw [Entry.key, Entry.key, hatask, hbtask, hid])

section Put

variable {log : Log} {entry : Entry} {taskID : Uuid}

/-- An entry that is not committed changes nothing, unless it replaces a committed one. -/
theorem committedEntries_put_other
    (hold : ∀ old, log.get entry.key = some old → old.status ≠ .committed)
    (hentry : entry.status ≠ .committed) :
    committedEntries (log.put entry) taskID = committedEntries log taskID := by
  apply committedEntries_eq_of_mem (committedEntries_pairwise log taskID)
    (committedEntries_nodup log taskID)
  intro e
  rw [mem_committedEntries, mem_committedEntries, Table.mem_put]
  constructor
  · rintro ⟨rfl | ⟨hrow, -⟩, htask, hstatus⟩
    · exact absurd hstatus hentry
    · exact ⟨hrow, htask, hstatus⟩
  · rintro ⟨hrow, htask, hstatus⟩
    refine ⟨Or.inr ⟨hrow, ?_⟩, htask, hstatus⟩
    intro hkey
    exact hold e (Table.get_eq_some_iff.mpr ⟨hrow, hkey⟩) hstatus

/-- A committed entry with a larger step than all others comes last. -/
theorem committedEntries_put
    (hold : ∀ old, log.get entry.key = some old → old.status ≠ .committed)
    (hentry : entry.status = .committed)
    (hstep : ∀ e ∈ committedEntries log entry.taskID, e.stepIndex < entry.stepIndex) :
    committedEntries (log.put entry) entry.taskID =
      committedEntries log entry.taskID ++ [entry] := by
  have hfresh : entry ∉ committedEntries log entry.taskID := by
    intro hmem
    exact UInt32.lt_irrefl _ (hstep entry hmem)
  apply committedEntries_eq_of_mem
  · rw [List.pairwise_append]
    refine ⟨committedEntries_pairwise _ _, List.pairwise_singleton _ _, ?_⟩
    intro e he last hlast
    rw [List.mem_singleton.mp hlast]
    exact Or.inl (hstep e he)
  · rw [List.nodup_append]
    refine ⟨committedEntries_nodup _ _, List.nodup_singleton _, ?_⟩
    intro e he last hlast heq
    rw [List.mem_singleton.mp hlast] at heq
    exact hfresh (heq ▸ he)
  · intro e
    rw [List.mem_append, List.mem_singleton, mem_committedEntries, mem_committedEntries,
      Table.mem_put]
    constructor
    · rintro ⟨rfl | ⟨hrow, -⟩, htask, hstatus⟩
      · exact Or.inr rfl
      · exact Or.inl ⟨hrow, htask, hstatus⟩
    · rintro (⟨hrow, htask, hstatus⟩ | rfl)
      · refine ⟨Or.inr ⟨hrow, ?_⟩, htask, hstatus⟩
        intro hkey
        exact hold e (Table.get_eq_some_iff.mpr ⟨hrow, hkey⟩) hstatus
      · exact ⟨Or.inl rfl, rfl, hentry⟩

/-- Importing committed entries that continue the log appends them. -/
theorem importEntries_append {entries : List Entry}
    (hentries : ∀ e ∈ entries, e.taskID = taskID ∧ e.status = .committed)
    (hsteps : (committedEntries log taskID ++ entries).Pairwise
      fun a b => a.stepIndex < b.stepIndex ∧ a.entryID ≠ b.entryID) :
    ∃ log', importEntries taskID log entries = (log', .ok ()) ∧
      committedEntries log' taskID = committedEntries log taskID ++ entries := by
  induction entries generalizing log with
  | nil => exact ⟨log, rfl, by simp⟩
  | cons entry entries ih =>
      obtain ⟨rfl, hcommitted⟩ := hentries entry List.mem_cons_self
      have hbefore := (List.pairwise_append.mp hsteps).2.2
      have hput : committedEntries (log.put entry) entry.taskID =
          committedEntries log entry.taskID ++ [entry] := by
        apply committedEntries_put _ hcommitted
        · intro e he
          exact (hbefore e he entry List.mem_cons_self).1
        · intro old hold hstatus
          obtain ⟨hrow, hkey⟩ := Table.get_eq_some_iff.mp hold
          have hkey' := Prod.mk.inj hkey
          have hmem := mem_committedEntries.mpr ⟨hrow, hkey'.1, hstatus⟩
          exact (hbefore old hmem entry List.mem_cons_self).2 hkey'.2
      have hshift : committedEntries (log.put entry) entry.taskID ++ entries =
          committedEntries log entry.taskID ++ entry :: entries := by
        rw [hput, List.append_assoc, List.singleton_append]
      obtain ⟨log', himport, hfinal⟩ := ih (fun e he => hentries e (List.mem_cons_of_mem _ he))
        (by rw [hshift]; exact hsteps)
      refine ⟨log', ?_, by rw [hfinal, hshift]⟩
      rw [importEntries, if_neg (by simp), himport]

end Put

end Wal
end Igris
