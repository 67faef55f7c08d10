import Igris.Lib.Merge
import Igris.Task.Checkpoint
import Mathlib.Data.List.Sort

/-!
# Reconstructing the committed prefix

Runtime checkpoints are deltas: each carries the log entries since the one
before.  A recovery on an empty runtime needs all committed entries, so the
coordinator merges every stored delta of the task into one checkpoint.

Main results:

- Theorem {lit}`collectCheckpoints_eq`: the nested loops are one keyed merge of all
  committed entries.
- Theorem {lit}`buildCumulativeRecoveryCheckpoint_correct`: the merge succeeds
  exactly when the committed entries cover all steps up to the final watermark
  without conflict, and its result is the complete prefix.
-/

namespace Igris

open KeyedMerge

/-! ## The merge -/

/-- Two entries encode to the same JSON. -/
def walEntriesEquivalent (a b : WalEntry) : Bool :=
  decide (a.marshalJSON = b.marshalJSON)

/-- Reasons for which the merge fails.  All of them are reported as an invalid
cumulative checkpoint. -/
inductive CumulativeError where
  | taskIDRequired
  | checkpointTaskMismatch
  | walEntryTaskMismatch
  | conflictingDuplicate (step : Nat)
  | latestNotUsable
  | missingCommittedStep (step : Nat)
deriving DecidableEq, Repr

/-- The entry records a committed step. -/
def WalEntry.committed (entry : WalEntry) : Bool :=
  decide (normalizeWalStatus entry.status = "committed")

/-- The inner loop: collect the committed entries of one checkpoint by step. -/
def collectEntries (taskID : Uuid) :
    List WalEntry → List WalEntry → Except CumulativeError (List WalEntry)
  | entriesByStep, [] => .ok entriesByStep
  | entriesByStep, entry :: entries =>
      if entry.taskID ≠ taskID then .error .walEntryTaskMismatch
      else if !entry.committed then collectEntries taskID entriesByStep entries
      else
        match add WalEntry.stepIndex walEntriesEquivalent entriesByStep entry with
        | none => .error (.conflictingDuplicate entry.stepIndex)
        | some entriesByStep' => collectEntries taskID entriesByStep' entries

/-- The outer loop: the furthest checkpoint so far and the collected entries. -/
def collectCheckpoints (taskID : Uuid) :
    Option CheckpointPayload → List WalEntry → List (Option CheckpointPayload) →
      Except CumulativeError (Option CheckpointPayload × List WalEntry)
  | latest, entriesByStep, [] => .ok (latest, entriesByStep)
  | latest, entriesByStep, none :: checkpoints =>
      collectCheckpoints taskID latest entriesByStep checkpoints
  | latest, entriesByStep, some cp :: checkpoints =>
      if cp.taskID ≠ taskID then .error .checkpointTaskMismatch
      else
        match collectEntries taskID entriesByStep cp.walEntries with
        | .error err => .error err
        | .ok entriesByStep' =>
            collectCheckpoints taskID
              (if latest = none ∨ taskCheckpointAdvances latest (some cp) then some cp else latest)
              entriesByStep' checkpoints

/-- Pick the entry of every listed step. -/
def pickSteps (entriesByStep : List WalEntry) :
    List Nat → Except CumulativeError (List WalEntry)
  | [] => .ok []
  | step :: steps =>
      match lookup WalEntry.stepIndex entriesByStep step with
      | none => .error (.missingCommittedStep step)
      | some entry => (pickSteps entriesByStep steps).map (entry :: ·)

/-- Merge the stored checkpoints of a task into one with all committed entries. -/
def buildCumulativeRecoveryCheckpoint (taskID : Uuid)
    (checkpoints : List (Option CheckpointPayload)) :
    Except CumulativeError (Option CheckpointPayload) :=
  if taskID = Uuid.nil then .error .taskIDRequired
  else if checkpoints = [] then .ok none
  else
    match collectCheckpoints taskID none [] checkpoints with
    | .error err => .error err
    | .ok (none, _) => .ok none
    | .ok (some latest, entriesByStep) =>
        if !taskRecoveryCheckpointUsable taskID (some latest) then .error .latestNotUsable
        else
          match pickSteps entriesByStep (List.range (latest.watermark + 1)) with
          | .error err => .error err
          | .ok entries =>
              .ok (some {
                taskID := latest.taskID
                resumeToken := latest.resumeToken
                walEntries := entries.insertionSort fun a b => a.stepIndex ≤ b.stepIndex
                metadata := latest.metadata
                capturedAt := latest.capturedAt })

/-! ## What the merge is for -/

/-- Committed entries of a list of checkpoints, in order. -/
def committedEntries (cps : List CheckpointPayload) : List WalEntry :=
  cps.flatMap fun cp => cp.walEntries.filter WalEntry.committed

/-- Every step up to the watermark has a committed entry. -/
def CoversPrefix (cps : List CheckpointPayload) (watermark : Nat) : Prop :=
  ∀ step ≤ watermark, ∃ e ∈ committedEntries cps, e.stepIndex = step

/-- No step has two committed entries that differ. -/
def ConflictFree (cps : List CheckpointPayload) : Prop :=
  ∀ a ∈ committedEntries cps, ∀ b ∈ committedEntries cps,
    a.stepIndex = b.stepIndex → walEntriesEquivalent a b = true

instance (cps : List CheckpointPayload) (watermark : Nat) :
    Decidable (CoversPrefix cps watermark) :=
  inferInstanceAs (Decidable (∀ step ≤ watermark, _))

instance (cps : List CheckpointPayload) : Decidable (ConflictFree cps) :=
  inferInstanceAs (Decidable (∀ a ∈ _, ∀ b ∈ _, _))

/-- The checkpoint with the largest watermark; the first one among equals. -/
def furthest : List CheckpointPayload → Option CheckpointPayload → Option CheckpointPayload
  | [], latest => latest
  | cp :: cps, latest =>
      furthest cps
        (if latest = none ∨ taskCheckpointAdvances latest (some cp) then some cp else latest)

/-! ## The loops compute the keyed merge -/

theorem walEntriesEquivalent_iff {a b : WalEntry} :
    walEntriesEquivalent a b = true ↔ a.marshalJSON = b.marshalJSON :=
  decide_eq_true_iff

variable {entries m : List WalEntry}

variable {taskID : Uuid} {cps : List CheckpointPayload} {steps : List Nat}

/-- On entries of the task the inner loop is the keyed merge of the committed ones. -/
theorem collectEntries_eq (htask : ∀ e ∈ entries, e.taskID = taskID) :
    (collectEntries taskID m entries).toOption =
      addAll WalEntry.stepIndex walEntriesEquivalent m (entries.filter WalEntry.committed) := by
  induction entries generalizing m with
  | nil => rfl
  | cons entry entries ih =>
      have hrest : ∀ e ∈ entries, e.taskID = taskID := fun e he =>
        htask e (List.mem_cons_of_mem _ he)
      have hentry : ¬entry.taskID ≠ taskID := not_not.mpr (htask entry List.mem_cons_self)
      unfold collectEntries
      rw [if_neg hentry]
      by_cases hc : entry.committed = true
      · rw [if_neg (by simp [hc]), List.filter_cons_of_pos hc, addAll]
        cases hadd : add WalEntry.stepIndex walEntriesEquivalent m entry with
        | none => rfl
        | some m' => exact ih hrest
      · rw [if_pos (by simpa using hc), List.filter_cons_of_neg hc]
        exact ih hrest

/-- On stored checkpoints of the task the outer loop computes the furthest one
and the keyed merge of all committed entries. -/
theorem collectCheckpoints_eq {latest : Option CheckpointPayload}
    (husable : ∀ cp ∈ cps, taskRecoveryCheckpointUsable taskID (some cp) = true) :
    (collectCheckpoints taskID latest m (cps.map some)).toOption =
      (addAll WalEntry.stepIndex walEntriesEquivalent m (committedEntries cps)).map
        fun m' => (furthest cps latest, m') := by
  induction cps generalizing latest m with
  | nil => rfl
  | cons cp cps ih =>
      rcases taskRecoveryCheckpointUsable_iff.mp (husable cp List.mem_cons_self) with
        ⟨hcp, -, hbelong, -⟩
      have hentries : ∀ e ∈ cp.walEntries, e.taskID = taskID := by
        intro e he
        rw [(taskCheckpointEntriesBelongToTask_iff.mp hbelong).2 e he, hcp]
      have hinner := collectEntries_eq (m := m) hentries
      have hrest : ∀ cp ∈ cps, taskRecoveryCheckpointUsable taskID (some cp) = true :=
        fun cp' hmem => husable cp' (List.mem_cons_of_mem _ hmem)
      have hsplit : committedEntries (cp :: cps) =
          cp.walEntries.filter WalEntry.committed ++ committedEntries cps := rfl
      rw [List.map_cons, collectCheckpoints, if_neg (not_not.mpr hcp), hsplit, addAll_append,
        ← hinner]
      cases collectEntries taskID m cp.walEntries with
      | error err => rfl
      | ok m' =>
          rw [furthest]
          exact ih hrest
/-! ## Picking the steps -/

theorem pickSteps_eq_ok_iff :
    pickSteps m steps = .ok entries ↔
      steps.map (lookup WalEntry.stepIndex m) = entries.map some := by
  induction steps generalizing entries with
  | nil => cases entries <;> simp [pickSteps]
  | cons step steps ih =>
      unfold pickSteps
      cases hl : lookup WalEntry.stepIndex m step with
      | none => cases entries <;> simp [hl]
      | some e =>
          cases entries with
          | nil => cases pickSteps m steps <;> simp [Except.map]
          | cons x xs =>
              rw [List.map_cons, List.map_cons, hl, List.cons.injEq, ← ih]
              cases pickSteps m steps <;> simp [Except.map]

theorem exists_pickSteps_iff :
    (∃ entries, pickSteps m steps = .ok entries) ↔
      ∀ step ∈ steps, ∃ e ∈ m, e.stepIndex = step := by
  simp only [pickSteps_eq_ok_iff, ← exists_lookup_iff]
  induction steps with
  | nil => simp
  | cons step steps ih =>
      rw [List.forall_mem_cons, ← ih]
      constructor
      · rintro ⟨entries, h⟩
        cases entries with
        | nil => simp at h
        | cons x xs =>
            rw [List.map_cons, List.map_cons, List.cons.injEq] at h
            exact ⟨⟨x, h.1⟩, ⟨xs, h.2⟩⟩
      · rintro ⟨⟨e, he⟩, entries, h⟩
        exact ⟨e :: entries, by rw [List.map_cons, List.map_cons, he, h]⟩

/-- Picked entries carry the requested steps, in the requested order. -/
theorem pickSteps_stepIndex (h : pickSteps m steps = .ok entries) :
    entries.map WalEntry.stepIndex = steps ∧ ∀ e ∈ entries, e ∈ m := by
  induction steps generalizing entries with
  | nil =>
      cases h
      exact ⟨rfl, by simp⟩
  | cons step steps ih =>
      rw [pickSteps_eq_ok_iff] at h
      cases entries with
      | nil => simp at h
      | cons x xs =>
          rw [List.map_cons, List.map_cons, List.cons.injEq] at h
          rcases ih (pickSteps_eq_ok_iff.mpr h.2) with ⟨hsteps, hmem⟩
          refine ⟨by rw [List.map_cons, key_of_lookup h.1, hsteps], ?_⟩
          exact List.forall_mem_cons.mpr ⟨mem_of_lookup h.1, hmem⟩

/-- Entries in step order are left alone by the sort. -/
theorem insertionSort_of_range {n : Nat} (h : entries.map WalEntry.stepIndex = List.range n) :
    entries.insertionSort (fun a b => a.stepIndex ≤ b.stepIndex) = entries := by
  apply List.Pairwise.insertionSort_eq
  have hsorted : (entries.map WalEntry.stepIndex).Pairwise (· < ·) := by
    rw [h]
    exact List.pairwise_lt_range
  exact (List.pairwise_map.mp hsorted).imp Nat.le_of_lt

/-! ## The furthest checkpoint -/

theorem furthest_cons (cp : CheckpointPayload) (cps : List CheckpointPayload) :
    ∃ latest ∈ cp :: cps, furthest cps (some cp) = some latest ∧
      ∀ cp' ∈ cp :: cps, cp'.watermark ≤ latest.watermark := by
  induction cps generalizing cp with
  | nil => exact ⟨cp, by simp, rfl, by simp⟩
  | cons next cps ih =>
      unfold furthest
      by_cases hadv : taskCheckpointAdvances (some cp) (some next) = true
      · rcases ih next with ⟨latest, hmem, heq, hmax⟩
        have hlt := taskCheckpointAdvances_some_some.mp hadv
        refine ⟨latest, List.mem_cons_of_mem _ hmem, by simpa [hadv] using heq, ?_⟩
        rw [List.forall_mem_cons]
        exact ⟨hlt.le.trans (hmax next List.mem_cons_self), hmax⟩
      · rcases ih cp with ⟨latest, hmem, heq, hmax⟩
        have hle := fun hlt => hadv (taskCheckpointAdvances_some_some.mpr hlt)
        have hcp := hmax cp List.mem_cons_self
        refine ⟨latest, ?_, by simpa [hadv] using heq, ?_⟩
        · rcases List.mem_cons.mp hmem with rfl | hmem
          · exact List.mem_cons_self
          · exact List.mem_cons_of_mem _ (List.mem_cons_of_mem _ hmem)
        · intro cp' hcp'
          rcases List.mem_cons.mp hcp' with rfl | hcp'
          · exact hcp
          · rcases List.mem_cons.mp hcp' with rfl | hcp'
            · exact (not_lt.mp hle).trans hcp
            · exact hmax cp' (List.mem_cons_of_mem _ hcp')

/-- With watermarks in increasing order the furthest checkpoint is the last one. -/
theorem furthest_eq_getLast {cp : CheckpointPayload}
    (hmono : ((cp :: cps).map CheckpointPayload.watermark).Pairwise (· < ·)) :
    furthest cps (some cp) = (cp :: cps).getLast? := by
  induction cps generalizing cp with
  | nil => rfl
  | cons next cps ih =>
      rw [List.map_cons, List.pairwise_cons] at hmono
      have hadv : taskCheckpointAdvances (some cp) (some next) = true :=
        taskCheckpointAdvances_some_some.mpr (hmono.1 _ (by simp))
      have hlast : (cp :: next :: cps).getLast? = (next :: cps).getLast? := by simp
      rw [furthest, hlast, ← ih hmono.2, if_pos (Or.inr hadv)]

/-! ## Correctness of the merge -/

/-- A run of stored checkpoints of one task, with the furthest one. -/
structure StoredDeltas (taskID : Uuid) (cps : List CheckpointPayload)
    (latest : CheckpointPayload) : Prop where
  usable : ∀ cp ∈ cps, taskRecoveryCheckpointUsable taskID (some cp) = true
  furthest_eq : furthest cps none = some latest
  mem : latest ∈ cps
  max : ∀ cp ∈ cps, cp.watermark ≤ latest.watermark

/-- A nonempty list of stored checkpoints has a furthest one, and it is the last
one when watermarks increase. -/
theorem exists_storedDeltas (hne : cps ≠ [])
    (husable : ∀ cp ∈ cps, taskRecoveryCheckpointUsable taskID (some cp) = true) :
    ∃ latest, StoredDeltas taskID cps latest ∧
      ((cps.map CheckpointPayload.watermark).Pairwise (· < ·) → cps.getLast? = some latest) := by
  cases cps with
  | nil => exact absurd rfl hne
  | cons cp cps =>
      rcases furthest_cons cp cps with ⟨latest, hmem, heq, hmax⟩
      have hfirst : furthest (cp :: cps) none = some latest := by
        rw [furthest, if_pos (Or.inl rfl), heq]
      refine ⟨latest, ⟨husable, hfirst, hmem, hmax⟩, ?_⟩
      intro hmono
      rw [← furthest_eq_getLast hmono, heq]

namespace StoredDeltas

variable {latest : CheckpointPayload}

theorem taskID_ne_nil (h : StoredDeltas taskID cps latest) : taskID ≠ Uuid.nil := by
  rcases taskRecoveryCheckpointUsable_iff.mp (h.usable latest h.mem) with ⟨htask, -, hbelong, -⟩
  rw [← htask]
  exact (taskCheckpointEntriesBelongToTask_iff.mp hbelong).1

/-- Committed entries of stored checkpoints belong to the task, have an
identifier and lie within the final watermark. -/
theorem entry_ok (h : StoredDeltas taskID cps latest) {e : WalEntry}
    (he : e ∈ committedEntries cps) :
    e.committed = true ∧ e.taskID = taskID ∧ e.entryID ≠ Uuid.nil ∧
      e.stepIndex ≤ latest.watermark := by
  rcases List.mem_flatMap.mp he with ⟨cp, hcp, hfilter⟩
  rcases List.mem_filter.mp hfilter with ⟨hentry, hcommitted⟩
  rcases taskRecoveryCheckpointUsable_iff.mp (h.usable cp hcp) with
    ⟨htask, hwatermark, hbelong, hstable⟩
  refine ⟨hcommitted, ?_, taskCheckpointEntriesHaveStableIDs_iff.mp hstable e hentry, ?_⟩
  · rw [(taskCheckpointEntriesBelongToTask_iff.mp hbelong).2 e hentry, htask]
  · exact ((taskCheckpointWatermarkConsistent_iff.mp hwatermark).1 e hentry).trans (h.max cp hcp)

/-- The merge succeeds with a result exactly when the keyed merge of all
committed entries finishes and every step can be picked from it. -/
theorem build_eq_ok_iff (h : StoredDeltas taskID cps latest) {result : Option CheckpointPayload} :
    buildCumulativeRecoveryCheckpoint taskID (cps.map some) = .ok result ↔
      ∃ m entries, addAll WalEntry.stepIndex walEntriesEquivalent [] (committedEntries cps) = some m ∧
        pickSteps m (List.range (latest.watermark + 1)) = .ok entries ∧
        result = some { latest with walEntries := entries } := by
  have hne : cps.map some ≠ [] := by
    intro hnil
    rw [List.map_eq_nil_iff] at hnil
    exact List.ne_nil_of_mem h.mem hnil
  have hloop : (collectCheckpoints taskID none [] (cps.map some)).toOption = _ :=
    collectCheckpoints_eq h.usable
  rw [h.furthest_eq] at hloop
  unfold buildCumulativeRecoveryCheckpoint
  rw [if_neg h.taskID_ne_nil, if_neg hne]
  cases hm : addAll WalEntry.stepIndex walEntriesEquivalent [] (committedEntries cps) with
  | none =>
      rw [hm] at hloop
      cases hc : collectCheckpoints taskID none [] (cps.map some) with
      | error err => simp
      | ok out => simp [hc, Except.toOption] at hloop
  | some m =>
      rw [hm] at hloop
      cases hc : collectCheckpoints taskID none [] (cps.map some) with
      | error err => simp [hc, Except.toOption] at hloop
      | ok out =>
          have hout : out = (some latest, m) := by simpa [hc, Except.toOption] using hloop
          subst hout
          have husable : ¬(!taskRecoveryCheckpointUsable taskID (some latest)) = true := by
            simp [h.usable latest h.mem]
          simp only [if_neg husable]
          cases hp : pickSteps m (List.range (latest.watermark + 1)) with
          | error err => simp [hp]
          | ok entries =>
              have hsort := insertionSort_of_range (pickSteps_stepIndex hp).1
              simp [hp, hsort, eq_comm]

/-- The keyed merge finishes exactly when no step has conflicting entries. -/
theorem exists_addAll_iff :
    (∃ m, addAll WalEntry.stepIndex walEntriesEquivalent [] (committedEntries cps) = some m) ↔
      ConflictFree cps := by
  apply addAll_isSome_iff
  · intro e
    exact walEntriesEquivalent_iff.mpr rfl
  · intro a b hab
    exact walEntriesEquivalent_iff.mpr (walEntriesEquivalent_iff.mp hab).symm
  · intro a b c hab hbc
    exact walEntriesEquivalent_iff.mpr
      ((walEntriesEquivalent_iff.mp hab).trans (walEntriesEquivalent_iff.mp hbc))

/-- A finished merge can serve a step exactly when some committed entry has it. -/
theorem exists_mem_merged_iff {m : List WalEntry}
    (hm : addAll WalEntry.stepIndex walEntriesEquivalent [] (committedEntries cps) = some m)
    (step : Nat) :
    (∃ e ∈ m, e.stepIndex = step) ↔ ∃ e ∈ committedEntries cps, e.stepIndex = step := by
  rw [← exists_lookup_iff, ← exists_lookup_iff, lookup_addAll hm, List.nil_append]

theorem exists_build_iff (h : StoredDeltas taskID cps latest) :
    (∃ result, buildCumulativeRecoveryCheckpoint taskID (cps.map some) = .ok result) ↔
      CoversPrefix cps latest.watermark ∧ ConflictFree cps := by
  simp only [h.build_eq_ok_iff]
  constructor
  · rintro ⟨-, m, entries, hm, hp, -⟩
    refine ⟨?_, exists_addAll_iff.mp ⟨m, hm⟩⟩
    intro step hstep
    have hrange : step ∈ List.range (latest.watermark + 1) := List.mem_range.mpr (by omega)
    exact (exists_mem_merged_iff hm step).mp (exists_pickSteps_iff.mp ⟨entries, hp⟩ step hrange)
  · rintro ⟨hcovers, hfree⟩
    rcases exists_addAll_iff.mpr hfree with ⟨m, hm⟩
    have hpick : ∃ entries, pickSteps m (List.range (latest.watermark + 1)) = .ok entries := by
      apply exists_pickSteps_iff.mpr
      intro step hstep
      have hle : step ≤ latest.watermark := by
        rw [List.mem_range] at hstep
        omega
      exact (exists_mem_merged_iff hm step).mpr (hcovers step hle)
    rcases hpick with ⟨entries, hp⟩
    exact ⟨_, m, entries, hm, hp, rfl⟩

/-- A successful merge is the complete committed prefix and can be resumed from. -/
theorem result_ok (h : StoredDeltas taskID cps latest) {result : Option CheckpointPayload}
    (hbuild : buildCumulativeRecoveryCheckpoint taskID (cps.map some) = .ok result) :
    ∃ cp, result = some cp ∧ cp.resumeToken = latest.resumeToken ∧
      cp.walEntries.map WalEntry.stepIndex = List.range (latest.watermark + 1) ∧
      (∀ e ∈ cp.walEntries, e ∈ committedEntries cps ∧ e.committed = true) ∧
      taskRecoveryCheckpointUsable taskID (some cp) = true := by
  rcases h.build_eq_ok_iff.mp hbuild with ⟨m, entries, hm, hp, rfl⟩
  rcases pickSteps_stepIndex hp with ⟨hsteps, hmem⟩
  have hsource : ∀ e ∈ entries, e ∈ committedEntries cps := by
    intro e he
    rcases mem_addAll hm (hmem e he) with hnil | hsource
    · simp at hnil
    · exact hsource
  have hlast : ∃ e ∈ entries, e.stepIndex = latest.watermark := by
    have hrange : latest.watermark ∈ entries.map WalEntry.stepIndex := by
      rw [hsteps, List.mem_range]
      omega
    exact List.mem_map.mp hrange
  have htask := (taskRecoveryCheckpointUsable_iff.mp (h.usable latest h.mem)).1
  refine ⟨_, rfl, rfl, hsteps, fun e he => ⟨hsource e he, (h.entry_ok (hsource e he)).1⟩, ?_⟩
  rw [taskRecoveryCheckpointUsable_iff, taskCheckpointWatermarkConsistent_iff,
    taskCheckpointEntriesBelongToTask_iff, taskCheckpointEntriesHaveStableIDs_iff]
  refine ⟨htask, ⟨?_, Or.inr hlast⟩, ⟨htask ▸ h.taskID_ne_nil, ?_⟩, ?_⟩
  · intro e he
    exact (h.entry_ok (hsource e he)).2.2.2
  · intro e he
    exact (h.entry_ok (hsource e he)).2.1.trans htask.symm
  · intro e he
    exact (h.entry_ok (hsource e he)).2.2.1

end StoredDeltas

/-- The merge of the stored checkpoints of a task is correct: without checkpoints
there is nothing to resume from; otherwise it succeeds exactly when the committed
entries cover every step up to the final watermark without conflict, and then
yields one committed entry per step, in order, under the resume token of the
furthest checkpoint (the last one, as stored watermarks increase), and the result
is usable for recovery. -/
theorem buildCumulativeRecoveryCheckpoint_correct (taskID : Uuid) (cps : List CheckpointPayload)
    (hid : taskID ≠ Uuid.nil)
    (hstored : ∀ cp ∈ cps, taskRecoveryCheckpointUsable taskID (some cp) = true) :
    (cps = [] → buildCumulativeRecoveryCheckpoint taskID (cps.map some) = .ok none) ∧
      (cps ≠ [] → ∃ latest ∈ cps, (∀ cp ∈ cps, cp.watermark ≤ latest.watermark) ∧
        ((cps.map CheckpointPayload.watermark).Pairwise (· < ·) → cps.getLast? = some latest) ∧
        ((∃ result, buildCumulativeRecoveryCheckpoint taskID (cps.map some) = .ok result) ↔
          CoversPrefix cps latest.watermark ∧ ConflictFree cps) ∧
        ∀ result, buildCumulativeRecoveryCheckpoint taskID (cps.map some) = .ok result →
          ∃ cp, result = some cp ∧ cp.resumeToken = latest.resumeToken ∧
            cp.walEntries.map WalEntry.stepIndex = List.range (latest.watermark + 1) ∧
            (∀ e ∈ cp.walEntries, e ∈ committedEntries cps ∧ e.committed = true) ∧
            taskRecoveryCheckpointUsable taskID (some cp) = true) := by
  constructor
  · rintro rfl
    rw [List.map_nil, buildCumulativeRecoveryCheckpoint, if_neg hid, if_pos rfl]
  · intro hne
    rcases exists_storedDeltas hne hstored with ⟨latest, h, hlast⟩
    exact ⟨latest, h.mem, h.max, hlast, h.exists_build_iff, fun result => h.result_ok⟩

/-- A committed entry of the given step. -/
def committedEntry (taskID : Uuid) (runtimeID : String) (step : Nat) : WalEntry where
  entryID := 100 + BitVec.ofNat 128 step
  taskID := taskID
  stepIndex := step
  stepType := "\"reason\""
  status := "Committed"
  inputDigest := ""
  outputDigest := none
  timestampMs := 0
  runtimeID := runtimeID
  signature := none

/-- A delta checkpoint with the one entry of its watermark. -/
def singleStepDelta (taskID : Uuid) (runtimeID : String) (step : Nat) : CheckpointPayload where
  taskID := taskID
  resumeToken := ⟨step, "", runtimeID⟩
  walEntries := [committedEntry taskID runtimeID step]

theorem buildCumulativeRecoveryCheckpoint_two_deltas :
    ∃ cp, buildCumulativeRecoveryCheckpoint 7
        [some (singleStepDelta 7 "rt-a" 0), some (singleStepDelta 7 "rt-a" 1)] = .ok (some cp) ∧
      cp.resumeToken.lastCommittedStep = 1 ∧ cp.walEntries.map WalEntry.stepIndex = [0, 1] := by
  have hcorrect := buildCumulativeRecoveryCheckpoint_correct 7
    [singleStepDelta 7 "rt-a" 0, singleStepDelta 7 "rt-a" 1] (by decide) (by decide)
  rcases hcorrect.2 (by decide) with ⟨latest, -, -, hlast, hiff, hresult⟩
  have hlatest : singleStepDelta 7 "rt-a" 1 = latest := by simpa using hlast (by decide)
  subst hlatest
  rcases hiff.mpr ⟨by decide, by decide⟩ with ⟨result, hbuild⟩
  rcases hresult result hbuild with ⟨cp, rfl, htoken, hsteps, -, -⟩
  exact ⟨cp, hbuild, by rw [htoken]; rfl, hsteps⟩

end Igris
