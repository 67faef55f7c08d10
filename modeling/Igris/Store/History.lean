import Igris.Store.Lifecycle
import Igris.Task.Cumulative

/-!
# The checkpoint history

A checkpoint is accepted when its operation reports success.  This file relates
the accepted checkpoints of a run to the two tables that hold them.

Main results:

- Theorem {lit}`CheckpointInvariant.step`: one operation keeps the invariant.
- Theorem {lit}`StoreRun.checkpoints`: in every run from the empty store the record
  holds the furthest accepted checkpoint, accepted watermarks increase strictly,
  the history holds exactly the accepted checkpoints, and a rejected checkpoint
  leaves no trace.
-/

namespace Igris

/-- The checkpoint an executed operation has stored. -/
def StoreEvent.accepted (e : StoreEvent) : Option CheckpointPayload :=
  match e.op, e.answer with
  | .saveCheckpoint cp, .ok _ => some cp
  | .saveCheckpoint cp, .error .resultUnread => some cp
  | _, _ => none

/-- The checkpoints accepted for a task, oldest first. -/
def acceptedFor (τ : List StoreEvent) (id : Uuid) : List CheckpointPayload :=
  (τ.filterMap StoreEvent.accepted).filter fun cp => decide (cp.taskID = id)

/-- How records and history relate to the checkpoints accepted so far. -/
structure CheckpointInvariant (τ : List StoreEvent) (s : Store) : Prop where
  history : ∀ id, s.checkpointsOf id = (acceptedFor τ id).map CheckpointPayload.reload
  increasing : ∀ id, ((acceptedFor τ id).map CheckpointPayload.watermark).Pairwise (· < ·)
  usable : ∀ id, ∀ cp ∈ acceptedFor τ id, taskRecoveryCheckpointUsable id (some cp) = true
  last : ∀ id t, s.task id = some t →
    t.lastCheckpoint = (acceptedFor τ id).getLast?.map CheckpointPayload.reload
  known : ∀ id, s.task id = none → acceptedFor τ id = []

/-! ## One operation -/

theorem acceptedFor_snoc (τ : List StoreEvent) (e : StoreEvent) (id : Uuid) :
    acceptedFor (τ ++ [e]) id = acceptedFor τ id ++ acceptedFor [e] id := by
  simp [acceptedFor]

variable {ids : List Uuid} {cp : CheckpointPayload}

/-- What an operation that took effect adds to the history is what it accepted. -/
theorem recorded_eq_accepted {e : StoreEvent} (h : StoreOp.Effective e.answer ids) :
    e.op.recorded = e.accepted.toList.map CheckpointPayload.reload := by
  rcases e with ⟨s, op, answer, s'⟩
  rcases h with heq | heq <;> dsimp only at heq <;> subst heq <;> cases op <;> rfl

/-- An operation that changed nothing accepted nothing. -/
theorem accepted_eq_none {e : StoreEvent} {err : StoreError} (h : e.answer = .error err)
    (hread : err ≠ .resultUnread) : e.accepted = none := by
  rcases e with ⟨s, op, answer, s'⟩
  dsimp only at h
  subst h
  cases err with
  | resultUnread => exact absurd rfl hread
  | _ => cases op <;> rfl

theorem accepted_eq_some {s s' : Store} {op : StoreOp} {answer : StoreAnswer}
    (h : StoreEvent.accepted ⟨s, op, answer, s'⟩ = some cp) :
    op = .saveCheckpoint cp := by
  unfold StoreEvent.accepted at h
  split at h <;> cases h <;> assumption

/-- Only the checkpoint operation writes the last checkpoint. -/
theorem lastCheckpoint_run {op : StoreOp} (h : ∀ cp, op ≠ .saveCheckpoint cp) (t : TaskRecord) :
    (op.rowUpdate.run t).lastCheckpoint = t.lastCheckpoint := by
  unfold Update.run
  split
  · cases op with
    | saveCheckpoint cp => exact absurd rfl (h cp)
    | _ => rfl
  · rfl

section Step

variable {jsonb : TaskDefinition → TaskDefinition} {s s' : Store} {op : StoreOp}
  {answer : StoreAnswer} {τ : List StoreEvent}

theorem checkpointsOf_perform (h : op.perform jsonb answer s = some s') (id : Uuid) :
    s'.checkpointsOf id = s.checkpointsOf id ++
      (acceptedFor [⟨s, op, answer, s'⟩] id).map CheckpointPayload.reload := by
  have hwal : s'.walCheckpoints = s.walCheckpoints ++
      (StoreEvent.accepted ⟨s, op, answer, s'⟩).toList.map CheckpointPayload.reload := by
    rcases op.perform_cases h with ⟨err, herr, hread, rfl⟩ | ⟨ids, heffect, happly⟩
    · rw [accepted_eq_none herr hread]
      simp
    · rw [StoreOp.walCheckpoints_apply happly, ← recorded_eq_accepted heffect]
  rw [Store.checkpointsOf, hwal, List.filter_append, ← Store.checkpointsOf]
  cases hacc : StoreEvent.accepted ⟨s, op, answer, s'⟩ with
  | none => simp [acceptedFor, hacc]
  | some cp =>
      by_cases hid : cp.taskID = id <;> simp [acceptedFor, hacc, hid]

/-- A row that accepts a checkpoint holds one with a smaller watermark, or none. -/
theorem acceptCheckpoint_cond {t : TaskRecord} (h : (Update.acceptCheckpoint cp).cond t = true) :
    t.taskID = cp.taskID ∧ taskRecoveryCheckpointUsable cp.taskID (some cp) = true ∧
      cp.watermark < Store.stepIndexBound ∧
      ∀ last, t.lastCheckpoint = some last → last.watermark < cp.watermark := by
  have htask := Store.taskID_of_acceptCheckpoint h
  simp only [Update.acceptCheckpoint, Bool.and_eq_true, decide_eq_true_eq] at h
  refine ⟨htask, h.1.1.1, h.1.2, ?_⟩
  intro last hlast
  have hadv := h.1.1.2
  rw [hlast] at hadv
  exact taskCheckpointAdvances_some_some.mp hadv

/-- In a strictly increasing list the last element bounds the others. -/
theorem le_of_getLast? {l : List CheckpointPayload} {last : CheckpointPayload}
    (hmono : (l.map CheckpointPayload.watermark).Pairwise (· < ·))
    (hlast : l.getLast? = some last) (hmem : cp ∈ l) : cp.watermark ≤ last.watermark := by
  rcases List.getLast?_eq_some_iff.mp hlast with ⟨front, rfl⟩
  rw [List.map_append, List.pairwise_append] at hmono
  rcases List.mem_append.mp hmem with hmem | hmem
  · exact (hmono.2.2 _ (List.mem_map_of_mem hmem) last.watermark (by simp)).le
  · rw [List.mem_singleton.mp hmem]

/-- A checkpoint is stored only into a row that accepts it. -/
theorem exists_row_of_saveCheckpoint
    (happly : (StoreOp.saveCheckpoint cp).apply jsonb s = (.ok ids, s')) :
    ∃ t, s.task cp.taskID = some t ∧ (StoreOp.saveCheckpoint cp).rowUpdate.cond t = true := by
  have hmem : cp.taskID ∈ ids := by
    rcases StoreOp.apply_ok_cases happly with ⟨-, -, hrec, -⟩ | ⟨cp', heq, hids, -⟩ | ⟨task, bound, heq, -⟩
    · cases hrec
    · cases heq
      rw [hids]
      exact List.mem_singleton_self _
    · cases heq
  obtain ⟨t, ht, hcond⟩ | ⟨task, bound, heq, -⟩ := StoreOp.mem_ids happly hmem
  · exact ⟨t, ht, hcond⟩
  · cases heq

/-- A checkpoint is accepted only by a record whose accepted checkpoints it exceeds. -/
theorem CheckpointInvariant.accept (hinv : CheckpointInvariant τ s)
    (happly : (StoreOp.saveCheckpoint cp).apply jsonb s = (.ok ids, s')) :
    ∃ t, s.task cp.taskID = some t ∧ taskRecoveryCheckpointUsable cp.taskID (some cp) = true ∧
      (∀ old ∈ acceptedFor τ cp.taskID, old.watermark < cp.watermark) ∧
      s'.task cp.taskID = some { t with status := .checkpointed, lastCheckpoint := some cp.reload } := by
  obtain ⟨t, ht, hcond⟩ := exists_row_of_saveCheckpoint happly
  obtain ⟨-, husable, -, hlast⟩ := acceptCheckpoint_cond hcond
  refine ⟨t, ht, husable, ?_, ?_⟩
  · intro old hold
    have hlastEq := hinv.last cp.taskID t ht
    cases hget : (acceptedFor τ cp.taskID).getLast? with
    | none =>
        rw [List.getLast?_eq_none_iff] at hget
        simp [hget] at hold
    | some last =>
        rw [hget, Option.map_some] at hlastEq
        have hlt : last.watermark < cp.watermark := by
          have hreload := hlast _ hlastEq
          rwa [CheckpointPayload.watermark, CheckpointPayload.reload_resumeToken] at hreload
        exact (le_of_getLast? (hinv.increasing cp.taskID) hget hold).trans_lt hlt
  · rw [StoreOp.task_apply happly ht, Update.run_of_cond hcond]
    rfl

/-- An operation that accepts no checkpoint keeps the invariant. -/
theorem CheckpointInvariant.step_other (hinv : CheckpointInvariant τ s)
    (h : op.perform jsonb answer s = some s')
    (hnone : StoreEvent.accepted ⟨s, op, answer, s'⟩ = none) :
    CheckpointInvariant (τ ++ [⟨s, op, answer, s'⟩]) s' := by
  have hacc : ∀ id, acceptedFor (τ ++ [⟨s, op, answer, s'⟩]) id = acceptedFor τ id := by
    intro id
    simp [acceptedFor, hnone]
  have hnew : ∀ id, acceptedFor [⟨s, op, answer, s'⟩] id = [] := by
    intro id
    simp [acceptedFor, hnone]
  refine ⟨?_, ?_, ?_, ?_, ?_⟩
  · intro id
    rw [hacc, checkpointsOf_perform h, hnew, List.map_nil, List.append_nil, hinv.history]
  · intro id
    rw [hacc]
    exact hinv.increasing id
  · intro id
    rw [hacc]
    exact hinv.usable id
  · intro id t ht
    rw [hacc]
    rcases op.perform_cases h with ⟨err, -, -, rfl⟩ | ⟨ids, heffect, happly⟩
    · exact hinv.last id t ht
    · have hop : ∀ cp, op ≠ .saveCheckpoint cp := by
        intro cp hcp
        subst hcp
        have hrecorded := recorded_eq_accepted (e := ⟨s, .saveCheckpoint cp, answer, s'⟩) heffect
        rw [hnone] at hrecorded
        cases hrecorded
      cases hold : s.task id with
      | some told =>
          rw [StoreOp.task_apply happly hold, Option.some.injEq] at ht
          rw [← ht, lastCheckpoint_run hop]
          exact hinv.last id told hold
      | none =>
          rw [hinv.known id hold]
          rcases StoreOp.task_apply_of_none happly hold with hnone' | ⟨task, bound, -, -, -, hnew'⟩
          · rw [hnone'] at ht
            cases ht
          · rw [hnew'] at ht
            cases ht
            rfl
  · intro id hid
    rw [hacc]
    exact hinv.known id (task_eq_none_of_perform h hid)

/-- An operation that accepts a checkpoint keeps the invariant. -/
theorem CheckpointInvariant.step_accept (hinv : CheckpointInvariant τ s)
    (happly : (StoreOp.saveCheckpoint cp).apply jsonb s = (.ok ids, s'))
    (h : (StoreOp.saveCheckpoint cp).perform jsonb answer s = some s')
    (hsome : StoreEvent.accepted ⟨s, .saveCheckpoint cp, answer, s'⟩ = some cp) :
    CheckpointInvariant (τ ++ [⟨s, .saveCheckpoint cp, answer, s'⟩]) s' := by
  rcases hinv.accept happly with ⟨t, ht, husable, hlt, ht'⟩
  have hacc : ∀ id, acceptedFor (τ ++ [⟨s, .saveCheckpoint cp, answer, s'⟩]) id =
      acceptedFor τ id ++ if cp.taskID = id then [cp] else [] := by
    intro id
    rw [acceptedFor_snoc]
    by_cases hid : cp.taskID = id <;> simp [acceptedFor, hsome, hid]
  refine ⟨?_, ?_, ?_, ?_, ?_⟩
  · intro id
    rw [acceptedFor_snoc, checkpointsOf_perform h, List.map_append, hinv.history]
  · intro id
    rw [hacc]
    split <;> rename_i hid
    · subst hid
      rw [List.map_append, List.map_singleton, List.pairwise_append]
      refine ⟨hinv.increasing _, List.pairwise_singleton _ _, ?_⟩
      intro w hw w' hw'
      rcases List.mem_map.mp hw with ⟨old, hold, rfl⟩
      rw [List.mem_singleton.mp hw']
      exact hlt old hold
    · rw [List.append_nil]
      exact hinv.increasing id
  · intro id cp' hcp'
    rw [hacc] at hcp'
    split at hcp' <;> rename_i hid
    · subst hid
      rcases List.mem_append.mp hcp' with hcp' | hcp'
      · exact hinv.usable _ cp' hcp'
      · rw [List.mem_singleton.mp hcp']
        exact husable
    · rw [List.append_nil] at hcp'
      exact hinv.usable id cp' hcp'
  · intro id t₁ ht₁
    rw [hacc]
    split <;> rename_i hid
    · subst hid
      rw [ht', Option.some.injEq] at ht₁
      rw [← ht₁]
      simp
    · -- another task's record is not touched
      rw [List.append_nil]
      cases hold : s.task id with
      | none =>
          rcases StoreOp.task_apply_of_none happly hold with hnone | ⟨_, _, heq, -⟩
          · rw [hnone] at ht₁
            cases ht₁
          · cases heq
      | some told =>
          have hmiss : ¬(Update.acceptCheckpoint cp).cond told = true := by
            intro hcond
            have := Store.taskID_of_acceptCheckpoint hcond
            exact hid (this.symm.trans (Store.taskID_of_task hold))
          rw [StoreOp.task_apply happly hold] at ht₁
          have hsame : told = t₁ := by simpa [StoreOp.rowUpdate, Update.run_of_not_cond hmiss] using ht₁
          rw [← hsame]
          exact hinv.last id told hold
  · intro id hid
    have hne : cp.taskID ≠ id := by
      rintro rfl
      rw [ht'] at hid
      cases hid
    rw [hacc, if_neg hne, List.append_nil]
    exact hinv.known id (task_eq_none_of_perform h hid)

/-- Every operation keeps the invariant. -/
theorem CheckpointInvariant.step (hinv : CheckpointInvariant τ s)
    (h : op.perform jsonb answer s = some s') :
    CheckpointInvariant (τ ++ [⟨s, op, answer, s'⟩]) s' := by
  cases hacc : StoreEvent.accepted ⟨s, op, answer, s'⟩ with
  | none => exact hinv.step_other h hacc
  | some cp =>
      rcases StoreOp.perform_cases h with ⟨err, herr, hread, -⟩ | ⟨ids, -, happly⟩
      · rw [accepted_eq_none herr hread] at hacc
        cases hacc
      · have hop := accepted_eq_some hacc
        subst hop
        exact hinv.step_accept happly h hacc

end Step

theorem CheckpointInvariant.init : CheckpointInvariant [] Store.empty where
  history := fun _ => rfl
  increasing := fun _ => List.Pairwise.nil
  usable := by simp [acceptedFor]
  last := by simp [Store.task, Store.empty]
  known := fun _ _ => rfl

section Runs

variable {jsonb : TaskDefinition → TaskDefinition} {s s' : Store} {τ : List StoreEvent}

theorem StoreRun.checkpointInvariant (hrun : StoreRun jsonb .empty τ s) : CheckpointInvariant τ s := by
  generalize hinit : Store.empty = s₀ at hrun
  induction hrun with
  | nil =>
      subst hinit
      exact CheckpointInvariant.init
  | snoc _ hop ih => exact ih.step hop

/-- An accepted watermark fits into its column. -/
theorem StoreRun.accepted_bounded (hrun : StoreRun jsonb .empty τ s) {id : Uuid}
    (hcp : cp ∈ acceptedFor τ id) : cp.watermark < Store.stepIndexBound := by
  obtain ⟨e, he, haccepted⟩ := List.mem_filterMap.mp (List.mem_filter.mp hcp).1
  obtain ⟨err, herr, hread, -⟩ | ⟨ids, -, happly⟩ := StoreOp.perform_cases (hrun.mem_perform he)
  · simp [accepted_eq_none herr hread] at haccepted
  · rw [accepted_eq_some haccepted] at happly
    obtain ⟨t, -, hcond⟩ := exists_row_of_saveCheckpoint happly
    exact (acceptCheckpoint_cond hcond).2.2.1

/-- The largest of strictly increasing watermarks is the last one. -/
theorem max?_watermark {l : List CheckpointPayload}
    (hmono : (l.map CheckpointPayload.watermark).Pairwise (· < ·)) :
    (l.map CheckpointPayload.watermark).max? = l.getLast?.map CheckpointPayload.watermark := by
  cases hlast : l.getLast? with
  | none =>
      rw [List.getLast?_eq_none_iff] at hlast
      simp [hlast]
  | some last =>
      rw [Option.map_some, List.max?_eq_some_iff]
      refine ⟨List.mem_map_of_mem (List.mem_of_getLast? hlast), ?_⟩
      intro w hw
      rcases List.mem_map.mp hw with ⟨cp, hcp, rfl⟩
      exact le_of_getLast? hmono hlast hcp

/-- After any run from the empty store: the watermark of a record's last checkpoint
is the largest one accepted for the task, accepted watermarks increase strictly,
every accepted checkpoint passed all checks, the history holds exactly the accepted
checkpoints, and a rejected checkpoint changed nothing. -/
theorem StoreRun.checkpoints (hrun : StoreRun jsonb .empty τ s) :
    (∀ id t, s.task id = some t → t.lastCheckpoint.map CheckpointPayload.watermark =
      ((acceptedFor τ id).map CheckpointPayload.watermark).max?) ∧
    (∀ id, ((acceptedFor τ id).map CheckpointPayload.watermark).Pairwise (· < ·)) ∧
    (∀ id, ∀ cp ∈ acceptedFor τ id, taskCheckpointWatermarkConsistent (some cp) = true ∧
      taskCheckpointEntriesBelongToTask (some cp) = true ∧
      taskCheckpointEntriesHaveStableIDs (some cp) = true) ∧
    (∀ id, s.checkpointsOf id = (acceptedFor τ id).map CheckpointPayload.reload) ∧
    ∀ e ∈ τ, ∀ cp, e.op = .saveCheckpoint cp → e.accepted = none → e.after = e.before := by
  have hinv := hrun.checkpointInvariant
  refine ⟨?_, hinv.increasing, ?_, hinv.history, ?_⟩
  · intro id t ht
    rw [hinv.last id t ht, max?_watermark (hinv.increasing id), Option.map_map]
    congr 1
  · intro id cp hcp
    exact (taskRecoveryCheckpointUsable_iff.mp (hinv.usable id cp hcp)).2
  · intro e he cp hop hnone
    rcases StoreOp.perform_cases (hrun.mem_perform he) with ⟨-, -, -, hsame⟩ | ⟨ids, heffect, -⟩
    · exact hsame
    · have hrecorded := recorded_eq_accepted heffect
      rw [hop, hnone] at hrecorded
      cases hrecorded

end Runs

theorem StoreRun.checkpoints_two_deltas :
    ∃ τ s t, StoreRun id .empty τ s ∧ s.task 7 = some t ∧
      acceptedFor τ 7 = [singleStepDelta 7 "rt-a" 0, singleStepDelta 7 "rt-a" 1] ∧
      t.lastCheckpoint.map CheckpointPayload.watermark = some 1 := by
  let ops : List StoreOp := [.createTask sampleTask none, .markDispatched 7 "rt-a" "http://rt-a",
    .saveCheckpoint (singleStepDelta 7 "rt-a" 0), .saveCheckpoint (singleStepDelta 7 "rt-a" 1),
    .saveCheckpoint (singleStepDelta 7 "rt-a" 0)]
  have hrun := storeRun_executeAll id .empty ops
  have hmax := (StoreRun.checkpoints hrun).1 7
  have hrow : (executeAll id .empty ops).2.task 7 = some { sampleTask with
      status := .checkpointed, runtimeID := some "rt-a", runtimeEndpoint := some "http://rt-a"
      lastCheckpoint := some (singleStepDelta 7 "rt-a" 1).reload } := by decide +kernel
  have hacc : acceptedFor (executeAll id .empty ops).1 7 =
      [singleStepDelta 7 "rt-a" 0, singleStepDelta 7 "rt-a" 1] := by decide +kernel
  refine ⟨_, _, _, hrun, hrow, hacc, ?_⟩
  rw [hmax _ hrow, hacc]
  rfl

end Igris
