import Igris.Store.Operations

/-!
# What a store operation does to a row

Whatever an operation reads and writes, its effect on the record of one task is a
conditional update decided by that record alone.  The lemmas of this file say so
once; invariants of the store follow from them without looking at the operations
again.

Main results:

- Theorem {lit}`StoreOp.perform_cases`: an operation reports an error and changes
  nothing, or takes effect.
- Theorem {lit}`StoreOp.task_apply`: the record of a task after an operation.
- Theorem {lit}`StoreOp.mem_ids_iff`: which tasks an operation reports.
- Theorem {lit}`StoreOp.walCheckpoints_apply`: the history after an operation.
-/

namespace Igris

open Relational

/-! ## The row's view of an operation -/

/-- The checkpoint transaction as seen by a row: the checks on the checkpoint, the
comparison with the stored one and the update statement in one condition. -/
def Update.acceptCheckpoint (cp : CheckpointPayload) : Update where
  cond := fun t =>
    taskRecoveryCheckpointUsable cp.taskID (some cp) &&
      taskCheckpointAdvances t.lastCheckpoint (some cp) &&
      decide (cp.watermark < Store.stepIndexBound) &&
      hasStatus cp.taskID [.dispatched, .checkpointed, .recovering] t
  set := (recordCheckpoint cp).set

namespace StoreOp

/-- The statement an operation amounts to for a row that exists. -/
def rowUpdate : StoreOp → Update
  | createTask _ _ => .never
  | markDispatched taskID runtimeID endpoint => .markDispatched taskID runtimeID endpoint
  | saveCheckpoint cp => .acceptCheckpoint cp
  | markCompleted taskID => .markCompleted taskID
  | markFailedWithDetails taskID reason details => .markFailedWithDetails taskID reason details
  | markCanceled taskID => .markCanceled taskID
  | markRecovering runtimeID => .markRecovering runtimeID
  | markApprovalRequired taskID reason => .markApprovalRequired taskID reason
  | markApprovedDispatched taskID tenantID runtimeID endpoint =>
      .markApprovedDispatched taskID tenantID runtimeID endpoint
  | markApprovalRejected taskID tenantID reason details =>
      .markApprovalRejected taskID tenantID reason details
  | saveExecutionArtifacts taskID envelope receipt =>
      .saveExecutionArtifacts taskID envelope receipt

/-- The history rows an operation appends when it takes effect. -/
def recorded : StoreOp → List CheckpointPayload
  | saveCheckpoint cp => [cp.reload]
  | _ => []

end StoreOp

variable {t : TaskRecord} {s : Store} {cp : CheckpointPayload}

namespace Update

theorem run_of_cond {u : Update} (h : u.cond t = true) : u.run t = u.set t :=
  if_pos h

theorem run_of_not_cond {u : Update} (h : ¬u.cond t = true) : u.run t = t :=
  if_neg h

end Update

namespace Store

theorem task_update (s : Store) (u : Update) (taskID : Uuid) :
    (s.update u).task taskID = (s.task taskID).map u.run :=
  Table.get_updateWhere s.tasks u.cond u.set u.taskID taskID

@[simp]
theorem task_insertWalCheckpoint (s : Store) (cp : CheckpointPayload) (taskID : Uuid) :
    (s.insertWalCheckpoint cp).task taskID = s.task taskID :=
  rfl

variable {u : Update} {taskID : Uuid}

theorem mem_affected : taskID ∈ s.affected u ↔ ∃ t, s.task taskID = some t ∧ u.cond t = true :=
  Table.mem_selected

theorem taskID_of_task (h : s.task taskID = some t) : t.taskID = taskID :=
  Table.key_of_get h

/-- A transition succeeds exactly when it meets a row. -/
theorem transition_cases (s : Store) (u : Update) :
    (s.affected u = [] ∧ s.transition u = (.error .taskTransitionRejected, s)) ∨
      (s.affected u ≠ [] ∧ s.transition u = (.ok (s.affected u), s.update u)) := by
  unfold transition
  split <;> rename_i h
  · exact Or.inl ⟨h, rfl⟩
  · exact Or.inr ⟨h, rfl⟩

variable {s' : Store}

theorem transition_eq_ok {ids : List Uuid} (h : s.transition u = (.ok ids, s')) :
    ids = s.affected u ∧ s' = s.update u := by
  rcases s.transition_cases u with ⟨-, heq⟩ | ⟨-, heq⟩
  · rw [heq] at h
    cases h
  · rw [heq] at h
    cases h
    exact ⟨rfl, rfl⟩

/-- A statement on one task meets at most the row of that task. -/
theorem affected_eq_singleton (honly : ∀ t, u.cond t = true → t.taskID = taskID)
    (hne : s.affected u ≠ []) : s.affected u = [taskID] := by
  have hall : ∀ id ∈ s.affected u, id = taskID := by
    intro id hid
    rcases mem_affected.mp hid with ⟨t, ht, hcond⟩
    rw [← taskID_of_task ht, honly t hcond]
  have hnodup : (s.affected u).Nodup := Table.nodup_selected s.tasks u.cond
  cases haff : s.affected u with
  | nil => exact absurd haff hne
  | cons id rest =>
      rw [haff] at hall hnodup
      have hid := hall id List.mem_cons_self
      cases rest with
      | nil => rw [hid]
      | cons id' rest =>
          have hid' := hall id' (by simp)
          rw [List.nodup_cons] at hnodup
          exact absurd (by simp [hid, hid']) hnodup.1

theorem affected_eq_nil (honly : ∀ t, u.cond t = true → t.taskID = taskID)
    (hrow : ∀ t, s.task taskID = some t → ¬u.cond t = true) : s.affected u = [] := by
  apply List.eq_nil_iff_forall_not_mem.mpr
  intro id hid
  rcases mem_affected.mp hid with ⟨t, ht, hcond⟩
  have hid : id = taskID := by rw [← taskID_of_task ht, honly t hcond]
  exact hrow t (hid ▸ ht) hcond

theorem taskID_of_acceptCheckpoint (h : (Update.acceptCheckpoint cp).cond t = true) :
    t.taskID = cp.taskID := by
  simp only [Update.acceptCheckpoint, hasStatus, Bool.and_eq_true, decide_eq_true_eq] at h
  exact h.2.1

theorem taskID_of_recordCheckpoint (h : (Update.recordCheckpoint cp).cond t = true) :
    t.taskID = cp.taskID := by
  simp only [Update.recordCheckpoint, hasStatus, Bool.and_eq_true, decide_eq_true_eq] at h
  exact h.1

/-- The checkpoint transaction takes effect exactly when the row accepts. -/
theorem saveCheckpoint_cases (s : Store) (cp : CheckpointPayload) :
    (s.affected (.acceptCheckpoint cp) = [] ∧
        ∃ err, s.saveCheckpoint cp = (.error err, s) ∧ err ≠ .resultUnread) ∨
      (s.affected (.acceptCheckpoint cp) = [cp.taskID] ∧ s.saveCheckpoint cp =
        (.ok [cp.taskID], (s.update (.recordCheckpoint cp)).insertWalCheckpoint cp.reload)) := by
  have hreject : (∀ t, s.task cp.taskID = some t → ¬(Update.acceptCheckpoint cp).cond t = true) →
      s.affected (.acceptCheckpoint cp) = [] :=
    affected_eq_nil fun t => taskID_of_acceptCheckpoint
  have hcond : ∀ t, (Update.acceptCheckpoint cp).cond t = true ↔
      (taskRecoveryCheckpointUsable cp.taskID (some cp) = true ∧
        taskCheckpointAdvances t.lastCheckpoint (some cp) = true ∧
        cp.watermark < stepIndexBound ∧ (Update.recordCheckpoint cp).cond t = true) := by
    intro t
    simp only [Update.acceptCheckpoint, Update.recordCheckpoint, Bool.and_eq_true,
      decide_eq_true_eq, and_assoc]
  -- one early exit after the other, in the order of the source
  unfold saveCheckpoint
  by_cases husable : taskRecoveryCheckpointUsable cp.taskID (some cp) = true
  · rcases taskRecoveryCheckpointUsable_iff.mp husable with ⟨-, hwatermark, hbelong, hstable⟩
    simp only [hwatermark, hbelong, hstable, Bool.not_true, Bool.false_eq_true, if_false]
    cases hrow : s.task cp.taskID with
    | none => exact Or.inl ⟨hreject (by simp [hrow]), _, rfl, by simp⟩
    | some current =>
        simp only [Option.some.injEq, forall_eq', hrow, hcond] at hreject
        by_cases hadv : taskCheckpointAdvances current.lastCheckpoint (some cp) = true
        · simp only [hadv, Bool.not_true, Bool.false_eq_true, if_false]
          rcases s.transition_cases (.recordCheckpoint cp) with ⟨hnil, heq⟩ | ⟨hne, heq⟩
          · have hmiss : ¬(Update.recordCheckpoint cp).cond current = true := by
              intro hmeets
              have hmem := mem_affected.mpr ⟨current, hrow, hmeets⟩
              simp [hnil] at hmem
            rw [heq]
            exact Or.inl ⟨hreject fun h => hmiss h.2.2.2, _, rfl, by simp⟩
          · have hids := affected_eq_singleton (fun t => taskID_of_recordCheckpoint) hne
            have hmeets : (Update.recordCheckpoint cp).cond current = true := by
              rcases mem_affected.mp (hids ▸ List.mem_singleton_self cp.taskID) with ⟨t, ht, hmeets⟩
              rw [hrow] at ht
              cases ht
              exact hmeets
            rw [heq, hids]
            by_cases hbound : cp.watermark < stepIndexBound
            · refine Or.inr ⟨?_, by simp only [hbound, if_true]⟩
              apply affected_eq_singleton fun t => taskID_of_acceptCheckpoint
              apply List.ne_nil_of_mem
              exact mem_affected.mpr ⟨current, hrow, (hcond current).mpr
                ⟨husable, hadv, hbound, hmeets⟩⟩
            · simp only [hbound, if_false]
              exact Or.inl ⟨hreject fun h => hbound h.2.2.1, _, rfl, by simp⟩
        · simp only [hadv, Bool.not_false, if_true]
          exact Or.inl ⟨hreject fun h => hadv h.2.1, _, rfl, by simp⟩
  · refine Or.inl ⟨hreject fun t _ h => husable ((hcond t).mp h).1, ?_⟩
    split
    · exact ⟨_, rfl, by simp⟩
    · split
      · exact ⟨_, rfl, by simp⟩
      · split
        · exact ⟨_, rfl, by simp⟩
        · rename_i hwatermark hbelong hstable
          simp only [Bool.not_eq_true', Bool.not_eq_false] at hwatermark hbelong hstable
          exact absurd (taskRecoveryCheckpointUsable_iff.mpr ⟨rfl, hwatermark, hbelong, hstable⟩)
            husable

/-- The bound-run rows that go with a new task. -/
def boundRowsOf (task : TaskRecord) (bound : Option BoundActionRunIdentity) : List BoundRun :=
  (bound.map fun identity => ⟨task.taskID, task.tenantID, identity⟩).toList

theorem insertBoundActionRun_eq_ok {task : TaskRecord} {bound : BoundActionRunIdentity}
    (h : insertBoundActionRun task bound s = .ok s') :
    s'.tasks = s.tasks ∧ s'.walCheckpoints = s.walCheckpoints ∧
      s'.boundRuns.rows = s.boundRuns.rows ++ [⟨task.taskID, task.tenantID, bound⟩] := by
  unfold insertBoundActionRun at h
  dsimp only at h
  split at h
  · cases h
  · split at h
    · cases h
    · split at h
      · cases h
        exact ⟨rfl, rfl, rfl⟩
      · cases h

theorem insertBoundActionRun_ne_unread (task : TaskRecord) (bound : BoundActionRunIdentity)
    (s : Store) : insertBoundActionRun task bound s ≠ .error .resultUnread := by
  unfold insertBoundActionRun
  dsimp only
  split
  · simp
  · split
    · simp
    · split <;> simp

/-- A new task is refused as a duplicate, refused with an error, or inserted. -/
theorem createTask_cases (jsonb : TaskDefinition → TaskDefinition) (task : TaskRecord)
    (bound : Option BoundActionRunIdentity) (s : Store) :
    (task.tenantKey ∈ s.tasks.rows.map TaskRecord.tenantKey ∧
        s.createTask jsonb task bound = (.ok [], s)) ∨
      (∃ err, s.createTask jsonb task bound = (.error err, s) ∧ err ≠ .resultUnread) ∨
      ∃ s', s.createTask jsonb task bound = (.ok [task.taskID], s') ∧
        s.task task.taskID = none ∧ task.tenantKey ∉ s.tasks.rows.map TaskRecord.tenantKey ∧
        (∀ id, s'.task id = if id = task.taskID then some (newRow jsonb task) else s.task id) ∧
        s'.tasks.rows = s.tasks.rows ++ [newRow jsonb task] ∧
        s'.walCheckpoints = s.walCheckpoints ∧
        s'.boundRuns.rows = s.boundRuns.rows ++ boundRowsOf task bound := by
  unfold createTask
  by_cases hkey : (newRow jsonb task).tenantKey ∈ s.tasks.rows.map TaskRecord.tenantKey
  · exact Or.inl ⟨hkey, dif_pos hkey⟩
  · by_cases hid : s.tasks.get (newRow jsonb task).taskID = none
    · have hget : ∀ id, (s.insertTask (newRow jsonb task) hid hkey).task id =
          if id = task.taskID then some (newRow jsonb task) else s.task id :=
        Table.get_insert s.tasks (newRow jsonb task) hid
      cases bound with
      | none =>
          exact Or.inr (Or.inr ⟨_, (dif_neg hkey).trans (dif_pos hid), hid, hkey, hget, rfl, rfl,
            (List.append_nil _).symm⟩)
      | some bound =>
          simp only [dif_neg hkey, dif_pos hid]
          cases hins : insertBoundActionRun task bound (s.insertTask (newRow jsonb task) hid hkey) with
          | error err =>
              exact Or.inr (Or.inl ⟨err, rfl, fun hunread =>
                insertBoundActionRun_ne_unread task bound _ (hunread ▸ hins)⟩)
          | ok s' =>
              rcases insertBoundActionRun_eq_ok hins with ⟨htasks, hwal, hbound⟩
              have hget' : ∀ id, s'.task id =
                  if id = task.taskID then some (newRow jsonb task) else s.task id := by
                intro id
                rw [← hget id]
                unfold Store.task
                rw [htasks]
              exact Or.inr (Or.inr ⟨s', rfl, hid, hkey, hget', by rw [htasks]; rfl, hwal, hbound⟩)
    · exact Or.inr (Or.inl ⟨.database, (dif_neg hkey).trans (dif_neg hid), by simp⟩)

/-- A key of a tenant is held by one row. -/
theorem eq_of_tenantKey {t' : TaskRecord} (ht : s.task t.taskID = some t)
    (ht' : s.task t'.taskID = some t') (hkey : t.tenantKey = t'.tenantKey) : t = t' :=
  List.inj_on_of_nodup_map s.tenantKeys (Table.mem_of_get ht) (Table.mem_of_get ht') hkey

/-- A business key of a tenant is held by one bound run. -/
theorem eq_of_businessKey {run run' : BoundRun} (hrun : run ∈ s.boundRuns.rows)
    (hrun' : run' ∈ s.boundRuns.rows) (hkey : run.businessKey = run'.businessKey) : run = run' :=
  List.inj_on_of_nodup_map s.businessKeys hrun hrun' hkey

theorem createTask_eq_ok {jsonb : TaskDefinition → TaskDefinition} {task : TaskRecord}
    {bound : Option BoundActionRunIdentity} {ids : List Uuid}
    (h : s.createTask jsonb task bound = (.ok ids, s')) :
    (task.tenantKey ∈ s.tasks.rows.map TaskRecord.tenantKey ∧ ids = [] ∧ s' = s) ∨
      (ids = [task.taskID] ∧ s.task task.taskID = none ∧
        task.tenantKey ∉ s.tasks.rows.map TaskRecord.tenantKey ∧
        (∀ id, s'.task id = if id = task.taskID then some (newRow jsonb task) else s.task id) ∧
        s'.tasks.rows = s.tasks.rows ++ [newRow jsonb task] ∧
        s'.walCheckpoints = s.walCheckpoints ∧
        s'.boundRuns.rows = s.boundRuns.rows ++ boundRowsOf task bound) := by
  rcases s.createTask_cases jsonb task bound with ⟨hkey, heq⟩ | ⟨err, heq, -⟩ | ⟨s₁, heq, hrest⟩
  · rw [heq] at h
    cases h
    exact Or.inl ⟨hkey, rfl, rfl⟩
  · rw [heq] at h
    cases h
  · rw [heq] at h
    cases h
    exact Or.inr ⟨rfl, hrest⟩

end Store

namespace StoreOp

variable {jsonb : TaskDefinition → TaskDefinition} {op : StoreOp} {s' : Store} {ids : List Uuid}
  {answer : StoreAnswer}

/-- The three ways in which an operation takes effect. -/
theorem apply_ok_cases (h : op.apply jsonb s = (.ok ids, s')) :
    (ids = s.affected op.rowUpdate ∧ s' = s.update op.rowUpdate ∧ op.recorded = [] ∧
        ∀ task bound, op ≠ .createTask task bound) ∨
      (∃ cp, op = .saveCheckpoint cp ∧ ids = [cp.taskID] ∧
        s.affected (.acceptCheckpoint cp) = [cp.taskID] ∧
        s' = (s.update (.recordCheckpoint cp)).insertWalCheckpoint cp.reload) ∨
      ∃ task bound, op = .createTask task bound ∧ s.createTask jsonb task bound = (.ok ids, s') := by
  cases op with
  | createTask task bound => exact Or.inr (Or.inr ⟨task, bound, rfl, h⟩)
  | saveCheckpoint cp =>
      rcases s.saveCheckpoint_cases cp with ⟨-, err, heq, -⟩ | ⟨haff, heq⟩
      · rw [apply, heq] at h
        cases h
      · rw [apply, heq] at h
        cases h
        exact Or.inr (Or.inl ⟨cp, rfl, rfl, haff, rfl⟩)
  | markRecovering | saveExecutionArtifacts =>
      cases h
      exact Or.inl ⟨rfl, rfl, rfl, by simp⟩
  | markDispatched | markCompleted | markFailedWithDetails | markCanceled | markApprovalRequired
  | markApprovedDispatched | markApprovalRejected =>
      rcases Store.transition_eq_ok h with ⟨hids, hs'⟩
      exact Or.inl ⟨hids, hs', rfl, by simp⟩

/-- An operation fails for a reason of its own and changes nothing, or succeeds. -/
theorem apply_cases (jsonb : TaskDefinition → TaskDefinition) (op : StoreOp) (s : Store) :
    (∃ err, op.apply jsonb s = (.error err, s) ∧ err ≠ .resultUnread) ∨
      ∃ ids s', op.apply jsonb s = (.ok ids, s') := by
  cases op with
  | createTask task bound =>
      rcases s.createTask_cases jsonb task bound with ⟨-, heq⟩ | herr | ⟨s', heq, -⟩
      · exact Or.inr ⟨_, _, heq⟩
      · exact Or.inl herr
      · exact Or.inr ⟨_, _, heq⟩
  | saveCheckpoint cp =>
      rcases s.saveCheckpoint_cases cp with ⟨-, herr⟩ | ⟨-, heq⟩
      · exact Or.inl herr
      · exact Or.inr ⟨_, _, heq⟩
  | markRecovering | saveExecutionArtifacts => exact Or.inr ⟨_, _, rfl⟩
  | markDispatched | markCompleted | markFailedWithDetails | markCanceled | markApprovalRequired
  | markApprovedDispatched | markApprovalRejected =>
      rcases s.transition_cases _ with ⟨-, heq⟩ | ⟨-, heq⟩
      · exact Or.inl ⟨_, heq, nofun⟩
      · exact Or.inr ⟨_, _, heq⟩

/-- An operation that reports an error changes nothing, and its outcome is known. -/
theorem apply_of_error {err : StoreError} (h : (op.apply jsonb s).1 = .error err) :
    err ≠ .resultUnread ∧ (op.apply jsonb s).2 = s := by
  rcases apply_cases jsonb op s with ⟨err', heq, hknown⟩ | ⟨ids, s', heq⟩
  · rw [heq] at h ⊢
    cases h
    exact ⟨hknown, rfl⟩
  · rw [heq] at h
    cases h

/-- The answer reports that the operation took effect, or leaves it open. -/
def Effective (answer : StoreAnswer) (ids : List Uuid) : Prop :=
  answer = .ok ids ∨ answer = .error .resultUnread

/-- An operation changes nothing and reports an error, or takes effect. -/
theorem perform_cases (h : op.perform jsonb answer s = some s') :
    (∃ err, answer = .error err ∧ err ≠ .resultUnread ∧ s' = s) ∨ ∃ ids, Effective answer ids ∧
      op.apply jsonb s = (.ok ids, s') := by
  unfold perform at h
  split at h
  · cases h
    exact Or.inl ⟨_, rfl, by simp, rfl⟩
  · split at h <;> rename_i heq
    · cases h
      exact Or.inr ⟨_, Or.inr rfl, heq⟩
    · cases h
  · rename_i hunread
    split at h <;> rename_i hanswer
    · cases h
      cases answer with
      | error err => exact Or.inl ⟨err, rfl, fun heq => hunread (heq ▸ rfl), (apply_of_error hanswer).2⟩
      | ok ids => exact Or.inr ⟨ids, Or.inl rfl, Prod.ext hanswer rfl⟩
    · cases h

/-- An operation answered with the identifiers it affected took effect. -/
theorem apply_of_perform_ok (h : op.perform jsonb (.ok ids) s = some s') :
    op.apply jsonb s = (.ok ids, s') := by
  rcases perform_cases h with ⟨err, heq, -⟩ | ⟨ids', heq | heq, happly⟩
  · cases heq
  · cases heq
    exact happly
  · cases heq

variable {id : Uuid}

/-- On the row of its task, and on no other, the checkpoint transaction does what
its row update says. -/
theorem run_recordCheckpoint (haff : s.affected (.acceptCheckpoint cp) = [cp.taskID])
    (ht : s.task id = some t) :
    (Update.recordCheckpoint cp).run t = (Update.acceptCheckpoint cp).run t := by
  rcases Store.mem_affected.mp (haff ▸ List.mem_singleton_self cp.taskID) with ⟨t', ht', hcond⟩
  by_cases hid : id = cp.taskID
  · subst hid
    rw [ht] at ht'
    cases ht'
    have hrecord : (Update.recordCheckpoint cp).cond t = true := by
      simp only [Update.acceptCheckpoint, Bool.and_eq_true] at hcond
      exact hcond.2
    rw [Update.run_of_cond hcond, Update.run_of_cond hrecord]
    rfl
  · have hne : ¬t.taskID = cp.taskID := fun heq => hid (Store.taskID_of_task ht ▸ heq)
    rw [Update.run_of_not_cond fun hc => hne (Store.taskID_of_recordCheckpoint hc),
      Update.run_of_not_cond fun hc => hne (Store.taskID_of_acceptCheckpoint hc)]

/-- An operation rewrites an existing record by its row update. -/
theorem task_apply (h : op.apply jsonb s = (.ok ids, s')) (ht : s.task id = some t) :
    s'.task id = some (op.rowUpdate.run t) := by
  rcases apply_ok_cases h with ⟨-, rfl, -⟩ | ⟨cp, rfl, -, haff, rfl⟩ | ⟨task, bound, rfl, hcreate⟩
  · rw [Store.task_update, ht]
    rfl
  · rw [Store.task_insertWalCheckpoint, Store.task_update, ht, Option.map_some,
      run_recordCheckpoint haff ht]
    rfl
  · have hrun : (createTask task bound).rowUpdate.run t = t := rfl
    rw [hrun]
    rcases Store.createTask_eq_ok hcreate with ⟨-, -, rfl⟩ | ⟨-, hfree, -, hget, -⟩
    · exact ht
    · have hne : id ≠ task.taskID := by
        rintro rfl
        rw [hfree] at ht
        cases ht
      rw [hget, if_neg hne, ht]

/-- A record that did not exist before was inserted. -/
theorem task_apply_of_none (h : op.apply jsonb s = (.ok ids, s')) (hnone : s.task id = none) :
    s'.task id = none ∨ ∃ task bound, op = .createTask task bound ∧ task.taskID = id ∧ ids = [id] ∧
      s'.task id = some (Store.newRow jsonb task) := by
  rcases apply_ok_cases h with ⟨-, rfl, -⟩ | ⟨cp, rfl, -, -, rfl⟩ | ⟨task, bound, rfl, hcreate⟩
  · rw [Store.task_update, hnone]
    exact Or.inl rfl
  · rw [Store.task_insertWalCheckpoint, Store.task_update, hnone]
    exact Or.inl rfl
  · rcases Store.createTask_eq_ok hcreate with ⟨-, -, rfl⟩ | ⟨rfl, -, -, hget, -⟩
    · exact Or.inl hnone
    · by_cases hid : id = task.taskID
      · exact Or.inr ⟨task, bound, rfl, hid.symm, by rw [hid], by rw [hget, if_pos hid]⟩
      · exact Or.inl (by rw [hget, if_neg hid, hnone])

/-- A reported identifier is a row the statement met, or a new row. -/
theorem mem_ids (h : op.apply jsonb s = (.ok ids, s')) (hid : id ∈ ids) :
    (∃ t, s.task id = some t ∧ op.rowUpdate.cond t = true) ∨
      ∃ task bound, op = .createTask task bound ∧ task.taskID = id ∧ s.task id = none := by
  rcases apply_ok_cases h with ⟨rfl, -, -⟩ | ⟨cp, rfl, rfl, haff, -⟩ | ⟨task, bound, rfl, hcreate⟩
  · exact Or.inl (Store.mem_affected.mp hid)
  · exact Or.inl (Store.mem_affected.mp (haff ▸ hid))
  · rcases Store.createTask_eq_ok hcreate with ⟨-, rfl, -⟩ | ⟨rfl, hfree, -⟩
    · simp at hid
    · rw [List.mem_singleton] at hid
      subst hid
      exact Or.inr ⟨task, bound, rfl, rfl, hfree⟩

/-- No task is reported twice. -/
theorem nodup_ids (h : op.apply jsonb s = (.ok ids, s')) : ids.Nodup := by
  rcases apply_ok_cases h with ⟨rfl, -, -⟩ | ⟨cp, rfl, rfl, -, -⟩ | ⟨task, bound, rfl, hcreate⟩
  · exact Table.nodup_selected s.tasks _
  · exact List.nodup_singleton _
  · rcases Store.createTask_eq_ok hcreate with ⟨-, rfl, -⟩ | ⟨rfl, -⟩
    · exact List.nodup_nil
    · exact List.nodup_singleton _

/-- A row the statement meets is reported. -/
theorem mem_ids_of_cond (h : op.apply jsonb s = (.ok ids, s')) (ht : s.task id = some t)
    (hcond : op.rowUpdate.cond t = true) : id ∈ ids := by
  rcases apply_ok_cases h with ⟨rfl, -, -⟩ | ⟨cp, rfl, rfl, haff, -⟩ | ⟨task, bound, rfl, -⟩
  · exact Store.mem_affected.mpr ⟨t, ht, hcond⟩
  · rw [← haff]
    exact Store.mem_affected.mpr ⟨t, ht, hcond⟩
  · simp [rowUpdate, Update.never] at hcond

theorem walCheckpoints_apply (h : op.apply jsonb s = (.ok ids, s')) :
    s'.walCheckpoints = s.walCheckpoints ++ op.recorded := by
  rcases apply_ok_cases h with ⟨-, rfl, hrec, -⟩ | ⟨cp, rfl, -, -, rfl⟩ | ⟨task, bound, rfl, hcreate⟩
  · rw [hrec, List.append_nil]
    rfl
  · rfl
  · have hrec : (createTask task bound).recorded = [] := rfl
    rw [hrec, List.append_nil]
    rcases Store.createTask_eq_ok hcreate with ⟨-, -, rfl⟩ | ⟨-, -, -, -, -, hwal, -⟩
    · rfl
    · exact hwal

/-- Bound runs stay. -/
theorem mem_boundRuns_apply (h : op.apply jsonb s = (.ok ids, s')) {run : BoundRun}
    (hrun : run ∈ s.boundRuns.rows) : run ∈ s'.boundRuns.rows := by
  rcases apply_ok_cases h with ⟨-, rfl, -⟩ | ⟨cp, rfl, -, -, rfl⟩ | ⟨task, bound, rfl, hcreate⟩
  · exact hrun
  · exact hrun
  · rcases Store.createTask_eq_ok hcreate with ⟨-, -, rfl⟩ | ⟨-, -, -, -, -, -, hrows⟩
    · exact hrun
    · rw [hrows]
      exact List.mem_append_left _ hrun

end StoreOp

/-! ## Runs of operations -/

/-- One executed operation with the stores before and after it. -/
structure StoreEvent where
  before : Store
  op : StoreOp
  answer : StoreAnswer
  after : Store

/-- A sequence of operations.  Every operation is atomic, so the interleavings of
concurrent callers are such sequences. -/
inductive StoreRun (jsonb : TaskDefinition → TaskDefinition) :
    Store → List StoreEvent → Store → Prop where
  | nil (s : Store) : StoreRun jsonb s [] s
  | snoc {s s₁ s₂ : Store} {τ : List StoreEvent} {op : StoreOp} {answer : StoreAnswer}
      (hrun : StoreRun jsonb s τ s₁) (hop : op.perform jsonb answer s₁ = some s₂) :
      StoreRun jsonb s (τ ++ [⟨s₁, op, answer, s₂⟩]) s₂

/-- Execute operations one after the other, none of them refused by the database. -/
def executeAll (jsonb : TaskDefinition → TaskDefinition) :
    Store → List StoreOp → List StoreEvent × Store
  | s, [] => ([], s)
  | s, op :: ops =>
      let result := op.apply jsonb s
      let rest := executeAll jsonb result.2 ops
      (⟨s, op, result.1, result.2⟩ :: rest.1, rest.2)

theorem StoreOp.perform_apply (jsonb : TaskDefinition → TaskDefinition) (op : StoreOp) (s : Store) :
    op.perform jsonb (op.apply jsonb s).1 s = some (op.apply jsonb s).2 := by
  unfold StoreOp.perform
  split
  · rename_i hdb
    rw [(StoreOp.apply_of_error hdb).2]
  · rename_i hunread
    exact absurd rfl (StoreOp.apply_of_error hunread).1
  · rw [if_pos rfl]

theorem StoreRun.cons {jsonb : TaskDefinition → TaskDefinition} {s₁ s₂ : Store} {op : StoreOp}
    {answer : StoreAnswer} {τ : List StoreEvent} (hop : op.perform jsonb answer s = some s₁)
    (hrun : StoreRun jsonb s₁ τ s₂) : StoreRun jsonb s (⟨s, op, answer, s₁⟩ :: τ) s₂ := by
  induction hrun with
  | nil => exact StoreRun.snoc (StoreRun.nil s) hop
  | snoc _ hlast ih => exact StoreRun.snoc ih hlast

theorem storeRun_executeAll (jsonb : TaskDefinition → TaskDefinition) (s : Store)
    (ops : List StoreOp) :
    StoreRun jsonb s (executeAll jsonb s ops).1 (executeAll jsonb s ops).2 := by
  induction ops generalizing s with
  | nil => exact StoreRun.nil s
  | cons op ops ih => exact StoreRun.cons (op.perform_apply jsonb s) (ih _)

end Igris
