import Igris.Store.Effects

/-!
# The task lifecycle

The statuses from which each update is allowed are written twice: in the
conditions of the update statements and in the predicates the handlers consult.
This file shows that the two agree and that finished tasks stay as they are.

Main results:

- Theorem {lit}`lifecycleAllows_of_cond`: every statement that sets a status moves
  along an edge of the lifecycle.
- Theorem {lit}`StoreRun.lifecycle`: over whole runs, finished tasks keep status,
  runtime and checkpoint, and every status change is an edge of the lifecycle.
-/

namespace Igris

/-- Statuses from which a status may be reached, by the predicate that guards the
move: dispatch, runtime mutation, cancellation, or the approval gate. -/
def lifecycleAllows (target source : TaskRecordStatus) : Bool :=
  match target with
  | .pending => false
  | .dispatched => taskAllowsDispatch source || taskAwaitingApproval source
  | .checkpointed => taskAllowsRuntimeMutation source
  | .completed => taskAllowsRuntimeMutation source
  | .failed => taskAllowsRuntimeMutation source || taskAwaitingApproval source
  | .recovering => taskAllowsRuntimeMutation source
  | .canceled => taskAllowsCancellation source
  | .approvalRequired => taskAllowsDispatch source

/-- No move leaves a terminal status. -/
theorem not_terminal_of_lifecycleAllows {target source : TaskRecordStatus}
    (h : lifecycleAllows target source = true) : source.terminal = false := by
  cases target <;> cases source <;> first | rfl | cases h

variable {t : TaskRecord}

theorem hasStatus_iff {taskID : Uuid} {allowed : List TaskRecordStatus} :
    hasStatus taskID allowed t = true ↔ t.taskID = taskID ∧ t.status ∈ allowed := by
  simp [hasStatus]

theorem lifecycleAllows_of_hasStatus {taskID : Uuid} (target : TaskRecordStatus)
    (allowed : List TaskRecordStatus) (hall : ∀ st ∈ allowed, lifecycleAllows target st = true)
    (h : hasStatus taskID allowed t = true) : lifecycleAllows target t.status = true :=
  hall t.status (hasStatus_iff.mp h).2

/-- A statement that meets a row moves it along the lifecycle, or only writes
execution artifacts. -/
theorem lifecycleAllows_of_cond {op : StoreOp} (h : op.rowUpdate.cond t = true) :
    lifecycleAllows (op.rowUpdate.set t).status t.status = true ∨
      ∃ taskID envelope receipt, op = .saveExecutionArtifacts taskID envelope receipt := by
  cases op with
  | createTask task bound => simp [StoreOp.rowUpdate, Update.never] at h
  | saveExecutionArtifacts taskID envelope receipt => exact Or.inr ⟨taskID, envelope, receipt, rfl⟩
  | markDispatched | markApprovalRequired | markCompleted | markFailedWithDetails | markCanceled =>
      exact Or.inl (lifecycleAllows_of_hasStatus _ _ (of_decide_eq_true rfl) h)
  | saveCheckpoint cp =>
      simp only [StoreOp.rowUpdate, Update.acceptCheckpoint, Bool.and_eq_true] at h
      exact Or.inl (lifecycleAllows_of_hasStatus _ _ (of_decide_eq_true rfl) h.2)
  | markRecovering runtimeID =>
      simp only [StoreOp.rowUpdate, Update.markRecovering, Bool.and_eq_true, List.contains_iff_mem]
        at h
      have hall : ∀ st ∈ [TaskRecordStatus.dispatched, .checkpointed],
          lifecycleAllows .recovering st = true := by decide
      exact Or.inl (hall _ h.2)
  | markApprovedDispatched | markApprovalRejected =>
      simp only [StoreOp.rowUpdate, Update.markApprovedDispatched, Update.markApprovalRejected,
        Bool.and_eq_true] at h
      exact Or.inl (lifecycleAllows_of_hasStatus _ _ (of_decide_eq_true rfl) h.1)

/-- Status, runtime assignment and last checkpoint are the same in both records. -/
structure SameProgress (t t' : TaskRecord) : Prop where
  status : t'.status = t.status
  runtimeID : t'.runtimeID = t.runtimeID
  runtimeEndpoint : t'.runtimeEndpoint = t.runtimeEndpoint
  lastCheckpoint : t'.lastCheckpoint = t.lastCheckpoint

theorem SameProgress.refl (t : TaskRecord) : SameProgress t t :=
  ⟨rfl, rfl, rfl, rfl⟩

theorem SameProgress.trans {t' t'' : TaskRecord} (h : SameProgress t t')
    (h' : SameProgress t' t'') : SameProgress t t'' where
  status := h'.status.trans h.status
  runtimeID := h'.runtimeID.trans h.runtimeID
  runtimeEndpoint := h'.runtimeEndpoint.trans h.runtimeEndpoint
  lastCheckpoint := h'.lastCheckpoint.trans h.lastCheckpoint

/-- No operation moves a finished task. -/
theorem sameProgress_of_terminal {op : StoreOp} (h : t.status.terminal = true) :
    SameProgress t (op.rowUpdate.run t) := by
  by_cases hcond : op.rowUpdate.cond t = true
  · rw [Update.run_of_cond hcond]
    rcases lifecycleAllows_of_cond hcond with hedge | ⟨taskID, envelope, receipt, rfl⟩
    · rw [not_terminal_of_lifecycleAllows hedge] at h
      cases h
    · exact ⟨rfl, rfl, rfl, rfl⟩
  · rw [Update.run_of_not_cond hcond]
    exact SameProgress.refl t

/-! ## Whole runs -/

section Runs

variable {jsonb : TaskDefinition → TaskDefinition} {s s' : Store} {op : StoreOp}
  {answer : StoreAnswer} {τ : List StoreEvent}

/-- An operation keeps a record or rewrites it by its row update. -/
theorem task_perform (h : op.perform jsonb answer s = some s') {id : Uuid}
    (ht : s.task id = some t) :
    s'.task id = some t ∨ s'.task id = some (op.rowUpdate.run t) := by
  rcases op.perform_cases h with ⟨err, -, -, rfl⟩ | ⟨ids, -, happly⟩
  · exact Or.inl ht
  · exact Or.inr (StoreOp.task_apply happly ht)

/-- Records are never removed. -/
theorem task_eq_none_of_perform (h : op.perform jsonb answer s = some s') {id : Uuid}
    (hnone : s'.task id = none) : s.task id = none := by
  cases hold : s.task id with
  | none => rfl
  | some t =>
      rcases task_perform h hold with hkept | hmoved
      · rw [hkept] at hnone
        cases hnone
      · rw [hmoved] at hnone
        cases hnone

theorem StoreRun.terminal_stays (hrun : StoreRun jsonb s τ s') {id : Uuid}
    (ht : s.task id = some t) (hterminal : t.status.terminal = true) :
    ∃ t', s'.task id = some t' ∧ SameProgress t t' := by
  induction hrun with
  | nil => exact ⟨t, ht, SameProgress.refl t⟩
  | snoc _ hop ih =>
      rcases ih with ⟨t₁, ht₁, hsame⟩
      rcases task_perform hop ht₁ with hkept | hmoved
      · exact ⟨t₁, hkept, hsame⟩
      · have hterminal₁ : t₁.status.terminal = true := by rw [hsame.status, hterminal]
        exact ⟨_, hmoved, hsame.trans (sameProgress_of_terminal hterminal₁)⟩

/-- A status change in one operation is an edge of the lifecycle. -/
theorem lifecycleAllows_of_perform (h : op.perform jsonb answer s = some s') {id : Uuid}
    {t' : TaskRecord} (ht : s.task id = some t) (ht' : s'.task id = some t')
    (hne : t.status ≠ t'.status) : lifecycleAllows t'.status t.status = true := by
  rcases task_perform h ht with hkept | hmoved
  · rw [hkept] at ht'
    cases ht'
    exact absurd rfl hne
  · rw [hmoved] at ht'
    cases ht'
    by_cases hcond : op.rowUpdate.cond t = true
    · rw [Update.run_of_cond hcond] at hne ⊢
      rcases lifecycleAllows_of_cond hcond with hedge | ⟨taskID, envelope, receipt, rfl⟩
      · exact hedge
      · exact absurd rfl hne
    · rw [Update.run_of_not_cond hcond] at hne
      exact absurd rfl hne

theorem StoreRun.mem_perform (hrun : StoreRun jsonb s τ s') {e : StoreEvent} (he : e ∈ τ) :
    e.op.perform jsonb e.answer e.before = some e.after := by
  induction hrun with
  | nil => simp at he
  | snoc _ hop ih =>
      rcases List.mem_append.mp he with he | he
      · exact ih he
      · rw [List.mem_singleton] at he
        subst he
        exact hop

/-- Whatever operations are executed in whatever order, a task that is completed,
failed or canceled keeps its status, runtime assignment and last checkpoint, and
every status change follows the lifecycle. -/
theorem StoreRun.lifecycle (hrun : StoreRun jsonb s τ s') :
    (∀ id t, s.task id = some t → t.status.terminal = true →
      ∃ t', s'.task id = some t' ∧ SameProgress t t') ∧
    ∀ e ∈ τ, ∀ id t t', e.before.task id = some t → e.after.task id = some t' →
      t.status ≠ t'.status → lifecycleAllows t'.status t.status = true :=
  ⟨fun _ _ ht hterminal => hrun.terminal_stays ht hterminal,
    fun _ he _ _ _ ht ht' hne => lifecycleAllows_of_perform (hrun.mem_perform he) ht ht' hne⟩

end Runs

/-- A task of one tenant as it is submitted. -/
def sampleTask : TaskRecord where
  taskID := 7
  tenantID := "acme"
  status := .pending
  taskDefinition := { text := "", taskType := .agentWorkflow }
  idempotencyKey := "order-1"

/-- The store after a task was created, dispatched and completed. -/
def completedStore : Store :=
  (executeAll id .empty
    [.createTask sampleTask none, .markDispatched 7 "rt-a" "http://rt-a", .markCompleted 7]).2

theorem StoreRun.lifecycle_completed :
    ∃ t', (executeAll id completedStore [.markCanceled 7, .markRecovering "rt-a"]).2.task 7 =
      some t' ∧ t'.status = .completed ∧ t'.runtimeID = some "rt-a" := by
  have hlifecycle := StoreRun.lifecycle
    (storeRun_executeAll id completedStore [.markCanceled 7, .markRecovering "rt-a"])
  have hrow : completedStore.task 7 = some { sampleTask with
      status := .completed, runtimeID := some "rt-a", runtimeEndpoint := some "http://rt-a" } := by
    decide
  rcases hlifecycle.1 7 _ hrow (by decide) with ⟨t', ht', hsame⟩
  exact ⟨t', ht', hsame.status, hsame.runtimeID⟩

/-- The predicates on dispatch, runtime mutation, redispatch and cancellation do
not describe the whole lifecycle: an approval moves a task out of a status that
none of them allows to leave. -/
theorem markApprovedDispatched_outside_taskAllows :
    ∃ τ s', StoreRun id .empty τ s' ∧ ∃ e ∈ τ, ∃ t t', e.before.task 7 = some t ∧
      e.after.task 7 = some t' ∧ t.status = .approvalRequired ∧ t'.status = .dispatched ∧
      taskAllowsDispatch t.status = false ∧ taskAllowsRuntimeMutation t.status = false ∧
      taskAllowsRecoveryRedispatch t.status = false ∧ taskAllowsCancellation t.status = false := by
  let ops : List StoreOp := [.createTask sampleTask none, .markApprovalRequired 7 "approval",
    .markApprovedDispatched 7 "acme" "rt-a" "http://rt-a"]
  refine ⟨_, _, storeRun_executeAll id .empty ops, ?_⟩
  refine ⟨(executeAll id .empty ops).1[2], List.getElem_mem _, ?_⟩
  refine ⟨{ sampleTask with status := .approvalRequired, failureReason := some "approval" },
    { sampleTask with
      status := .dispatched, runtimeID := some "rt-a", runtimeEndpoint := some "http://rt-a" },
    ?_⟩
  decide

end Igris
