import Igris.System.Schedule

/-!
# The approval gate

A task whose definition requires human approval is held back until an approval
wins its transition, whatever other calls run at the same time.

Main results:

- Theorem {lit}`held_of_run`: before an approval wins, the task has never been
  dispatched and no recovery pass has taken it over.
- Theorem {lit}`SystemRun.approval_gate`: the task is sent to a runtime only after an
  approval won, at most one decision wins, and a task rejected or canceled before
  the approval is never sent.
-/

namespace Igris

open Concurrency Coordinator

/-- An approval of the task took effect. -/
def ApproveWins (id : Uuid) (e : SystemEvent) : Prop :=
  ∃ tid tenantID runtimeID endpoint answer ids, e = ⟨tid, .approve id tenantID,
    .store (.markApprovedDispatched id tenantID runtimeID endpoint), answer⟩ ∧
      StoreOp.Effective answer ids

/-- A rejection of the task took effect. -/
def RejectWins (id : Uuid) (e : SystemEvent) : Prop :=
  ∃ tid o tenantID reason details answer ids, e = ⟨tid, o,
    .store (.markApprovalRejected id tenantID reason details), answer⟩ ∧
      StoreOp.Effective answer ids

/-- A cancellation of the task took effect. -/
def CancelWins (id : Uuid) (e : SystemEvent) : Prop :=
  ∃ tid o answer ids, e = ⟨tid, o, .store (.markCanceled id), answer⟩ ∧
    StoreOp.Effective answer ids

/-- The task is sent to a runtime. -/
def Sends (id : Uuid) (e : SystemEvent) : Prop :=
  ∃ tid o req number, e = ⟨tid, o, .post req, number⟩ ∧ req.taskID = id

/-- Statuses of a task that was never released. -/
def unreleased : TaskRecordStatus → Bool
  | .pending | .approvalRequired | .failed | .canceled => true
  | _ => false

/-- The task has not been dispatched, and no recovery pass has taken it over. -/
structure Held (id : Uuid) (τ : List SystemEvent) (s : Store) : Prop where
  status : ∀ t, s.task id = some t → unreleased t.status = true
  spared : ∀ tid o runtimeID ids,
    (⟨tid, o, .store (.markRecovering runtimeID), .ok ids⟩ : SystemEvent) ∈ τ → id ∉ ids

section Gate

variable {jsonb : TaskDefinition → TaskDefinition} {runtimeAt : String → String} {store : Store}
  {calls : List Origin} {τ pre post : List SystemEvent} {c c' : SystemConfig} {e : SystemEvent}
  {id : Uuid}

variable {t : TaskRecord}

/-- A statement that releases a held row is a dispatch or an approval. -/
theorem released_cases {op : StoreOp} (hheld : unreleased t.status = true)
    (hcond : op.rowUpdate.cond t = true) :
    unreleased (op.rowUpdate.set t).status = true ∨
      (∃ runtimeID endpoint, op = .markDispatched t.taskID runtimeID endpoint) ∨
      ∃ tenantID runtimeID endpoint,
        op = .markApprovedDispatched t.taskID tenantID runtimeID endpoint := by
  cases op with
  | createTask => cases hcond
  | markDispatched taskID runtimeID endpoint =>
      rw [← (hasStatus_iff.mp hcond).1]
      exact Or.inr (Or.inl ⟨runtimeID, endpoint, rfl⟩)
  | markApprovedDispatched taskID tenantID runtimeID endpoint =>
      simp only [StoreOp.rowUpdate, Update.markApprovedDispatched, Bool.and_eq_true] at hcond
      rw [← (hasStatus_iff.mp hcond.1).1]
      exact Or.inr (Or.inr ⟨tenantID, runtimeID, endpoint, rfl⟩)
  | markCanceled | markApprovalRequired | markApprovalRejected => exact Or.inl rfl
  | saveExecutionArtifacts => exact Or.inl hheld
  | markCompleted | markFailedWithDetails =>
      have hstatus := (hasStatus_iff.mp hcond).2
      simp only [List.mem_cons, List.not_mem_nil, or_false] at hstatus
      rcases hstatus with hst | hst | hst <;> rw [hst] at hheld <;> cases hheld
  | saveCheckpoint cp =>
      simp only [StoreOp.rowUpdate, Update.acceptCheckpoint, Bool.and_eq_true] at hcond
      have hstatus := (hasStatus_iff.mp hcond.2).2
      simp only [List.mem_cons, List.not_mem_nil, or_false] at hstatus
      rcases hstatus with hst | hst | hst <;> rw [hst] at hheld <;> cases hheld
  | markRecovering runtimeID =>
      simp only [StoreOp.rowUpdate, Update.markRecovering, Bool.and_eq_true, List.contains_iff_mem,
        List.mem_cons, List.not_mem_nil, or_false] at hcond
      rcases hcond.2 with hst | hst <;> rw [hst] at hheld <;> cases hheld

/-- A recovery pass does not take over a held row. -/
theorem not_recovering_of_unreleased {runtimeID : String} (hheld : unreleased t.status = true) :
    ¬(StoreOp.markRecovering runtimeID).rowUpdate.cond t = true := by
  intro hcond
  rcases released_cases hheld hcond with hstill | ⟨_, _, heq⟩ | ⟨_, _, _, heq⟩
  · cases hstill
  · cases heq
  · cases heq

/-- One step keeps the task held, unless it is an approval. -/
theorem Held.step (hgated : ∀ e' ∈ τ, ∀ task, Inserts id task e' →
      policyHumanGated task.taskDefinition = true)
    (hissues : Issues runtimeAt (Answered τ e.tid e.origin) e.origin e.action)
    (hstep : Step (system jsonb runtimeAt) c e c') (hno : ¬ApproveWins id e)
    (h : Held id τ c.state.store) : Held id (τ ++ [e]) c'.state.store := by
  refine ⟨?_, ?_⟩
  · intro t' ht'
    cases ht : c.state.store.task id with
    | none =>
        rcases task_inserted_of_step hstep ht ht' with ⟨task, bound, answer, -, -, -, rfl⟩
        rfl
    | some t =>
        rcases task_cases_of_step hstep ht with hkept | ⟨op, answer, ids, he, heffect, -, hcond, hset⟩
        · rw [hkept, Option.some.injEq] at ht'
          exact ht' ▸ h.status t ht
        · rw [hset, Option.some.injEq] at ht'
          rw [← ht']
          have hid := Store.taskID_of_task ht
          rw [he] at hissues
          rcases released_cases (h.status t ht) hcond with
            hstill | ⟨runtimeID, endpoint, rfl⟩ | ⟨tenantID, runtimeID, endpoint, rfl⟩
          · exact hstill
          · -- the issuer created the task, which is gated, or took it over, which did not happen
            rcases markDispatched_issuer hissues with
              ⟨req, task, hcreated, htask, hopen⟩ | ⟨failed, ids', hanswer, hmem⟩
            · rcases hcreated.inserted with ⟨first, rest, hins⟩
              have hgate := hgated _ hins task ⟨htask.trans hid, _, _, _, _, _, rfl⟩
              rw [hopen] at hgate
              cases hgate
            · rw [hid] at hmem
              exact absurd hmem (h.spared _ _ _ _ hanswer)
          · have horigin := markApprovedDispatched_issuer hissues
            rw [hid] at he horigin
            refine absurd ⟨e.tid, tenantID, runtimeID, endpoint, answer, ids, ?_, heffect⟩ hno
            rw [← horigin]
            exact he
  · intro tid o runtimeID ids hmem hid
    rcases List.mem_append.mp hmem with hmem | hmem
    · exact h.spared tid o runtimeID ids hmem hid
    · rw [← List.mem_singleton.mp hmem] at hstep
      have happly := StoreOp.apply_of_perform_ok (perform_store hstep.perform_eq).1
      rcases StoreOp.mem_ids happly hid with ⟨t, ht, hcond⟩ | ⟨_, _, heq, -⟩
      · exact not_recovering_of_unreleased (h.status t ht) hcond
      · cases heq

/-- Before an approval wins, a gated task is held. -/
theorem held_of_run (h : SystemRun jsonb runtimeAt store calls τ c) (hnew : store.task id = none)
    (hgated : ∀ e ∈ τ, ∀ task, Inserts id task e → policyHumanGated task.taskDefinition = true)
    (hno : ∀ e ∈ τ, ¬ApproveWins id e) : Held id τ c.state.store := by
  have hinv : (∀ e ∈ τ, ∀ task, Inserts id task e → policyHumanGated task.taskDefinition = true) →
      (∀ e ∈ τ, ¬ApproveWins id e) → Held id τ c.state.store := by
    refine h.run.invariant (I := fun τ c => (∀ e ∈ τ, ∀ task, Inserts id task e →
      policyHumanGated task.taskDefinition = true) → (∀ e ∈ τ, ¬ApproveWins id e) →
        Held id τ c.state.store) ?_ ?_
    · intro _ _
      refine ⟨?_, by simp⟩
      intro t ht
      rw [show (initial runtimeAt store calls).state.store = store from rfl, hnew] at ht
      cases ht
    · intro τ c₁ e c₂ hrun ih hstep hgated hno
      have hprefix : SystemRun jsonb runtimeAt store calls (τ ++ e :: []) c₂ :=
        ⟨h.external, hrun.snoc hstep⟩
      have hbefore := fun e' he' => List.mem_append_left [e] (show e' ∈ τ from he')
      have hheld := ih (fun e' he' => hgated e' (hbefore e' he'))
        (fun e' he' => hno e' (hbefore e' he'))
      exact hheld.step (fun e' he' => hgated e' (hbefore e' he')) hprefix.issues hstep
        (hno e (by simp))
  exact hinv hgated hno

/-- A gated task is sent only after an approval won. -/
theorem SystemRun.approve_before_send
    (h : SystemRun jsonb runtimeAt store calls (pre ++ e :: post) c) (hnew : store.task id = none)
    (hgated : ∀ e' ∈ pre, ∀ task, Inserts id task e' → policyHumanGated task.taskDefinition = true)
    (hsend : Sends id e) : ∃ e' ∈ pre, ApproveWins id e' := by
  by_contra hno
  push Not at hno
  rcases hsend with ⟨tid, o, req, number, rfl, hreq⟩
  rcases post_issuer h.issues with ⟨task, checkpoint, ho, rfl⟩
  dsimp only at ho
  subst ho
  rcases h.dispatch_started with ⟨e₁, he₁, hgo⟩
  rcases h.run.split with ⟨c₁, -, hpre, -, -⟩
  rcases hpre.at_event he₁ with ⟨p, q, d₁, d₂, hsplit, hp, hstep, hq⟩
  have hprefix : SystemRun jsonb runtimeAt store calls (p ++ e₁ :: q) c₁ :=
    ⟨h.external, hsplit ▸ hpre⟩
  have hsub : ∀ e' ∈ p, e' ∈ pre := fun e' he' => hsplit ▸ List.mem_append_left _ he'
  have hheld : Held id p d₁.state.store :=
    held_of_run ⟨h.external, hp⟩ hnew (fun e' he' => hgated e' (hsub e' he'))
      (fun e' he' => hno e' (hsub e' he'))
  have hissues := hprefix.issues
  rw [hgo] at hissues
  have htask : task.taskID = id := hreq
  rcases go_dispatch_issuer hissues with
    ⟨req, created, hcreated, hid, hopen⟩ |
    ⟨id', tenantID, runtimeID, endpoint, ids, read, horigin, hwon, hread, hid⟩ |
    ⟨failed, id', tenantID, read, ⟨ids, hmark, hmem⟩, hread, hid⟩
  · rcases hcreated.inserted with ⟨first, rest, hins⟩
    have hgate := hgated _ (hsub _ hins) created
      ⟨hid.symm.trans htask, _, _, _, _, _, rfl⟩
    rw [hopen] at hgate
    cases hgate
  · have hid' : id' = id := by rw [← taskID_of_read hp hread, ← hid, htask]
    rw [horigin, hid'] at hwon
    exact hno _ (hsub _ hwon) ⟨_, _, _, _, _, ids, rfl, Or.inl rfl⟩
  · have hid' : id' = id := by rw [← taskID_of_read hp hread, ← hid, htask]
    exact hheld.spared _ _ _ _ hmark (hid' ▸ hmem)

/-! ## Decisions -/

theorem ApproveWins.row (h : ApproveWins id e) (hstep : Step (system jsonb runtimeAt) c e c') :
    ∃ t t', c.state.store.task id = some t ∧ t.status = .approvalRequired ∧
      c'.state.store.task id = some t' ∧ t'.status = .dispatched := by
  rcases h with ⟨tid, tenantID, runtimeID, endpoint, answer, ids, rfl, heffect⟩
  have honly : ∀ t, (StoreOp.markApprovedDispatched id tenantID runtimeID endpoint).rowUpdate.cond t
      = true → t.taskID = id ∧ t.status = .approvalRequired := by
    intro t ht
    simp only [StoreOp.rowUpdate, Update.markApprovedDispatched, Bool.and_eq_true] at ht
    simpa using hasStatus_iff.mp ht.1
  rcases row_of_effective hstep heffect (fun _ => rfl) (fun t ht => (honly t ht).1) with
    ⟨t, ht, hcond, ht'⟩
  exact ⟨t, _, ht, (honly t hcond).2, ht', rfl⟩

theorem RejectWins.row (h : RejectWins id e) (hstep : Step (system jsonb runtimeAt) c e c') :
    ∃ t t', c.state.store.task id = some t ∧ t.status = .approvalRequired ∧
      c'.state.store.task id = some t' ∧ t'.status = .failed := by
  rcases h with ⟨tid, o, tenantID, reason, details, answer, ids, rfl, heffect⟩
  have honly : ∀ t, (StoreOp.markApprovalRejected id tenantID reason details).rowUpdate.cond t
      = true → t.taskID = id ∧ t.status = .approvalRequired := by
    intro t ht
    simp only [StoreOp.rowUpdate, Update.markApprovalRejected, Bool.and_eq_true] at ht
    simpa using hasStatus_iff.mp ht.1
  rcases row_of_effective hstep heffect (fun _ => rfl) (fun t ht => (honly t ht).1) with
    ⟨t, ht, hcond, ht'⟩
  exact ⟨t, _, ht, (honly t hcond).2, ht', rfl⟩

/-- A cancellation does not win against a task that waits for approval. -/
theorem CancelWins.row (h : CancelWins id e) (hstep : Step (system jsonb runtimeAt) c e c') :
    ∃ t t', c.state.store.task id = some t ∧ t.status ≠ .approvalRequired ∧
      c'.state.store.task id = some t' ∧ t'.status = .canceled := by
  rcases h with ⟨tid, o, answer, ids, rfl, heffect⟩
  rcases row_of_effective hstep heffect (fun _ => rfl) (fun t ht => (hasStatus_iff.mp ht).1) with
    ⟨t, ht, hcond, ht'⟩
  refine ⟨t, _, ht, ?_, ht', rfl⟩
  intro hst
  have hmem := (hasStatus_iff.mp hcond).2
  rw [hst] at hmem
  simp at hmem

/-- An approval, rejection or cancellation of the task took effect. -/
def Decides (id : Uuid) (e : SystemEvent) : Prop :=
  ApproveWins id e ∨ RejectWins id e ∨ CancelWins id e

/-- A decision in approval_required is an approval or a rejection, and ends that status. -/
theorem Decides.row (h : Decides id e) (hstep : Step (system jsonb runtimeAt) c e c')
    (ht : c.state.store.task id = some t) (hstatus : t.status = .approvalRequired) :
    ∃ t', c'.state.store.task id = some t' ∧ t'.status ≠ .approvalRequired := by
  rcases h with happrove | hreject | hcancel
  · rcases happrove.row hstep with ⟨_, t', -, -, ht', hst'⟩
    exact ⟨t', ht', by rw [hst']; nofun⟩
  · rcases hreject.row hstep with ⟨_, t', -, -, ht', hst'⟩
    exact ⟨t', ht', by rw [hst']; nofun⟩
  · rcases hcancel.row hstep with ⟨t₁, t', ht₁, hst₁, -, -⟩
    rw [ht, Option.some.injEq] at ht₁
    exact absurd (ht₁ ▸ hstatus) hst₁

/-- Approval_required is entered through the request for approval only. -/
theorem asking_cases {op : StoreOp} (hcond : op.rowUpdate.cond t = true)
    (hstatus : (op.rowUpdate.set t).status = .approvalRequired) :
    t.status = .approvalRequired ∨ ∃ reason, op = .markApprovalRequired t.taskID reason := by
  cases op with
  | createTask => cases hcond
  | saveExecutionArtifacts => exact Or.inl hstatus
  | markApprovalRequired taskID reason =>
      rw [← (hasStatus_iff.mp hcond).1]
      exact Or.inr ⟨reason, rfl⟩
  | _ => cases hstatus

/-- A task that came to wait for approval was made to by an event of the run. -/
theorem asked_of_run {t' : TaskRecord} (hrun : Run (system jsonb runtimeAt) c τ c')
    (hbefore : ∀ t, c.state.store.task id = some t → t.status ≠ .approvalRequired)
    (ht' : c'.state.store.task id = some t') (hstatus : t'.status = .approvalRequired) :
    ∃ tid o reason answer,
      (⟨tid, o, .store (.markApprovalRequired id reason), answer⟩ : SystemEvent) ∈ τ := by
  revert t'
  refine hrun.invariant (I := fun τ c => ∀ {t' : TaskRecord}, c.state.store.task id = some t' →
    t'.status = .approvalRequired → ∃ tid o reason answer,
      (⟨tid, o, .store (.markApprovalRequired id reason), answer⟩ : SystemEvent) ∈ τ) ?_ ?_
  · intro t ht hst
    exact absurd hst (hbefore t ht)
  · intro τ c₁ e c₂ _ ih hstep t₂ ht₂ hst₂
    have hkeep : ∀ {t₁}, c₁.state.store.task id = some t₁ → t₁.status = .approvalRequired →
        ∃ tid o reason answer, (⟨tid, o, .store (.markApprovalRequired id reason), answer⟩ :
          SystemEvent) ∈ τ ++ [e] := by
      intro t₁ ht₁ hst₁
      rcases ih ht₁ hst₁ with ⟨tid, o, reason, answer, hmem⟩
      exact ⟨tid, o, reason, answer, List.mem_append_left _ hmem⟩
    cases ht₁ : c₁.state.store.task id with
    | none =>
        rcases task_inserted_of_step hstep ht₁ ht₂ with ⟨task, bound, answer, -, -, -, rfl⟩
        cases hst₂
    | some t₁ =>
        rcases task_cases_of_step hstep ht₁ with hsame | ⟨op, answer, ids, he, -, -, hcond, hset⟩
        · rw [hsame, Option.some.injEq] at ht₂
          exact hkeep ht₁ (ht₂ ▸ hst₂)
        · rw [hset, Option.some.injEq] at ht₂
          rcases asking_cases hcond (ht₂ ▸ hst₂) with hst₁ | ⟨reason, rfl⟩
          · exact hkeep ht₁ hst₁
          · rw [Store.taskID_of_task ht₁] at he
            exact ⟨e.tid, e.origin, reason, answer, by rw [← he]; simp⟩

/-- The submission that created a task asks for its approval, and asks once. -/
theorem SystemRun.asked_once {tid tid' : Nat} {o o' : Origin} {reason reason' : String}
    {answer answer' : StoreAnswer}
    (h : SystemRun jsonb runtimeAt store calls
      (pre ++ ⟨tid, o, .store (.markApprovalRequired id reason), answer⟩ :: post) c) :
    (⟨tid', o', .store (.markApprovalRequired id reason'), answer'⟩ : SystemEvent) ∉ pre := by
  intro hmem
  rcases h.run.split with ⟨c₁, -, hpre, -, -⟩
  rcases hpre.at_event hmem with ⟨p, q, d₁, -, rfl, hp, -, -⟩
  have hfirst : SystemRun jsonb runtimeAt store calls
      (p ++ ⟨tid', o', .store (.markApprovalRequired id reason'), answer'⟩ :: q) c₁ :=
    ⟨h.external, hpre⟩
  rcases markApprovalRequired_issuer h.issues with ⟨req, task, ho, hcreated, htask⟩
  rcases markApprovalRequired_issuer hfirst.issues with ⟨req', task', -, hcreated', htask'⟩
  rcases hcreated.inserted with ⟨_, _, hins⟩
  rcases hcreated'.inserted with ⟨_, _, hins'⟩
  -- both threads inserted the task, so they are one thread
  have hsame := inserts_once hpre hins (List.mem_append_left _ hins')
    ⟨htask, _, _, _, _, _, rfl⟩ ⟨htask', _, _, _, _, _, rfl⟩
  have htid : tid = tid' := congrArg Event.tid hsame
  have honce : (program runtimeAt o).AtMostOnce (asksApproval · = true) := by
    rcases ho with rfl | ⟨failure, rfl⟩
    · exact ((submit_along (fun _ _ => True) req).bind_ret _).walks
    · exact ((submitDemoSimulatedFailure_along (fun _ _ => True) req failure).bind_ret _).walks
  exact h.run.atMostOnce (labelled jsonb runtimeAt).spawn (initial_start runtimeAt store calls)
    honce rfl hmem htid.symm rfl

/-- A task that is inserted during a run was not there when the run began. -/
theorem absent_before_insert {task : TaskRecord} (hrun : Run (system jsonb runtimeAt) c τ c')
    (he : e ∈ τ) (hins : Inserts id task e) : c.state.store.task id = none := by
  rcases hrun.at_event he with ⟨pre, post, c₁, c₂, -, hpre, hstep, -⟩
  cases ht : c.state.store.task id with
  | none => rfl
  | some t =>
      rcases task_stays_of_run hpre ht with ⟨t', ht', -⟩
      rw [(insert_of_step hstep hins).1] at ht'
      cases ht'

/-- Of all decisions on a task, one at most finds it waiting for approval. -/
theorem SystemRun.one_decision {p q r : List SystemEvent} {e₁ e₂ : SystemEvent}
    {c₁ c₂ : SystemConfig} {t₁ t₂ : TaskRecord}
    (h : SystemRun jsonb runtimeAt store calls (p ++ e₁ :: (q ++ e₂ :: r)) c)
    (hnew : store.task id = none)
    (hp : Run (system jsonb runtimeAt) (initial runtimeAt store calls) p c₁)
    (hstep : Step (system jsonb runtimeAt) c₁ e₁ c₂)
    (hwait₁ : c₁.state.store.task id = some t₁) (hst₁ : t₁.status = .approvalRequired)
    (hdecides : Decides id e₁) {c₃ : SystemConfig} (hq : Run (system jsonb runtimeAt) c₂ q c₃)
    (hwait₂ : c₃.state.store.task id = some t₂) : t₂.status ≠ .approvalRequired := by
  intro hst₂
  rcases asked_of_run hp (fun t ht => by
    rw [show (initial runtimeAt store calls).state.store = store from rfl, hnew] at ht
    cases ht) hwait₁ hst₁ with ⟨tid, o, reason, answer, hasked⟩
  rcases hdecides.row hstep hwait₁ hst₁ with ⟨t', ht', hst'⟩
  rcases asked_of_run hq (fun t ht => by
    rw [ht', Option.some.injEq] at ht
    exact ht ▸ hst') hwait₂ hst₂ with ⟨tid', o', reason', answer', hasked'⟩
  -- the second request for approval comes after the first
  rcases List.append_of_mem hasked' with ⟨q₁, q₂, rfl⟩
  have hrun : SystemRun jsonb runtimeAt store calls
      ((p ++ e₁ :: q₁) ++ ⟨tid', o', .store (.markApprovalRequired id reason'), answer'⟩ ::
        (q₂ ++ e₂ :: r)) c := by simpa using h
  exact hrun.asked_once (List.mem_append_left _ hasked)

/-- After a rejection or cancellation no approval wins. -/
theorem no_approve_after (hrun : Run (system jsonb runtimeAt) c τ c')
    (ht : c.state.store.task id = some t) (hterminal : t.status.terminal = true) :
    ∀ e ∈ τ, ¬ApproveWins id e := by
  intro e he happrove
  rcases hrun.at_event he with ⟨pre, post, c₁, c₂, -, hpre, hstep, -⟩
  rcases storeRun_of_run hpre with ⟨σ, hσ⟩
  rcases hσ.terminal_stays ht hterminal with ⟨t₁, ht₁, hsame⟩
  rcases happrove.row hstep with ⟨t₂, -, ht₂, hst₂, -, -⟩
  rw [ht₁, Option.some.injEq] at ht₂
  rw [← hsame.status, ht₂, hst₂] at hterminal
  cases hterminal

/-- Human approval is a gate, in every interleaving of submissions, decisions,
recovery passes, callbacks and dispatches: a task submitted with a definition that
requires it is sent to a runtime only after an approval won; at most one decision
wins from approval_required; and after a rejection or a cancellation that no
approval preceded, the task is never sent. -/
theorem SystemRun.approval_gate {e₀ : SystemEvent} {task : TaskRecord}
    (h : SystemRun jsonb runtimeAt store calls τ c) (he₀ : e₀ ∈ τ) (hins : Inserts id task e₀)
    (hgated : policyHumanGated task.taskDefinition = true) :
    (∀ p e q, τ = p ++ e :: q → Sends id e → ∃ e' ∈ p, ApproveWins id e') ∧
    (∀ p e₁ q e₂ r c₁ c₂ t₁ t₂, τ = p ++ e₁ :: (q ++ e₂ :: r) →
      Run (system jsonb runtimeAt) (initial runtimeAt store calls) p c₁ →
      Run (system jsonb runtimeAt) c₁ (e₁ :: q) c₂ →
      c₁.state.store.task id = some t₁ → t₁.status = .approvalRequired → Decides id e₁ →
      c₂.state.store.task id = some t₂ → t₂.status = .approvalRequired → ¬Decides id e₂) ∧
    (∀ p e q, τ = p ++ e :: q → RejectWins id e ∨ CancelWins id e →
      (∀ e' ∈ p, ¬ApproveWins id e') → ∀ e' ∈ τ, ¬Sends id e') := by
  have hnew : store.task id = none := absent_before_insert h.run he₀ hins
  have hgate : ∀ e ∈ τ, ∀ task', Inserts id task' e →
      policyHumanGated task'.taskDefinition = true := by
    intro e he task' hins'
    have heq := inserts_once h.run he he₀ hins' hins
    rcases hins with ⟨-, _, _, _, _, _, rfl⟩
    rcases hins' with ⟨-, _, _, _, _, _, rfl⟩
    cases heq
    exact hgated
  have hsend : ∀ p e q, τ = p ++ e :: q → Sends id e → ∃ e' ∈ p, ApproveWins id e' := by
    rintro p e q rfl hsends
    exact h.approve_before_send hnew (fun e' he' => hgate e' (List.mem_append_left _ he')) hsends
  refine ⟨hsend, ?_, ?_⟩
  · rintro p e₁ q e₂ r c₁ c₂ t₁ t₂ rfl hp hq ht₁ hst₁ hdecides ht₂ hst₂ -
    rcases hq.cons_inv with ⟨d, hstep, hrest⟩
    exact h.one_decision hnew hp hstep ht₁ hst₁ hdecides hrest ht₂ hst₂
  · rintro p e q rfl hwins hno e' he' hsends
    rcases h.run.split with ⟨c₁, c₂, hp, hstep, hq⟩
    have hended : ∃ t, c₂.state.store.task id = some t ∧ t.status.terminal = true := by
      rcases hwins with hreject | hcancel
      · rcases hreject.row hstep with ⟨_, t', -, -, ht', hst'⟩
        exact ⟨t', ht', by rw [hst']; rfl⟩
      · rcases hcancel.row hstep with ⟨_, t', -, -, ht', hst'⟩
        exact ⟨t', ht', by rw [hst']; rfl⟩
    rcases hended with ⟨t, ht, hterminal⟩
    rcases List.append_of_mem he' with ⟨p', q', hsplit⟩
    rcases hsend p' e' q' hsplit hsends with ⟨e'', he'', happrove⟩
    have hmem : e'' ∈ p ++ e :: q := hsplit ▸ List.mem_append_left _ he''
    rcases List.mem_append.mp hmem with hbefore | hafter
    · exact hno e'' hbefore happrove
    · rcases List.mem_cons.mp hafter with rfl | hafter
      · rcases happrove with ⟨_, _, _, _, _, _, rfl, -⟩
        rcases hwins with ⟨_, _, _, _, _, _, _, heq, -⟩ | ⟨_, _, _, _, heq, -⟩ <;> cases heq
      · exact no_approve_after hq ht hterminal e'' hafter happrove

end Gate

/-! ## An approved payment -/

/-- A registered action that needs an approval. -/
def gatedRequest : TaskSubmitRequest where
  taskID := 7
  tenantID := "acme"
  taskDefinition := {
    text := "", taskType := .executionGraph
    graphNodes := [
      { kind := .tool, nodeID := "pay", metadata := { approvalRequired := true }, text := "" }] }
  idempotencyKey := "order-1"

/-- Submitted, approved and dispatched, one after the other. -/
def approvedSchedule : Script State Action Answer :=
  (List.replicate 7 0 ++ List.replicate 5 1 ++ List.replicate 8 2).map fun tid =>
    (tid, smoothly ⟨"runtime-a", "https://a"⟩)

/-- The event reports the insertion of a gated task. -/
def insertsGated (id : Uuid) : SystemEvent → Bool
  | ⟨_, _, .store (.createTask task _), .ok (_ :: _)⟩ =>
      decide (task.taskID = id) && policyHumanGated task.taskDefinition
  | _ => false

theorem inserts_of_insertsGated {id : Uuid} {e : SystemEvent} (h : insertsGated id e = true) :
    ∃ task, Inserts id task e ∧ policyHumanGated task.taskDefinition = true := by
  unfold insertsGated at h
  split at h
  · rw [Bool.and_eq_true, decide_eq_true_iff] at h
    exact ⟨_, ⟨h.1, _, _, _, _, _, rfl⟩, h.2⟩
  · cases h

def sends (id : Uuid) : SystemEvent → Bool
  | ⟨_, _, .post req, _⟩ => decide (req.taskID = id)
  | _ => false

theorem sends_iff {id : Uuid} {e : SystemEvent} : sends id e = true ↔ Sends id e := by
  constructor
  · intro h
    unfold sends at h
    split at h
    · exact ⟨_, _, _, _, rfl, of_decide_eq_true h⟩
    · cases h
  · rintro ⟨tid, o, req, number, rfl, hid⟩
    exact decide_eq_true hid

theorem approval_gate_gatedRequest :
    ∃ τ c, SystemRun id id .empty [.submit gatedRequest, .approve 7 "acme"] τ c ∧
      ∃ p e q, τ = p ++ e :: q ∧ Sends 7 e ∧ ∃ e' ∈ p, ApproveWins 7 e' := by
  have hplay : (play (system id id) anyStep [] (initial id .empty [.submit gatedRequest, .approve 7 "acme"])
      approvedSchedule).any (fun out => out.1.any (insertsGated 7) && out.1.any (sends 7)) = true := by
    decide +kernel
  rcases exists_systemRun (by decide) hplay with ⟨τ, c, hrun, hcheck, -⟩
  simp only [Bool.and_eq_true, List.any_eq_true] at hcheck
  rcases hcheck with ⟨⟨e₀, he₀, hins⟩, e, he, hsend⟩
  rcases inserts_of_insertsGated hins with ⟨task, hins, hgated⟩
  rcases List.append_of_mem he with ⟨p, q, hsplit⟩
  have hsends := sends_iff.mp hsend
  exact ⟨τ, c, hrun, p, e, q, hsplit, hsends,
    (hrun.approval_gate he₀ hins hgated).1 p e q hsplit hsends⟩

end Igris
