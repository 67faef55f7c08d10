import Igris.Lib.Hoare
import Igris.Coordinator.Dispatch
import Igris.Coordinator.Callback
import Igris.Executor.Execute
import Igris.Store.Lifecycle

/-!
# The whole system

Coordinator and runtimes as one pool of threads over the shared tables.  A run
starts with any number of calls that have not begun yet: submissions, decisions of
operators, recovery passes for silent runtimes, and messages that claim to come
from runtimes.  A call may begin at any time or never, so a run covers every
interleaving of the calls that do begin.  Dispatches and executions are started by
the system itself.

Main results:

- Theorem {lit}`labelled`: what each kind of thread can do.
- Theorem {lit}`SystemRun.dispatch_started`: every dispatch was ordered by a thread
  that is allowed to do so.
- Theorem {lit}`task_cases_of_step`: how one step changes the record of a task.
-/

namespace Igris

open Concurrency Coordinator Executor

/-- On whose behalf a thread acts. -/
inductive Origin where
  | submit (req : TaskSubmitRequest)
  | submitDemo (req : TaskSubmitRequest) (failureReason : String)
  | approve (taskID : Uuid) (tenantID : String)
  | reject (taskID : Uuid) (tenantID reason : String)
  | cancel (taskID : Uuid) (tenantID : String)
  | recovery (runtimeID : String)
  | callback (callback : RuntimeCallback)
  | dispatch (task : TaskRecord) (checkpoint : Option CheckpointPayload)
  /-- Execution of the request that was posted with this number. -/
  | execution (number : Nat) (req : RuntimeTaskRequest)
deriving DecidableEq, Repr

/-- Calls that reach the system from outside. -/
def Origin.external : Origin → Bool
  | .dispatch _ _ | .execution _ _ => false
  | _ => true

/-- What a thread ends with. -/
inductive Outcome where
  | task (result : Except CoordinatorError TaskRecord)
  | httpStatus (status : Nat)
  | response (response : RuntimeResponse)
  | finished
deriving DecidableEq, Repr

/-- The program of a thread; {lit}`runtimeAt` names the runtime behind an address. -/
def program (runtimeAt : String → String) : Origin → Program Outcome
  | .submit req => (submit req).bind fun result => .ret (.task result)
  | .submitDemo req failureReason =>
      (submitDemoSimulatedFailure req failureReason).bind fun result => .ret (.task result)
  | .approve taskID tenantID =>
      (approveTask taskID tenantID).bind fun result => .ret (.task result)
  | .reject taskID tenantID reason =>
      (rejectTask taskID tenantID reason).bind fun result => .ret (.task result)
  | .cancel taskID tenantID =>
      (handleTaskCancel taskID tenantID).bind fun result => .ret (.task result)
  | .recovery runtimeID => (recoverRuntime runtimeID).bind fun _ => .ret .finished
  | .callback callback =>
      (handleRuntimeCallback callback).bind fun status => .ret (.httpStatus status)
  | .dispatch task checkpoint => (dispatchToRuntime task checkpoint).bind fun _ => .ret .finished
  | .execution _ req =>
      (handleTaskSubmit (runtimeAt req.endpoint) req).bind fun response => .ret (.response response)

/-- Threads that an action starts. -/
def started : (a : Action) → Answer a → List Origin
  | .go (.dispatchToRuntime task checkpoint), _ => [.dispatch task checkpoint]
  | .go (.recoverRuntime runtimeID), _ => [.recovery runtimeID]
  | .post req, (number : Nat) => [.execution number req]
  | .sendCallback callback, (fate : CallbackFate) => if fate.arrived then [.callback callback] else []
  | _, _ => []

def newThread (runtimeAt : String → String) (origin : Origin) :
    Thread Origin Action Answer Outcome :=
  ⟨origin, program runtimeAt origin⟩

def system (jsonb : TaskDefinition → TaskDefinition) (runtimeAt : String → String) :
    System State Origin Action Answer Outcome where
  perform := perform jsonb
  spawn := fun a answer => (started a answer).map (newThread runtimeAt)

abbrev SystemConfig := Config State Origin Action Answer Outcome

abbrev SystemEvent := Event Origin Action Answer

/-- Tables and calls at the start; nothing has been posted yet. -/
def initial (runtimeAt : String → String) (store : Store) (calls : List Origin) : SystemConfig :=
  ⟨⟨store, []⟩, calls.map (newThread runtimeAt)⟩

/-- A run of the system from the given tables and calls. -/
structure SystemRun (jsonb : TaskDefinition → TaskDefinition) (runtimeAt : String → String)
    (store : Store) (calls : List Origin) (τ : List SystemEvent) (c : SystemConfig) : Prop where
  external : ∀ o ∈ calls, o.external = true
  run : Run (system jsonb runtimeAt) (initial runtimeAt store calls) τ c

/-! ## What each kind of thread can do -/

/-- The actions of a thread, given the answers it received. -/
def Issues (runtimeAt : String → String) (K : (a : Action) → Answer a → Prop) :
    Origin → Action → Prop
  | .submit req => SubmitIssues K req
  | .submitDemo req _ => SubmitIssues K req
  | .approve taskID tenantID => ApproveIssues K taskID tenantID
  | .reject taskID tenantID _ => RejectIssues taskID tenantID
  | .cancel taskID _ => CancelIssues taskID
  | .recovery runtimeID => RecoverIssues K runtimeID
  | .callback callback => CallbackIssues K callback
  | .dispatch task checkpoint => DispatchIssues K task checkpoint
  | .execution _ req => ExecutionIssues (runtimeAt req.endpoint) req

/-- The outcome of a thread, given the answers it received. -/
def Returns (K : (a : Action) → Answer a → Prop) : Origin → Outcome → Prop
  | .submit req, outcome => ∃ result, outcome = .task result ∧ SubmitReturns K req result
  | _, _ => True

theorem labelled (jsonb : TaskDefinition → TaskDefinition) (runtimeAt : String → String) :
    Labelled (system jsonb runtimeAt) (program runtimeAt) (Issues runtimeAt) Returns where
  spawn := by
    intro a answer t ht
    rcases List.mem_map.mp ht with ⟨o, -, rfl⟩
    rfl
  guarded := by
    intro K o
    cases o with
    | submit req => exact (submit_guarded K req).bind fun result hresult => ⟨result, rfl, hresult⟩
    | submitDemo req reason =>
        exact (submitDemoSimulatedFailure_guarded K req reason).bind fun _ _ => trivial
    | approve taskID tenantID =>
        exact (approveTask_guarded K taskID tenantID).bind fun _ _ => trivial
    | reject taskID tenantID reason =>
        exact (rejectTask_guarded K taskID tenantID reason).bind fun _ _ => trivial
    | cancel taskID tenantID =>
        exact (handleTaskCancel_guarded K taskID tenantID).bind fun _ _ => trivial
    | recovery runtimeID => exact (recoverRuntime_guarded K runtimeID).bind fun _ _ => trivial
    | callback callback =>
        exact (handleRuntimeCallback_guarded K callback).bind fun _ _ => trivial
    | dispatch task checkpoint =>
        exact (dispatchToRuntime_guarded K task checkpoint).bind fun _ _ => trivial
    | execution number req =>
        exact (handleTaskSubmit_guarded K (runtimeAt req.endpoint) req).bind fun _ _ => trivial

/-! ## Who may do what -/

variable {req : RuntimeTaskRequest} {tenantID : String} {task : TaskRecord} {tid : Nat}

section Issuers

variable {runtimeAt : String → String} {K : (a : Action) → Answer a → Prop} {o : Origin}

/-- Only a dispatch posts requests, and only its own. -/
theorem post_issuer (h : Issues runtimeAt K o (.post req)) :
    ∃ task checkpoint, o = .dispatch task checkpoint ∧ req = runtimePayload task checkpoint := by
  cases o with
  | dispatch task checkpoint =>
      cases h with
      | quiet hquiet => cases hquiet
      | post => exact ⟨task, checkpoint, rfl, rfl⟩
  | _ =>
      cases h
      rename_i hquiet
      cases hquiet

/-- A task is dispatched by the submission that created it, or by a recovery pass
that took it over. -/
theorem markDispatched_issuer {id : Uuid} {runtimeID endpoint : String}
    (h : Issues runtimeAt K o (.store (.markDispatched id runtimeID endpoint))) :
    (∃ req task, Created K req task ∧ task.taskID = id ∧
        policyHumanGated task.taskDefinition = false) ∨
      ∃ failed, Recovering K failed id := by
  cases o with
  | submit req | submitDemo req =>
      cases h with
      | quiet hquiet => cases hquiet
      | @dispatch task hcreated hopen => exact Or.inl ⟨req, task, hcreated, rfl, hopen⟩
  | recovery failed =>
      cases h with
      | quiet hquiet => cases hquiet
      | dispatch hrecovering => exact Or.inr ⟨failed, hrecovering⟩
  | callback callback =>
      cases h with
      | quiet hquiet => cases hquiet
      | store _ hop =>
          unfold callbackOp at hop
          split at hop <;> cases hop
  | _ =>
      cases h
      rename_i hquiet
      cases hquiet

/-- An approval gate is passed by an approval only. -/
theorem markApprovedDispatched_issuer {id : Uuid} {runtimeID endpoint : String}
    (h : Issues runtimeAt K o (.store (.markApprovedDispatched id tenantID runtimeID endpoint))) :
    o = .approve id tenantID := by
  cases o with
  | approve taskID tenant =>
      cases h with
      | quiet hquiet => cases hquiet
      | claim => rfl
  | callback callback =>
      cases h with
      | quiet hquiet => cases hquiet
      | store _ hop =>
          unfold callbackOp at hop
          split at hop <;> cases hop
  | _ =>
      cases h
      rename_i hquiet
      cases hquiet

/-- Approval is asked for by the submission that created the task. -/
theorem markApprovalRequired_issuer {id : Uuid} {reason : String}
    (h : Issues runtimeAt K o (.store (.markApprovalRequired id reason))) :
    ∃ req task, (o = .submit req ∨ ∃ failure, o = .submitDemo req failure) ∧
      Created K req task ∧ task.taskID = id := by
  cases o with
  | submit req =>
      cases h with
      | quiet hquiet => cases hquiet
      | @approvalRequired task hcreated => exact ⟨req, task, Or.inl rfl, hcreated, rfl⟩
  | submitDemo req failure =>
      cases h with
      | quiet hquiet => cases hquiet
      | @approvalRequired task hcreated => exact ⟨req, task, Or.inr ⟨failure, rfl⟩, hcreated, rfl⟩
  | callback callback =>
      cases h with
      | quiet hquiet => cases hquiet
      | store _ hop =>
          unfold callbackOp at hop
          split at hop <;> cases hop
  | _ =>
      cases h
      rename_i hquiet
      cases hquiet

/-- A task is sent off by the submission that created it, by the approval that won
its claim, or by a recovery pass that took it over. -/
theorem go_dispatch_issuer {checkpoint : Option CheckpointPayload}
    (h : Issues runtimeAt K o (.go (.dispatchToRuntime task checkpoint))) :
    (∃ req created, Created K req created ∧ task.taskID = created.taskID ∧
        policyHumanGated created.taskDefinition = false) ∨
      (∃ id tenantID runtimeID endpoint ids read, o = .approve id tenantID ∧
        K (.store (.markApprovedDispatched id tenantID runtimeID endpoint)) (.ok ids) ∧
        K (.getTask id tenantID) (.ok read) ∧ task.taskID = read.taskID) ∨
      ∃ failed id tenantID read, Recovering K failed id ∧
        K (.getTask id tenantID) (.ok read) ∧ task.taskID = read.taskID := by
  cases o with
  | submit req | submitDemo req =>
      cases h with
      | quiet hquiet => cases hquiet
      | @go created _ hcreated hopen hid => exact Or.inl ⟨req, created, hcreated, hid, hopen⟩
  | approve id tenantID =>
      cases h with
      | quiet hquiet => cases hquiet
      | @go runtimeID endpoint ids read _ hwon hread hid =>
          exact Or.inr (Or.inl ⟨id, tenantID, runtimeID, endpoint, ids, read, rfl, hwon, hread, hid⟩)
  | recovery failed =>
      cases h with
      | quiet hquiet => cases hquiet
      | @go id tenantID read _ hrecovering hread hid =>
          exact Or.inr (Or.inr ⟨failed, id, tenantID, read, hrecovering, hread, hid⟩)
  | _ =>
      cases h
      rename_i hquiet
      cases hquiet

end Issuers

section Runs

variable {jsonb : TaskDefinition → TaskDefinition} {runtimeAt : String → String} {store : Store}
  {calls : List Origin} {τ pre post : List SystemEvent} {c c' : SystemConfig} {e : SystemEvent}

theorem initial_start (runtimeAt : String → String) (store : Store) (calls : List Origin) :
    ∀ t ∈ (initial runtimeAt store calls).pool, t.prog = program runtimeAt t.origin := by
  intro t ht
  rcases List.mem_map.mp ht with ⟨o, -, rfl⟩
  rfl

/-- Every event is one that its thread may cause. -/
theorem SystemRun.issues (h : SystemRun jsonb runtimeAt store calls (pre ++ e :: post) c) :
    Issues runtimeAt (Answered pre e.tid e.origin) e.origin e.action :=
  h.run.issues (labelled jsonb runtimeAt) (initial_start runtimeAt store calls)

/-- A thread that acts is one of the calls or was started by an earlier event. -/
theorem SystemRun.source (h : SystemRun jsonb runtimeAt store calls (pre ++ e :: post) c) :
    e.origin ∈ calls ∨ ∃ e' ∈ pre, e.origin ∈ started e'.action e'.answer := by
  rcases h.run.source (labelled jsonb runtimeAt).spawn (initial_start runtimeAt store calls) with
    hcall | ⟨e', he', hspawn⟩
  · left
    simpa [initial, newThread] using hcall
  · right
    refine ⟨e', he', ?_⟩
    simpa [system, newThread] using hspawn

/-- A dispatch was ordered by a submission, an approval or a recovery pass. -/
theorem SystemRun.dispatch_started {checkpoint : Option CheckpointPayload} {a : Action}
    {answer : Answer a}
    (h : SystemRun jsonb runtimeAt store calls
      (pre ++ ⟨tid, .dispatch task checkpoint, a, answer⟩ :: post) c) :
    ∃ e ∈ pre, e.action = .go (.dispatchToRuntime task checkpoint) := by
  rcases h.source with hcall | ⟨e', he', hstarted⟩
  · have := h.external _ hcall
    cases this
  · refine ⟨e', he', ?_⟩
    rcases e' with ⟨tid', o', a', answer'⟩
    dsimp only at hstarted ⊢
    unfold started at hstarted
    split at hstarted
    · simp only [List.mem_singleton, Origin.dispatch.injEq] at hstarted
      rw [hstarted.1, hstarted.2]
    · simp at hstarted
    · simp at hstarted
    · split at hstarted <;> simp at hstarted
    · simp at hstarted

/-- An execution belongs to a request that was posted. -/
theorem SystemRun.execution_started {number : Nat} {a : Action} {answer : Answer a}
    (h : SystemRun jsonb runtimeAt store calls
      (pre ++ ⟨tid, .execution number req, a, answer⟩ :: post) c) :
    ∃ tid' o', (⟨tid', o', .post req, number⟩ : SystemEvent) ∈ pre := by
  rcases h.source with hcall | ⟨e', he', hstarted⟩
  · have := h.external _ hcall
    cases this
  · rcases e' with ⟨tid', o', a', answer'⟩
    dsimp only at hstarted
    unfold started at hstarted
    split at hstarted
    · simp at hstarted
    · simp at hstarted
    · simp only [List.mem_singleton, Origin.execution.injEq] at hstarted
      rw [hstarted.1, hstarted.2]
      exact ⟨tid', o', he'⟩
    · split at hstarted <;> simp at hstarted
    · simp at hstarted

end Runs

/-! ## Steps and the tables -/

section Tables

variable {jsonb : TaskDefinition → TaskDefinition} {s s' : State}

variable {answer : StoreAnswer} {op : StoreOp} {t : TaskRecord} {id : Uuid} {a : Action}

theorem perform_store (h : perform jsonb (.store op) answer s = some s') :
    op.perform jsonb answer s.store = some s'.store ∧ s'.posted = s.posted := by
  rcases Option.map_eq_some_iff.mp h with ⟨store', hstore, rfl⟩
  exact ⟨hstore, rfl⟩

/-- A statement whose row meets its condition takes effect unless the database refuses
it. -/
theorem task_of_transition (h : perform jsonb (.store op) answer s = some s')
    (htransition : op.apply jsonb s.store = s.store.transition op.rowUpdate)
    (ht : s.store.task id = some t) (hcond : op.rowUpdate.cond t = true) :
    (answer = .error .database ∧ s'.store = s.store) ∨
      ∃ ids, StoreOp.Effective answer ids ∧ s'.store.task id = some (op.rowUpdate.set t) := by
  have hop := (perform_store h).1
  rcases s.store.transition_cases op.rowUpdate with ⟨hnone, -⟩ | ⟨-, hok⟩
  · have hmem := Store.mem_affected.mpr ⟨t, ht, hcond⟩
    rw [hnone] at hmem
    cases hmem
  · rw [← htransition] at hok
    rcases op.perform_cases hop with ⟨err, herr, hread, hsame⟩ | ⟨ids, heffect, happly⟩
    · cases err with
      | database => exact Or.inl ⟨herr, hsame⟩
      | resultUnread => exact absurd rfl hread
      | _ =>
          rw [herr] at hop
          simp [StoreOp.perform, hok] at hop
    · rw [StoreOp.task_apply happly ht, Update.run_of_cond hcond]
      exact Or.inr ⟨ids, heffect, rfl⟩

/-- A statement leaves a row alone that does not meet its condition. -/
theorem task_of_unmet (h : perform jsonb (.store op) answer s = some s')
    (ht : s.store.task id = some t) (hcond : ¬op.rowUpdate.cond t = true) :
    s'.store.task id = some t := by
  rcases op.perform_cases (perform_store h).1 with ⟨err, -, -, hsame⟩ | ⟨ids, -, happly⟩
  · rw [hsame, ht]
  · rw [StoreOp.task_apply happly ht, Update.run_of_not_cond hcond]

/-- An action is an operation on the tables, or it leaves the tables alone. -/
theorem perform_store_cases {answer : Answer a} (h : perform jsonb a answer s = some s') :
    (∃ op storeAnswer, (⟨a, answer⟩ : Performed Action Answer) = ⟨.store op, storeAnswer⟩ ∧
        op.perform jsonb storeAnswer s.store = some s'.store ∧ s'.posted = s.posted) ∨
      ((∀ op, a ≠ .store op) ∧ s'.store = s.store) := by
  cases a with
  | store op =>
      rcases Option.map_eq_some_iff.mp h with ⟨store', hstore, rfl⟩
      exact Or.inl ⟨op, answer, rfl, hstore, rfl⟩
  | _ =>
      refine Or.inr ⟨fun op heq => (by cases heq), ?_⟩
      simp only [perform] at h
      first
        | (split at h <;> cases h <;> rfl)
        | (cases h; rfl)

/-- Records stay, with the identity they were inserted with. -/
theorem task_stays {answer : Answer a} (h : perform jsonb a answer s = some s')
    (ht : s.store.task id = some t) :
    ∃ t', s'.store.task id = some t' ∧ t'.tenantKey = t.tenantKey := by
  rcases perform_store_cases h with ⟨op, answer', -, hop, -⟩ | ⟨-, hsame⟩
  · rcases op.perform_cases hop with ⟨err, -, -, hsame⟩ | ⟨ids, -, happly⟩
    · exact ⟨t, hsame ▸ ht, rfl⟩
    · refine ⟨_, StoreOp.task_apply happly ht, ?_⟩
      unfold Update.run
      split
      · simp only [TaskRecord.tenantKey, op.rowUpdate.tenantID, op.rowUpdate.idempotencyKey]
      · rfl
  · exact ⟨t, hsame ▸ ht, rfl⟩

/-- A quiet action changes nothing and starts nothing. -/
theorem perform_quiet {answer : Answer a} (hquiet : a.quiet = true)
    (h : perform jsonb a answer s = some s') : s' = s ∧ started a answer = [] := by
  cases a with
  | store | go | post | sendCallback | executeStep => cases hquiet
  | _ =>
      simp only [perform] at h
      first
        | (split at h <;> cases h <;> exact ⟨rfl, rfl⟩)
        | (cases h; exact ⟨rfl, rfl⟩)

/-- The program goes on in the same state after a quiet action. -/
theorem follows_quiet {α γ : Type} {track : γ → Performed Action Answer → γ}
    {ok : γ → Performed Action Answer → Prop} {post : α → State → γ → Prop}
    {next : Answer a → Program α} {g : γ} (hquiet : a.quiet = true)
    (h : ∀ answer, perform jsonb a answer s = some s →
      (next answer).Follows (perform jsonb) track ok post s (track g ⟨a, answer⟩)) :
    (Prog.act a next).Follows (perform jsonb) track ok post s g := by
  intro answer s₁ hstep _
  obtain rfl := (perform_quiet hquiet hstep).1
  exact h answer hstep

theorem perform_post {number : Nat} (h : perform jsonb (.post req) number s = some s') :
    number = s.posted.length ∧ s'.posted = s.posted ++ [req] := by
  simp only [perform] at h
  split at h <;> rename_i hnumber
  · cases h
    exact ⟨hnumber, rfl⟩
  · cases h

/-- Posted requests keep their place. -/
theorem posted_perform {answer : Answer a} (h : perform jsonb a answer s = some s') :
    s.posted <+: s'.posted := by
  cases a with
  | store op => rw [(perform_store h).2]
  | post req =>
      rw [(perform_post h).2]
      exact List.prefix_append _ _
  | go | sendCallback | executeStep =>
      cases h
      exact List.prefix_rfl
  | _ => rw [(perform_quiet rfl h).1]

theorem perform_getTask {taskID : Uuid}
    (h : perform jsonb (.getTask taskID tenantID) (.ok t) s = some s') :
    s.store.task taskID = some t ∧ t.tenantID = tenantID := by
  simp only [perform, readAnswer_ok] at h
  split at h <;> rename_i hread
  · unfold Store.taskOfTenant at hread
    split at hread
    · split at hread
      · cases hread
        exact ⟨by assumption, by assumption⟩
      · cases hread
    · cases hread
  · cases h

theorem perform_getTaskByIdempotencyKey {key : String}
    (h : perform jsonb (.getTaskByIdempotencyKey tenantID key) (.ok t) s = some s') :
    s.store.task t.taskID = some t ∧ t.tenantKey = (tenantID, key) := by
  simp only [perform, readAnswer_ok] at h
  split at h <;> rename_i hread
  · unfold Store.taskByIdempotencyKey at hread
    split at hread <;> rename_i hfind
    · cases hread
      have hkey := List.find?_some hfind
      exact ⟨Relational.Table.get_of_mem (List.mem_of_find?_eq_some hfind), of_decide_eq_true hkey⟩
    · cases hread
  · cases h

theorem perform_getBoundActionRunByIdempotency {key : String} {identity : BoundActionRunIdentity}
    (h : perform jsonb (.getBoundActionRunByIdempotency tenantID key) (.ok identity) s = some s') :
    ∃ run ∈ s.store.boundRuns.rows, run.businessKey = (tenantID, key) ∧ run.identity = identity := by
  simp only [perform, readAnswer_ok] at h
  split at h <;> rename_i hread
  · unfold Store.boundRunByIdempotency at hread
    split at hread <;> rename_i run hfind
    · cases hread
      have hkey := List.find?_some hfind
      exact ⟨run, List.mem_of_find?_eq_some hfind, of_decide_eq_true hkey, rfl⟩
    · cases hread
  · cases h

theorem perform_walWriteIntent {taskID : Uuid} {step : RuntimeTaskStep} {entry : WalEntry}
    (h : perform jsonb (.walWriteIntent taskID step) (.ok entry) s = some s') :
    entry.taskID = taskID ∧ entry.stepIndex = step.stepIndex ∧ entry.entryID ≠ Uuid.nil := by
  have hmatch : intentMatches taskID step (.ok entry) = true := by
    by_contra hno
    simp [perform, hno] at h
  simpa [intentMatches, and_assoc] using hmatch

theorem perform_walWriteCommitted {intent entry : WalEntry} {digest : String}
    (h : perform jsonb (.walWriteCommitted intent digest) (.ok entry) s = some s') :
    entry.taskID = intent.taskID ∧ entry.stepIndex = intent.stepIndex ∧
      entry.entryID = intent.entryID ∧ entry.committed = true := by
  have hmatch : commitMatches intent (.ok entry) = true := by
    by_contra hno
    simp [perform, hno] at h
  simpa [commitMatches, and_assoc] using hmatch

variable {runtimeAt : String → String} {c c' : SystemConfig} {e : SystemEvent}
  {τ : List SystemEvent}

/-- One step keeps the record of a task, or rewrites it by an operation whose
condition it meets and which took effect. -/
theorem task_cases_of_step (h : Step (system jsonb runtimeAt) c e c')
    (ht : c.state.store.task id = some t) :
    c'.state.store.task id = some t ∨
      ∃ op answer ids, e = ⟨e.tid, e.origin, .store op, answer⟩ ∧
        StoreOp.Effective answer ids ∧ op.apply jsonb c.state.store = (.ok ids, c'.state.store) ∧
        op.rowUpdate.cond t = true ∧ c'.state.store.task id = some (op.rowUpdate.set t) := by
  rcases e with ⟨tid, origin, a, answer⟩
  rcases perform_store_cases h.perform_eq with ⟨op, answer', heq, hop, -⟩ | ⟨-, hsame⟩
  · dsimp only at heq
    cases heq
    rcases op.perform_cases hop with ⟨err, -, -, hsame⟩ | ⟨ids, heffect, happly⟩
    · left
      rw [hsame]
      exact ht
    · have htask := StoreOp.task_apply happly ht
      by_cases hcond : op.rowUpdate.cond t = true
      · right
        rw [Update.run_of_cond hcond] at htask
        exact ⟨op, answer', ids, rfl, heffect, happly, hcond, htask⟩
      · left
        rw [Update.run_of_not_cond hcond] at htask
        exact htask
  · left
    rw [hsame]
    exact ht

/-- A record that appears in one step was inserted by that step. -/
theorem task_inserted_of_step (h : Step (system jsonb runtimeAt) c e c')
    (hnone : c.state.store.task id = none) (ht : c'.state.store.task id = some t) :
    ∃ task bound answer, e = ⟨e.tid, e.origin, .store (.createTask task bound), answer⟩ ∧
      task.taskID = id ∧ StoreOp.Effective answer [id] ∧ t = Store.newRow jsonb task := by
  rcases e with ⟨tid, origin, a, answer⟩
  rcases perform_store_cases h.perform_eq with ⟨op, answer', heq, hop, -⟩ | ⟨-, hsame⟩
  · dsimp only at heq
    cases heq
    rcases op.perform_cases hop with ⟨err, -, -, hsame⟩ | ⟨ids, heffect, happly⟩
    · rw [hsame, hnone] at ht
      cases ht
    · rcases StoreOp.task_apply_of_none happly hnone with hnone' | ⟨task, bound, rfl, hid, hids, hnew⟩
      · rw [hnone'] at ht
        cases ht
      · rw [hnew, Option.some.injEq] at ht
        subst hids
        exact ⟨task, bound, answer', rfl, hid, heffect, ht.symm⟩
  · rw [hsame, hnone] at ht
    cases ht

/-- The tables of a run go through a sequence of operations. -/
theorem storeRun_of_run (h : Run (system jsonb runtimeAt) c τ c') :
    ∃ σ, StoreRun jsonb c.state.store σ c'.state.store := by
  induction h with
  | nil => exact ⟨[], StoreRun.nil _⟩
  | snoc _ hstep ih =>
      rcases ih with ⟨σ, hσ⟩
      rcases perform_store_cases hstep.perform_eq with ⟨op, answer, -, hop, -⟩ | ⟨-, hsame⟩
      · exact ⟨_, hσ.snoc hop⟩
      · rw [hsame]
        exact ⟨σ, hσ⟩

theorem task_stays_of_run (h : Run (system jsonb runtimeAt) c τ c')
    (ht : c.state.store.task id = some t) :
    ∃ t', c'.state.store.task id = some t' ∧ t'.tenantKey = t.tenantKey := by
  induction h with
  | nil => exact ⟨t, ht, rfl⟩
  | snoc _ hstep ih =>
      rcases ih with ⟨t₁, ht₁, hkey₁⟩
      rcases task_stays hstep.perform_eq ht₁ with ⟨t₂, ht₂, hkey₂⟩
      exact ⟨t₂, ht₂, hkey₂.trans hkey₁⟩

/-- What a thread reads under an identifier is the record with that identifier. -/
theorem taskID_of_read {o : Origin} (hrun : Run (system jsonb runtimeAt) c τ c')
    (hread : (⟨tid, o, .getTask id tenantID, .ok t⟩ : SystemEvent) ∈ τ) : t.taskID = id := by
  rcases hrun.at_event hread with ⟨pre, post, c₁, c₂, -, -, hstep, -⟩
  have hperform : perform jsonb (.getTask id tenantID) (.ok t) c₁.state = some c₂.state :=
    hstep.perform_eq
  exact Store.taskID_of_task (perform_getTask hperform).1

/-- A statement on one task that takes effect finds the row of the task. -/
theorem row_of_effective {ids : List Uuid} {o : Origin}
    (hstep : Step (system jsonb runtimeAt) c ⟨tid, o, .store op, answer⟩ c')
    (heffect : StoreOp.Effective answer ids)
    (htransition : ∀ s, op.apply jsonb s = s.transition op.rowUpdate)
    (honly : ∀ t, op.rowUpdate.cond t = true → t.taskID = id) :
    ∃ t, c.state.store.task id = some t ∧ op.rowUpdate.cond t = true ∧
      c'.state.store.task id = some (op.rowUpdate.set t) := by
  rcases op.perform_cases (perform_store hstep.perform_eq).1 with
    ⟨err, herr, hread, -⟩ | ⟨ids', -, happly⟩
  · dsimp only at herr
    subst herr
    rcases heffect with hok | hunread
    · cases hok
    · cases hunread
      exact absurd rfl hread
  · have hids := happly
    rw [htransition] at hids
    rcases c.state.store.transition_cases op.rowUpdate with ⟨-, hrej⟩ | ⟨hne, -⟩
    · rw [hrej] at hids
      cases hids
    · have hmem : id ∈ c.state.store.affected op.rowUpdate := by
        rw [Store.affected_eq_singleton honly hne]
        exact List.mem_singleton_self id
      rcases Store.mem_affected.mp hmem with ⟨t, ht, hcond⟩
      refine ⟨t, ht, hcond, ?_⟩
      rw [StoreOp.task_apply happly ht, Update.run_of_cond hcond]

/-- The event reports that it inserted the record of the task. -/
def Inserts (id : Uuid) (task : TaskRecord) (e : SystemEvent) : Prop :=
  task.taskID = id ∧ ∃ tid o bound first rest,
    e = ⟨tid, o, .store (.createTask task bound), .ok (first :: rest)⟩

theorem insert_of_step (h : Step (system jsonb runtimeAt) c e c') (hins : Inserts id task e) :
    c.state.store.task id = none ∧
      c'.state.store.task id = some (Store.newRow jsonb task) := by
  rcases hins with ⟨hid, tid, o, bound, first, rest, rfl⟩
  have hop := (perform_store h.perform_eq).1
  have happly := StoreOp.apply_of_perform_ok hop
  rcases Store.createTask_eq_ok happly with ⟨-, hnil, -⟩ | ⟨-, hfree, -, htask, -⟩
  · cases hnil
  · rw [hid] at hfree
    refine ⟨hfree, ?_⟩
    rw [htask, hid, if_pos rfl]

/-- A task is inserted at most once. -/
theorem inserts_once (h : Run (system jsonb runtimeAt) c τ c') {task' : TaskRecord}
    {e' : SystemEvent} (he : e ∈ τ) (he' : e' ∈ τ) (hins : Inserts id task e)
    (hins' : Inserts id task' e') : e = e' := by
  -- whichever comes first leaves the record that the other one must not find
  have hlater : ∀ {τ : List SystemEvent} {c c' : SystemConfig} {e : SystemEvent} {t : TaskRecord}
      {task : TaskRecord}, Run (system jsonb runtimeAt) c τ c' → c.state.store.task id = some t →
        e ∈ τ → ¬Inserts id task e := by
    intro τ c c' e t task hrun ht he hins
    rcases hrun.at_event he with ⟨pre, post, c₁, c₂, -, hpre, hstep, -⟩
    rcases task_stays_of_run hpre ht with ⟨t', ht', -⟩
    rw [(insert_of_step hstep hins).1] at ht'
    cases ht'
  rcases h.at_event he with ⟨pre, post, c₁, c₂, rfl, hpre, hstep, hpost⟩
  rcases List.mem_append.mp he' with hbefore | hafter
  · rcases hpre.at_event hbefore with ⟨pre', post', d₁, d₂, -, hpre', hstep', hpost'⟩
    have hrest : Run (system jsonb runtimeAt) d₂ (post' ++ [e]) c₂ := hpost'.snoc hstep
    exact absurd hins (hlater hrest (insert_of_step hstep' hins').2 (by simp))
  · rcases List.mem_cons.mp hafter with rfl | hafter
    · rfl
    · exact absurd hins' (hlater hpost (insert_of_step hstep hins).2 hafter)

end Tables

end Igris
