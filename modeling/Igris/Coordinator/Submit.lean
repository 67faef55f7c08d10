import Igris.System.Action

/-!
# Submission and human decisions

The entry points of the coordinator that a client calls: submitting a task,
approving or rejecting a task that waits for a human, and canceling a task.
Writes to audit tables whose errors the source ignores are left out.
-/

namespace Igris
namespace Coordinator

open Concurrency Program

/-- Why an entry point reports an error. -/
inductive CoordinatorError where
  | invalidTaskDefinition (message : String)
  | executionInputProtectionUnavailable (message : String)
  | createTaskRecord (err : StoreError)
  | taskIdempotencyConflict
  | lookupBoundIdempotency
  | idempotencyKeyInUse
  | lookupIdempotentTask
  | noHealthyRuntime (message : String)
  | persistActionPolicyDecision (message : String)
  | taskCapabilityDenied (reason : String)
  | markApprovalRequired (err : StoreError)
  | markDispatched (err : StoreError)
  | taskPermissionEnvelope (message : String)
  | persistTaskPermissionEnvelope (message : String)
  | markDemoFailure (err : StoreError)
  | taskNotFound
  | readTask
  | taskNotAwaitingApproval
  | noRuntimeForApproval
  | taskTransition (err : StoreError)
  | encryptedInputUnavailable (message : String)
deriving DecidableEq, Repr

/-- Mark a task failed on the coordinator's own account; the outcome is ignored. -/
def failTask (taskID : Uuid) (reason operation rejectionType message : String) : Program Unit := do
  let _ ← store (.markFailedWithDetails taskID reason
    (some (overtureTaskFailureDetails operation rejectionType message)))
  pure ()

/-! ## Submitting a task -/

/-- Normalize the definition, choose the identifiers and replace sensitive inputs by
references.  Returns the record to insert and the definition for the runtime. -/
def prepareTask (req : TaskSubmitRequest) :
    Program (Except CoordinatorError (TaskRecord × TaskDefinition)) := do
  match ← rewrite .normalizePublicTaskDefinition req.taskDefinition with
  | .error message => pure (.error (.invalidTaskDefinition message))
  | .ok normalizedDefinition =>
      let fresh ← newUUID
      let taskID := if req.taskID ≠ Uuid.nil then req.taskID else fresh
      let idempotencyKey := if req.idempotencyKey = "" then taskID.string else req.idempotencyKey
      match ← rewrite .protectTaskDefinitionInputs normalizedDefinition with
      | .error message => pure (.error (.executionInputProtectionUnavailable message))
      | .ok protectedDefinition =>
          let task : TaskRecord := {
            taskID := taskID
            tenantID := req.tenantID
            status := .pending
            taskDefinition := protectedDefinition
            idempotencyKey := idempotencyKey }
          pure (.ok (task, normalizedDefinition))

/-- The task that holds an idempotency key already. -/
def existingTask (tenantID idempotencyKey : String) :
    Program (Except CoordinatorError TaskRecord) := do
  match ← getTaskByIdempotencyKey tenantID idempotencyKey with
  | .ok existing => pure (.ok existing)
  | .error .noRows => pure (.error .idempotencyKeyInUse)
  | .error .database => pure (.error .lookupIdempotentTask)

/-- The key was taken: a bound action has to be the same request. -/
def resolveDuplicate (req : TaskSubmitRequest) (idempotencyKey : String) :
    Program (Except CoordinatorError TaskRecord) := do
  match req.boundAction with
  | none => existingTask req.tenantID idempotencyKey
  | some bound =>
      match ← getBoundActionRunByIdempotency req.tenantID idempotencyKey with
      | .error .noRows => pure (.error .taskIdempotencyConflict)
      | .error .database => pure (.error .lookupBoundIdempotency)
      | .ok existingBound =>
          if existingBound.requestFingerprint ≠ bound.requestFingerprint then
            pure (.error .taskIdempotencyConflict)
          else existingTask req.tenantID idempotencyKey

/-- The policy allows the task: assign the runtime, sign the permissions and send it
off in the background. -/
def dispatchSubmitted (task : TaskRecord) (normalizedDefinition : TaskDefinition)
    (runtime : RuntimeInfo) : Program (Except CoordinatorError TaskRecord) := do
  match ← store (.markDispatched task.taskID runtime.runtimeID runtime.endpoint) with
  | .error err => pure (.error (.markDispatched err))
  | .ok _ =>
      let task := { task with
        status := .dispatched
        runtimeID := some runtime.runtimeID
        runtimeEndpoint := some runtime.endpoint }
      match ← call (.buildTaskPermissionEnvelope task.taskID) with
      | .error message =>
          failTask task.taskID "task capability policy denied" "submit" "capability_policy_denied"
            message
          pure (.error (.taskPermissionEnvelope message))
      | .ok _ =>
          match ← call (.saveTaskPermissionEnvelope task.taskID) with
          | .error message =>
              failTask task.taskID "task permission audit persistence failed" "submit"
                "permission_audit_persistence_failed" message
              pure (.error (.persistTaskPermissionEnvelope message))
          | .ok _ =>
              let runtimeTask := { task with taskDefinition := normalizedDefinition }
              go (.dispatchToRuntime runtimeTask none)
              pure (.ok task)

/-- Policy input of a submission. -/
def submitPolicyInput (task : TaskRecord) (runtime : RuntimeInfo) : ActionPolicyInput where
  tenantID := task.tenantID
  taskID := task.taskID
  runtimeID := runtime.runtimeID
  taskDefinition := task.taskDefinition

/-- The row was inserted: pick a runtime, let the policy decide and act on it. -/
def startSubmitted (req : TaskSubmitRequest) (task : TaskRecord)
    (normalizedDefinition : TaskDefinition) : Program (Except CoordinatorError TaskRecord) := do
  match ← selectRuntime req.tenantID req.preferredRuntimeID with
  | .error message =>
      failTask task.taskID "no healthy runtime available" "submit" "no_runtime_available"
        "no healthy runtime available"
      pure (.error (.noHealthyRuntime message))
  | .ok runtime =>
      let decision := evaluateActionPolicy (submitPolicyInput task runtime)
      match ← call (.saveActionPolicyDecision decision) with
      | .error message =>
          failTask task.taskID "action policy decision persistence failed" "submit"
            "policy_decision_persistence_failed" message
          pure (.error (.persistActionPolicyDecision message))
      | .ok _ =>
          match decision.decision with
          | .denied =>
              failTask task.taskID decision.policyReason "submit" "action_policy_denied"
                decision.policyReason
              pure (.error (.taskCapabilityDenied decision.policyReason))
          | .approvalRequired =>
              match ← store (.markApprovalRequired task.taskID decision.policyReason) with
              | .error err => pure (.error (.markApprovalRequired err))
              | .ok _ =>
                  pure (.ok { task with
                    status := .approvalRequired
                    runtimeID := some runtime.runtimeID })
          | .allowed => dispatchSubmitted task normalizedDefinition runtime

/-- Create a task record and dispatch the task to a runtime. -/
def submit (req : TaskSubmitRequest) : Program (Except CoordinatorError TaskRecord) := do
  match ← prepareTask req with
  | .error err => pure (.error err)
  | .ok (task, normalizedDefinition) =>
      match ← store (.createTask task req.boundAction) with
      | .error err => pure (.error (.createTaskRecord err))
      | .ok [] => resolveDuplicate req task.idempotencyKey
      | .ok (_ :: _) => startSubmitted req task normalizedDefinition

/-- Create a task record and mark it failed without dispatching it. -/
def submitDemoSimulatedFailure (req : TaskSubmitRequest) (failureReason : String) :
    Program (Except CoordinatorError TaskRecord) := do
  match ← prepareTask req with
  | .error err => pure (.error err)
  | .ok (task, _) =>
      match ← store (.createTask task req.boundAction) with
      | .error err => pure (.error (.createTaskRecord err))
      | .ok [] => existingTask req.tenantID task.idempotencyKey
      | .ok (_ :: _) =>
          let trimmed := Text.trimSpace failureReason
          let reason := if trimmed = "" then "demo simulated failure" else trimmed
          match ← store (.markFailedWithDetails task.taskID reason
              (some (overtureTaskFailureDetails "submit" "demo_simulated_failure" reason))) with
          | .error err => pure (.error (.markDemoFailure err))
          | .ok _ => pure (.ok { task with status := .failed, failureReason := some reason })

/-! ## What a submission can do

The lemmas below hold for any account {lit}`K` of the answers a thread receives.
-/

section Guards

variable {K : (a : Action) → Answer a → Prop} {req : TaskSubmitRequest}

/-- The record a submission tries to insert. -/
structure Prepared (req : TaskSubmitRequest) (task : TaskRecord) : Prop where
  tenantID : task.tenantID = req.tenantID
  taskID : req.taskID ≠ Uuid.nil → task.taskID = req.taskID
  idempotencyKey : task.idempotencyKey =
    if req.idempotencyKey = "" then task.taskID.string else req.idempotencyKey

/-- The submission learned that it inserted the record. -/
structure Created (K : (a : Action) → Answer a → Prop) (req : TaskSubmitRequest)
    (task : TaskRecord) : Prop where
  prepared : Prepared req task
  inserted : ∃ id ids, K (.store (.createTask task req.boundAction)) (.ok (id :: ids))

/-- Actions of a submission. -/
inductive SubmitIssues (K : (a : Action) → Answer a → Prop) (req : TaskSubmitRequest) :
    Action → Prop where
  | quiet {a : Action} (h : a.quiet = true) : SubmitIssues K req a
  | create {task : TaskRecord} (h : Prepared req task) :
      SubmitIssues K req (.store (.createTask task req.boundAction))
  | fail {task : TaskRecord} (h : Created K req task) (reason : String)
      (details : Option TaskFailureDetails) :
      SubmitIssues K req (.store (.markFailedWithDetails task.taskID reason details))
  | approvalRequired {task : TaskRecord} (h : Created K req task) (reason : String) :
      SubmitIssues K req (.store (.markApprovalRequired task.taskID reason))
  | dispatch {task : TaskRecord} (h : Created K req task)
      (hopen : policyHumanGated task.taskDefinition = false) (runtimeID endpoint : String) :
      SubmitIssues K req (.store (.markDispatched task.taskID runtimeID endpoint))
  | go {task runtimeTask : TaskRecord} (h : Created K req task)
      (hopen : policyHumanGated task.taskDefinition = false)
      (hid : runtimeTask.taskID = task.taskID) :
      SubmitIssues K req (.go (.dispatchToRuntime runtimeTask none))

/-- The submission found the key taken, and a bound action taken by the same request. -/
structure Duplicate (K : (a : Action) → Answer a → Prop) (req : TaskSubmitRequest)
    (task : TaskRecord) : Prop where
  prepared : Prepared req task
  same : ∀ bound, req.boundAction = some bound → ∃ existing,
    K (.getBoundActionRunByIdempotency req.tenantID task.idempotencyKey) (.ok existing) ∧
      existing.requestFingerprint = bound.requestFingerprint

/-- Why a submission fails. -/
inductive SubmitFails (K : (a : Action) → Answer a → Prop) (req : TaskSubmitRequest) :
    CoordinatorError → Prop where
  | created {task : TaskRecord} {err : CoordinatorError} (h : Created K req task) :
      SubmitFails K req err
  | duplicate {task : TaskRecord} {err : CoordinatorError} (h : Duplicate K req task) :
      SubmitFails K req err
  | conflict : SubmitFails K req .taskIdempotencyConflict
  | rewrite {service : DefinitionService} {definition : TaskDefinition} {message : String}
      {err : CoordinatorError} (h : K (.rewrite service definition) (.error message)) :
      SubmitFails K req err
  | create {task : TaskRecord} {err : StoreError}
      (h : K (.store (.createTask task req.boundAction)) (.error err)) :
      SubmitFails K req (.createTaskRecord err)
  | lookup {key : String}
      (h : K (.getBoundActionRunByIdempotency req.tenantID key) (.error .database)) :
      SubmitFails K req .lookupBoundIdempotency

/-- Where the result of a submission comes from. -/
def SubmitReturns (K : (a : Action) → Answer a → Prop) (req : TaskSubmitRequest) :
    Except CoordinatorError TaskRecord → Prop
  | .ok t =>
      (∃ task, Created K req task ∧ t.taskID = task.taskID) ∨
      (∃ task, Duplicate K req task ∧
        K (.getTaskByIdempotencyKey req.tenantID task.idempotencyKey) (.ok t))
  | .error err => SubmitFails K req err

/-- The action asks for a human's approval. -/
def asksApproval : Action → Bool
  | .store (.markApprovalRequired _ _) => true
  | _ => false

/-- Along a path of a submission, the requests for approval. -/
abbrev SubmitsAlong (K : (a : Action) → Answer a → Prop) (req : TaskSubmitRequest)
    (post : Except CoordinatorError TaskRecord → Prop)
    (p : Program (Except CoordinatorError TaskRecord)) : Prop :=
  p.Along K (SubmitIssues K req) (fun a => if asksApproval a = true then some () else none) post
    [()]

/-- An action that prepares the record. -/
def preliminary : Action → Bool
  | .rewrite _ _ | .newUUID => true
  | _ => false

theorem quiet_of_preliminary {a : Action} (h : preliminary a = true) : a.quiet = true := by
  cases a <;> first | rfl | cases h

theorem along_of_quiet {α : Type} {p : Program α} {post : α → Prop}
    (h : p.Guarded K (·.quiet = true) post) :
    p.Along K (SubmitIssues K req) (fun a => if asksApproval a = true then some () else none) post
      [] := by
  refine h.along fun a hquiet => ⟨.quiet hquiet, if_neg ?_⟩
  cases a with
  | store op => cases hquiet
  | _ => nofun

theorem prepareTask_guarded :
    (prepareTask req).Guarded K (preliminary · = true) fun
      | .ok (task, _) => Prepared req task
      | .error err => SubmitFails K req err := by
  unfold prepareTask
  simp only [Prog.bind_eq, Prog.issue_bind, Prog.guarded_act]
  refine ⟨rfl, ?_⟩
  intro normalized hnormalized
  cases normalized with
  | error message => exact SubmitFails.rewrite hnormalized
  | ok normalized =>
      simp only [Prog.guarded_act]
      refine ⟨rfl, ?_⟩
      intro fresh _
      refine ⟨rfl, ?_⟩
      intro rewritten hrewritten
      cases rewritten with
      | error message => exact SubmitFails.rewrite hrewritten
      | ok rewritten => exact ⟨rfl, fun hne => if_pos hne, rfl⟩

/-- A submission prepares its record before it does anything else. -/
theorem prepareTask_along {post : Except CoordinatorError TaskRecord → Prop}
    {rest : Except CoordinatorError (TaskRecord × TaskDefinition) →
      Program (Except CoordinatorError TaskRecord)}
    (hfailed : ∀ err, SubmitFails K req err → SubmitsAlong K req post (rest (.error err)))
    (hprepared : ∀ task normalized, Prepared req task →
      SubmitsAlong K req post (rest (.ok (task, normalized)))) :
    SubmitsAlong K req post ((prepareTask req).bind rest) := by
  refine (along_of_quiet (prepareTask_guarded.widen fun _ => quiet_of_preliminary)).bind ?_
  rintro (err | ⟨task, normalized⟩) h
  · exact hfailed err h
  · exact hprepared task normalized h

theorem dispatchSubmitted_along {task : TaskRecord} {normalized : TaskDefinition}
    {runtime : RuntimeInfo} (hcreated : Created K req task)
    (hopen : policyHumanGated task.taskDefinition = false) :
    SubmitsAlong K req (SubmitReturns K req) (dispatchSubmitted task normalized runtime) := by
  refine ⟨.dispatch hcreated hopen _ _, ?_⟩
  intro dispatched _
  cases dispatched with
  | error err => exact SubmitFails.created hcreated
  | ok ids =>
      refine ⟨.quiet rfl, ?_⟩
      intro built _
      cases built with
      | error message => exact ⟨.fail hcreated _ _, fun _ _ => SubmitFails.created hcreated⟩
      | ok _ =>
          refine ⟨.quiet rfl, ?_⟩
          intro saved _
          cases saved with
          | error message => exact ⟨.fail hcreated _ _, fun _ _ => SubmitFails.created hcreated⟩
          | ok _ => exact ⟨.go hcreated hopen rfl, fun _ _ => Or.inl ⟨task, hcreated, rfl⟩⟩

theorem startSubmitted_along {task : TaskRecord} {normalized : TaskDefinition}
    (hcreated : Created K req task) :
    SubmitsAlong K req (SubmitReturns K req) (startSubmitted req task normalized) := by
  refine ⟨.quiet rfl, ?_⟩
  intro selected _
  cases selected with
  | error message => exact ⟨.fail hcreated _ _, fun _ _ => SubmitFails.created hcreated⟩
  | ok runtime =>
      refine ⟨.quiet rfl, ?_⟩
      intro saved _
      cases saved with
      | error message => exact ⟨.fail hcreated _ _, fun _ _ => SubmitFails.created hcreated⟩
      | ok _ =>
          have hdecision := evaluateActionPolicy_submit (submitPolicyInput task runtime) rfl
          cases hgated : policyHumanGated task.taskDefinition with
          | true =>
              rw [show policyHumanGated (submitPolicyInput task runtime).taskDefinition = true
                from hgated, if_pos rfl] at hdecision
              simp only [Prog.bind_ret, hdecision]
              refine ⟨.approvalRequired hcreated _, [], .refl _, ?_⟩
              intro marked _
              cases marked with
              | error err => exact SubmitFails.created hcreated
              | ok _ => exact Or.inl ⟨task, hcreated, rfl⟩
          | false =>
              rw [show policyHumanGated (submitPolicyInput task runtime).taskDefinition = false
                from hgated, if_neg (by simp)] at hdecision
              simp only [Prog.bind_ret, hdecision]
              exact dispatchSubmitted_along hcreated hgated

theorem existingTask_guarded {task : TaskRecord} (hduplicate : Duplicate K req task) :
    (existingTask req.tenantID task.idempotencyKey).Guarded K (·.quiet = true)
      (SubmitReturns K req) := by
  refine ⟨rfl, ?_⟩
  intro found hfound
  cases found with
  | ok t => exact Or.inr ⟨task, hduplicate, hfound⟩
  | error err => cases err <;> exact SubmitFails.duplicate hduplicate

theorem resolveDuplicate_guarded {task : TaskRecord} (hprepared : Prepared req task) :
    (resolveDuplicate req task.idempotencyKey).Guarded K (·.quiet = true)
      (SubmitReturns K req) := by
  unfold resolveDuplicate
  split <;> rename_i hbound
  · apply existingTask_guarded
    refine ⟨hprepared, ?_⟩
    intro bound hsome
    rw [hbound] at hsome
    cases hsome
  · rename_i bound
    refine ⟨rfl, ?_⟩
    intro found hfound
    cases found with
    | error err =>
        cases err with
        | noRows => exact SubmitFails.conflict
        | database => exact SubmitFails.lookup hfound
    | ok existing =>
        simp only [Prog.bind_ret]
        split
        · exact SubmitFails.conflict
        · rename_i hsame
          apply existingTask_guarded
          refine ⟨hprepared, ?_⟩
          intro bound' hsome
          rw [hbound, Option.some.injEq] at hsome
          subst hsome
          exact ⟨existing, hfound, not_not.mp hsame⟩

theorem submit_along (K : (a : Action) → Answer a → Prop) (req : TaskSubmitRequest) :
    SubmitsAlong K req (SubmitReturns K req) (submit req) := by
  refine prepareTask_along (fun _ hfails => hfails) fun task normalized hprepared => ?_
  refine ⟨.create hprepared, ?_⟩
  rintro (err | (_ | ⟨id, ids⟩)) hK
  · exact SubmitFails.create hK
  · exact (along_of_quiet (resolveDuplicate_guarded hprepared)).mono (List.nil_sublist _)
  · exact startSubmitted_along ⟨hprepared, id, ids, hK⟩

/-- Everything a submission can do and return. -/
theorem submit_guarded (K : (a : Action) → Answer a → Prop) (req : TaskSubmitRequest) :
    (submit req).Guarded K (SubmitIssues K req) (SubmitReturns K req) :=
  (submit_along K req).guarded

theorem submitDemoSimulatedFailure_along (K : (a : Action) → Answer a → Prop)
    (req : TaskSubmitRequest) (failureReason : String) :
    SubmitsAlong K req (fun _ => True) (submitDemoSimulatedFailure req failureReason) := by
  refine prepareTask_along (fun _ _ => trivial) fun task normalized hprepared => ?_
  refine ⟨.create hprepared, ?_⟩
  rintro (err | (_ | ⟨id, ids⟩)) hK
  · trivial
  · refine ⟨.quiet rfl, ?_⟩
    intro found _
    rcases found with (_ | _) | _ <;> trivial
  · refine ⟨.fail ⟨hprepared, id, ids, hK⟩ _ _, ?_⟩
    intro failed _
    cases failed <;> trivial

/-- A simulated failure only inserts a record and fails it. -/
theorem submitDemoSimulatedFailure_guarded (K : (a : Action) → Answer a → Prop)
    (req : TaskSubmitRequest) (failureReason : String) :
    (submitDemoSimulatedFailure req failureReason).Issues K (SubmitIssues K req) :=
  (submitDemoSimulatedFailure_along K req failureReason).guarded

end Guards

/-! ## Human decisions -/

/-- How a handler reports that it could not load the task. -/
def readFailure : ReadError → CoordinatorError
  | .noRows => .taskNotFound
  | .database => .readTask

/-- A lost race counts as a task that no longer waits. -/
def approvalFailure : StoreError → CoordinatorError
  | .taskTransitionRejected => .taskNotAwaitingApproval
  | err => .taskTransition err

/-- Release a task that waits for approval and send it off in the background. -/
def approveTask (taskID : Uuid) (tenantID : String) :
    Program (Except CoordinatorError TaskRecord) := do
  match ← getTask taskID tenantID with
  | .error err => pure (.error (readFailure err))
  | .ok task =>
      if !taskAwaitingApproval task.status then pure (.error .taskNotAwaitingApproval)
      else
        match ← selectRuntime tenantID "" with
        | .error _ => pure (.error .noRuntimeForApproval)
        | .ok runtime =>
            match ← store (.markApprovedDispatched taskID tenantID runtime.runtimeID
                runtime.endpoint) with
            | .error err => pure (.error (approvalFailure err))
            | .ok _ =>
                let task := { task with
                  status := .dispatched
                  runtimeID := some runtime.runtimeID
                  runtimeEndpoint := some runtime.endpoint }
                match ← rewrite .rehydrateTaskDefinitionInputRefs task.taskDefinition with
                | .error message =>
                    failTask taskID "encrypted input unavailable for approved dispatch" "approval"
                      "encrypted_input_unavailable" message
                    pure (.error (.encryptedInputUnavailable message))
                | .ok rehydrated =>
                    let runtimeTask := { task with taskDefinition := rehydrated }
                    go (.dispatchToRuntime runtimeTask none)
                    pure (.ok task)

def taskFailureReasonApprovalRejected : String :=
  "action run rejected by approver"

/-- Refuse a task that waits for approval. -/
def rejectTask (taskID : Uuid) (tenantID reason : String) :
    Program (Except CoordinatorError TaskRecord) := do
  match ← getTask taskID tenantID with
  | .error err => pure (.error (readFailure err))
  | .ok task =>
      if !taskAwaitingApproval task.status then pure (.error .taskNotAwaitingApproval)
      else
        let trimmed := Text.trimSpace reason
        let failureReason := if trimmed ≠ "" then
            taskFailureReasonApprovalRejected ++ ": " ++ trimmed
          else taskFailureReasonApprovalRejected
        match ← store (.markApprovalRejected taskID tenantID failureReason
            (some (overtureTaskFailureDetails "approval" "approval_rejected" failureReason))) with
        | .error err => pure (.error (approvalFailure err))
        | .ok _ =>
            pure (.ok { task with status := .failed, failureReason := some failureReason })

/-- Cancel a task.  The signal to the runtime is seen there as the answer to the
cancellation test. -/
def handleTaskCancel (taskID : Uuid) (tenantID : String) :
    Program (Except CoordinatorError TaskRecord) := do
  match ← getTask taskID tenantID with
  | .error err => pure (.error (readFailure err))
  | .ok task =>
      if !taskAllowsCancellation task.status then
        pure (.error (.taskTransition .taskTransitionRejected))
      else
        match ← store (.markCanceled taskID) with
        | .error err => pure (.error (.taskTransition err))
        | .ok _ =>
            match ← getTask taskID tenantID with
            | .ok updatedTask => pure (.ok updatedTask)
            | .error _ => pure (.ok { task with status := .canceled })

section Guards

variable {K : (a : Action) → Answer a → Prop} {taskID : Uuid} {tenantID : String}

/-- Actions of an approval: it sends the task off only after it won the claim. -/
inductive ApproveIssues (K : (a : Action) → Answer a → Prop) (taskID : Uuid)
    (tenantID : String) : Action → Prop where
  | quiet {a : Action} (h : a.quiet = true) : ApproveIssues K taskID tenantID a
  | claim (runtimeID endpoint : String) :
      ApproveIssues K taskID tenantID
        (.store (.markApprovedDispatched taskID tenantID runtimeID endpoint))
  | fail {runtimeID endpoint : String} {ids : List Uuid}
      (hwon : K (.store (.markApprovedDispatched taskID tenantID runtimeID endpoint)) (.ok ids))
      (reason : String) (details : Option TaskFailureDetails) :
      ApproveIssues K taskID tenantID (.store (.markFailedWithDetails taskID reason details))
  | go {runtimeID endpoint : String} {ids : List Uuid} {task runtimeTask : TaskRecord}
      (hwon : K (.store (.markApprovedDispatched taskID tenantID runtimeID endpoint)) (.ok ids))
      (hread : K (.getTask taskID tenantID) (.ok task)) (hid : runtimeTask.taskID = task.taskID) :
      ApproveIssues K taskID tenantID (.go (.dispatchToRuntime runtimeTask none))

/-- Actions of a rejection. -/
inductive RejectIssues (taskID : Uuid) (tenantID : String) : Action → Prop where
  | quiet {a : Action} (h : a.quiet = true) : RejectIssues taskID tenantID a
  | reject (reason : String) (details : Option TaskFailureDetails) :
      RejectIssues taskID tenantID (.store (.markApprovalRejected taskID tenantID reason details))

/-- Actions of a cancellation. -/
inductive CancelIssues (taskID : Uuid) : Action → Prop where
  | quiet {a : Action} (h : a.quiet = true) : CancelIssues taskID a
  | cancel : CancelIssues taskID (.store (.markCanceled taskID))

theorem approveTask_guarded (K : (a : Action) → Answer a → Prop) (taskID : Uuid)
    (tenantID : String) :
    (approveTask taskID tenantID).Issues K (ApproveIssues K taskID tenantID) := by
  refine ⟨.quiet rfl, ?_⟩
  intro found hfound
  cases found with
  | error err => trivial
  | ok task =>
      simp only [Prog.bind_ret]
      split
      · trivial
      · refine ⟨.quiet rfl, ?_⟩
        intro selected _
        cases selected with
        | error err => trivial
        | ok runtime =>
            refine ⟨.claim _ _, ?_⟩
            intro claimed hclaimed
            cases claimed with
            | error err => trivial
            | ok ids =>
                refine ⟨.quiet rfl, ?_⟩
                intro rehydrated _
                cases rehydrated with
                | error message => exact ⟨.fail hclaimed _ _, fun _ _ => trivial⟩
                | ok definition => exact ⟨.go hclaimed hfound rfl, fun _ _ => trivial⟩

theorem rejectTask_guarded (K : (a : Action) → Answer a → Prop) (taskID : Uuid)
    (tenantID reason : String) :
    (rejectTask taskID tenantID reason).Issues K (RejectIssues taskID tenantID) := by
  refine ⟨.quiet rfl, ?_⟩
  intro found _
  cases found with
  | error err => trivial
  | ok task =>
      simp only [Prog.bind_ret]
      split
      · trivial
      · refine ⟨.reject _ _, ?_⟩
        intro rejected _
        cases rejected <;> trivial

theorem handleTaskCancel_guarded (K : (a : Action) → Answer a → Prop) (taskID : Uuid)
    (tenantID : String) :
    (handleTaskCancel taskID tenantID).Issues K (CancelIssues taskID) := by
  refine ⟨.quiet rfl, ?_⟩
  intro found _
  cases found with
  | error err => trivial
  | ok task =>
      simp only [Prog.bind_ret]
      split
      · trivial
      · refine ⟨.cancel, ?_⟩
        intro canceled _
        cases canceled with
        | error err => trivial
        | ok ids =>
            refine ⟨.quiet rfl, ?_⟩
            intro updated _
            cases updated <;> trivial

end Guards

end Coordinator
end Igris
