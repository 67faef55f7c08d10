import Igris.Coordinator.Submit

/-!
# Runtime callbacks

A runtime reports checkpoints, completion and failure to the coordinator.  The
three handlers load the task, check the identity of the sender against the
assigned runtime and then hand the report to the store.
-/

namespace Igris
namespace Coordinator

open Concurrency Program

/-- The runtime a checkpoint names: in its token, or in its first entry that names one. -/
def checkpointRuntimeID (cp : CheckpointPayload) : String :=
  if cp.resumeToken.runtimeID ≠ "" then Text.trimSpace cp.resumeToken.runtimeID
  else
    match cp.walEntries.find? fun e => decide (Text.trimSpace e.runtimeID ≠ "") with
    | some e => Text.trimSpace e.runtimeID
    | none => ""

/-- Every identity that is given is the one of the assigned runtime. -/
def runtimeCallbackMatchesTask (task : TaskRecord) (runtimeIDs : List String) : Bool :=
  match task.runtimeID with
  | none => true
  | some assigned =>
      decide (Text.trimSpace assigned = "") || runtimeIDs.all fun runtimeID =>
        decide (Text.trimSpace runtimeID = "") ||
          decide (Text.trimSpace runtimeID = Text.trimSpace assigned)

/-- Check the signed identity of a callback.  Version, digest, freshness, signature
and nonce are checked by {lit}`verifyRuntimeCallback`. -/
def validateRuntimeCallback (task : TaskRecord) (callback : RuntimeCallback) : Program Bool := do
  match callback.envelope with
  | none =>
      match ← call .allowUnsignedRuntimeCallbacks with
      | .ok _ => pure true
      | .error _ => pure false
  | some envelope =>
      if envelope.tenantID ≠ callback.tenantID then pure false
      else if envelope.taskID ≠ task.taskID then pure false
      else if Text.trimSpace envelope.runtimeID = "" then pure false
      else if !runtimeCallbackMatchesTask task [envelope.runtimeID] then pure false
      else
        match ← call (.verifyRuntimeCallback envelope) with
        | .ok _ => pure true
        | .error _ => pure false

/-- HTTP status of a store error. -/
def storeErrorStatus : StoreError → Nat
  | .taskTransitionRejected => 409
  | _ => 500

/-- The handlers differ in the identities they compare and in the operation they
perform.  Returns the HTTP status. -/
def handleCallback (callback : RuntimeCallback) (runtimeIDs : List String) (op : StoreOp) :
    Program Nat := do
  match ← getTask callback.taskID callback.tenantID with
  | .error .noRows => pure 404
  | .error .database => pure 500
  | .ok task =>
      if !taskAllowsRuntimeMutation task.status then pure 409
      else if !(← validateRuntimeCallback task callback) then pure 403
      else if !runtimeCallbackMatchesTask task runtimeIDs then pure 403
      else
        match ← store op with
        | .error err => pure (storeErrorStatus err)
        | .ok _ => pure 200

/-- The task of a checkpoint is taken from the URL. -/
def handleTaskCheckpoint (callback : RuntimeCallback) (cp : CheckpointPayload) : Program Nat :=
  handleCallback callback
    [checkpointRuntimeID { cp with taskID := callback.taskID }, callback.headerRuntimeID]
    (.saveCheckpoint { cp with taskID := callback.taskID })

def handleTaskComplete (callback : RuntimeCallback) : Program Nat :=
  handleCallback callback ["", callback.headerRuntimeID] (.markCompleted callback.taskID)

def handleTaskFailed (callback : RuntimeCallback) (reason : String)
    (details : Option TaskFailureDetails) : Program Nat :=
  handleCallback callback ["", callback.headerRuntimeID]
    (.markFailedWithDetails callback.taskID reason details)

/-- The operation a callback asks for. -/
def callbackOp (callback : RuntimeCallback) : StoreOp :=
  match callback.body with
  | .checkpoint cp => .saveCheckpoint { cp with taskID := callback.taskID }
  | .complete => .markCompleted callback.taskID
  | .failed reason details => .markFailedWithDetails callback.taskID reason details

/-- The handler of a callback. -/
def handleRuntimeCallback (callback : RuntimeCallback) : Program Nat :=
  match callback.body with
  | .checkpoint cp => handleTaskCheckpoint callback cp
  | .complete => handleTaskComplete callback
  | .failed reason details => handleTaskFailed callback reason details

section Guards

variable {K : (a : Action) → Answer a → Prop} {callback : RuntimeCallback}

/-- The record against which a callback was checked, and the identities compared. -/
structure CallbackChecked (K : (a : Action) → Answer a → Prop) (callback : RuntimeCallback)
    (task : TaskRecord) : Prop where
  read : K (.getTask callback.taskID callback.tenantID) (.ok task)
  envelope : ∀ envelope, callback.envelope = some envelope →
    Text.trimSpace envelope.runtimeID ≠ "" ∧
      runtimeCallbackMatchesTask task [envelope.runtimeID] = true
  header : runtimeCallbackMatchesTask task [callback.headerRuntimeID] = true

/-- Actions of a callback handler: one operation, after the checks. -/
inductive CallbackIssues (K : (a : Action) → Answer a → Prop) (callback : RuntimeCallback) :
    Action → Prop where
  | quiet {a : Action} (h : a.quiet = true) : CallbackIssues K callback a
  | store {task : TaskRecord} {op : StoreOp} (h : CallbackChecked K callback task)
      (hop : callbackOp callback = op) : CallbackIssues K callback (.store op)

theorem validateRuntimeCallback_guarded (task : TaskRecord) :
    (validateRuntimeCallback task callback).Guarded K (CallbackIssues K callback) fun valid =>
      valid = true → ∀ envelope, callback.envelope = some envelope →
        Text.trimSpace envelope.runtimeID ≠ "" ∧
          runtimeCallbackMatchesTask task [envelope.runtimeID] = true := by
  unfold validateRuntimeCallback
  split
  · rename_i hnone
    refine ⟨.quiet rfl, ?_⟩
    intro allowed _
    cases allowed <;> simp [hnone]
  · rename_i envelope hsome
    split
    · simp
    · split
      · simp
      · split <;> rename_i hempty
        · simp
        · split <;> rename_i hmatch
          · simp
          · refine ⟨.quiet rfl, ?_⟩
            intro verified _
            cases verified with
            | error err => simp
            | ok _ =>
                simp only [Prog.pure_eq]
                intro _ envelope' henvelope'
                rw [hsome, Option.some.injEq] at henvelope'
                subst henvelope'
                exact ⟨hempty, by simpa using hmatch⟩

theorem matchesTask_header {task : TaskRecord} {id header : String}
    (h : runtimeCallbackMatchesTask task [id, header] = true) :
    runtimeCallbackMatchesTask task [header] = true := by
  unfold runtimeCallbackMatchesTask at h ⊢
  split at h
  · rfl
  · simp only [List.all_cons, List.all_nil, Bool.and_true, Bool.or_eq_true,
      Bool.and_eq_true] at h ⊢
    exact h.imp_right And.right

theorem handleCallback_guarded (id : String) :
    (handleCallback callback [id, callback.headerRuntimeID] (callbackOp callback)).Issues K
      (CallbackIssues K callback) := by
  refine ⟨.quiet rfl, ?_⟩
  intro found hfound
  cases found with
  | error err => cases err <;> trivial
  | ok task =>
      simp only [Prog.bind_ret]
      split
      · trivial
      · apply (validateRuntimeCallback_guarded task).bind
        intro valid hvalid
        split
        · trivial
        · rename_i hisValid
          split
          · trivial
          · rename_i hmatch
            have hchecked : CallbackChecked K callback task :=
              ⟨hfound, hvalid (by simpa using hisValid), matchesTask_header (by simpa using hmatch)⟩
            refine ⟨.store hchecked rfl, ?_⟩
            intro stored _
            cases stored <;> trivial

/-- Everything a callback handler can do. -/
theorem handleRuntimeCallback_guarded (K : (a : Action) → Answer a → Prop)
    (callback : RuntimeCallback) :
    (handleRuntimeCallback callback).Issues K (CallbackIssues K callback) := by
  have hall := fun id : String =>
    (handleCallback_guarded id : (handleCallback callback _ _).Guarded K _ _)
  unfold callbackOp at hall
  unfold handleRuntimeCallback
  split <;> rename_i hbody <;> simp only [hbody] at hall
  · exact hall _
  · exact hall ""
  · exact hall ""

end Guards

end Coordinator
end Igris
