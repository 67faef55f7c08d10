import Igris.Coordinator.Dispatch
import Igris.Executor.Submissions

/-!
# Dispatching a recorded task again

A runtime keeps its response under the tenant and the idempotency key of the request,
together with a hash over the members that determine the execution.  The coordinator
recomputes all these members at every dispatch.  One of them is the time that is left
until the deadline.

Main results:

- Theorem {lit}`redispatch_replays_iff`: a later dispatch is answered with the recorded
  response exactly if it computes the same budget; otherwise it is a conflict.
-/

namespace Igris
namespace Coordinator

open Concurrency Relational Program Executor

/-! ## The members that a dispatch recomputes -/

/-- Smallest budget of a first dispatch, in milliseconds. -/
def minRuntimeDeadlineBudgetMs : Int := 1

/-- Durations are kept in 64 bits and saturate. -/
def saturateDuration (nanoseconds : Int) : Int :=
  max (-2 ^ 63) (min (2 ^ 63 - 1) nanoseconds)

/-- The time until the deadline in milliseconds; points in time are in nanoseconds. -/
def runtimeDeadlineBudgetMs (deadlineAt : Option Int) (checkpoint : Option CheckpointPayload)
    (now : Int) : Option Nat :=
  match deadlineAt with
  | none => none
  | some deadline =>
      let remainingMs := (saturateDuration (deadline - now)).tdiv 1000000
      if checkpoint.isSome ∧ remainingMs ≤ 0 then none
      else if remainingMs < minRuntimeDeadlineBudgetMs then some minRuntimeDeadlineBudgetMs.toNat
      else some remainingMs.toNat

/-- What a dispatch takes from the record of the task besides its definition. -/
structure DispatchTerms where
  deadlineAt : Option Int
  agentIdentity : AgentIdentity
  requiredCapabilities : List String
  /-- There are signed decisions for robotics actions. -/
  decided : Bool

def agentIdentityEmpty (identity : AgentIdentity) : Bool :=
  decide (Text.trimSpace identity.agentID = "") && decide (Text.trimSpace identity.principalID = "") &&
    decide (Text.trimSpace identity.submittedBy = "") &&
    decide (Text.trimSpace identity.actingOnBehalfOf = "") && identity.delegationChain.isEmpty

/-- The request of a dispatch at a point in time. -/
def dispatchPayload (task : TaskRecord) (terms : DispatchTerms)
    (checkpoint : Option CheckpointPayload) (now : Int) : RuntimeTaskRequest :=
  { runtimePayload task checkpoint with
    containment := if terms.decided then some "\x7b\"max_tick_ms\":30000\x7d" else none
    deadlineMs := runtimeDeadlineBudgetMs terms.deadlineAt checkpoint now
    agentIdentity := if agentIdentityEmpty terms.agentIdentity then none else some terms.agentIdentity
    requiredCapabilities := terms.requiredCapabilities }

/-- Of what is hashed, only the budget depends on the time. -/
theorem hashed_dispatchPayload_iff {task : TaskRecord} {terms : DispatchTerms}
    {checkpoint : Option CheckpointPayload} {t₁ t₂ : Int} :
    (dispatchPayload task terms checkpoint t₁).hashed = (dispatchPayload task terms checkpoint t₂).hashed ↔
      runtimeDeadlineBudgetMs terms.deadlineAt checkpoint t₁ =
        runtimeDeadlineBudgetMs terms.deadlineAt checkpoint t₂ := by
  constructor
  · intro h
    exact congrArg HashedRequest.deadlineMs h
  · intro h
    simp [RuntimeTaskRequest.hashed, dispatchPayload, h]

/-! ## The answer to a known submission -/

/-- A request whose key is known is answered from its record, and nothing is executed. -/
theorem handleTaskSubmit_known {env : Environment} {runtimeID : String} {req : RuntimeTaskRequest}
    {s s' : RuntimeState} {done : List (Performed Action Answer)} {result : RuntimeResponse}
    (hexec : Exec (performLocal env) (handleTaskSubmit runtimeID req) s done result s')
    (hdecodes : requestDecodes req = true)
    (hawake : (⟨.test .safeIdle, true⟩ : Performed Action Answer) ∉ done)
    (hread : (⟨lookupOf req, (none : Option RuntimeResponse)⟩ : Performed Action Answer) ∉ done) :
    some result = s.recordedResponse env req.tenantID req.idempotencyKey req.hashed ∧ s' = s ∧
      ∀ d ∈ done, executedUnit d.action = none := by
  unfold handleTaskSubmit at hexec
  rw [if_neg (by simp [hdecodes])] at hexec
  obtain ⟨idle, s₁, rest, hidle, rfl, hafterIdle⟩ := exec_act_iff.mp hexec
  obtain rfl := performLocal_onlyReads rfl hidle
  cases idle with
  | true => exact absurd List.mem_cons_self hawake
  | false =>
      obtain ⟨recorded, s₂, tail, hlookup, rfl, hafterLookup⟩ := exec_act_iff.mp hafterIdle
      obtain rfl := performLocal_onlyReads rfl hlookup
      cases recorded with
      | none => exact absurd (List.mem_cons_of_mem _ List.mem_cons_self) hread
      | some response =>
          obtain ⟨rfl, rfl, rfl⟩ := exec_ret_iff.mp hafterLookup
          simp only [performLocal, reduceCtorEq, false_or, Option.ite_none_right_eq_some] at hlookup
          refine ⟨hlookup.1, rfl, ?_⟩
          simp [executedUnit]

/-- A task was dispatched and its response recorded.  A later dispatch of it, which
reaches a runtime that is not in safe idle and can read its storage, is answered with
that response and executes nothing exactly if it computes the same deadline budget;
otherwise it is answered as an idempotency conflict. -/
theorem redispatch_replays_iff (env : Environment) (runtimeID : String) (task : TaskRecord)
    (terms : DispatchTerms) (checkpoint : Option CheckpointPayload) (t₁ t₂ : Int)
    (s s' : RuntimeState) (response : TaskSubmitResponse) (done : List (Performed Action Answer))
    (result : RuntimeResponse)
    (hrecorded : s.submissions.get
        (submissionKey task.tenantID (runtimeDispatchIdempotencyKey task checkpoint)) =
      some ⟨submissionKey task.tenantID (runtimeDispatchIdempotencyKey task checkpoint),
        env.hashRequest (dispatchPayload task terms checkpoint t₁).hashed, response⟩)
    (hseparates : env.hashRequest (dispatchPayload task terms checkpoint t₁).hashed =
        env.hashRequest (dispatchPayload task terms checkpoint t₂).hashed →
      (dispatchPayload task terms checkpoint t₁).hashed =
        (dispatchPayload task terms checkpoint t₂).hashed)
    (hexec : Exec (performLocal env)
      (handleTaskSubmit runtimeID (dispatchPayload task terms checkpoint t₂)) s done result s')
    (hdecodes : requestDecodes (dispatchPayload task terms checkpoint t₂) = true)
    (hawake : (⟨.test .safeIdle, true⟩ : Performed Action Answer) ∉ done)
    (hread : (⟨lookupOf (dispatchPayload task terms checkpoint t₂),
      (none : Option RuntimeResponse)⟩ : Performed Action Answer) ∉ done) :
    ((result = .response response ∧ ∀ d ∈ done, executedUnit d.action = none) ↔
        runtimeDeadlineBudgetMs terms.deadlineAt checkpoint t₁ =
          runtimeDeadlineBudgetMs terms.deadlineAt checkpoint t₂) ∧
      (result = .error 409 "idempotency_conflict" ↔
        runtimeDeadlineBudgetMs terms.deadlineAt checkpoint t₁ ≠
          runtimeDeadlineBudgetMs terms.deadlineAt checkpoint t₂) := by
  obtain ⟨hresult, -, hnothing⟩ := handleTaskSubmit_known hexec hdecodes hawake hread
  have hanswer : result =
      if env.hashRequest (dispatchPayload task terms checkpoint t₁).hashed ≠
          env.hashRequest (dispatchPayload task terms checkpoint t₂).hashed then
        .error 409 "idempotency_conflict"
      else .response response := by
    have hget : s.submissions.get (submissionKey (dispatchPayload task terms checkpoint t₂).tenantID
        (dispatchPayload task terms checkpoint t₂).idempotencyKey) = _ := hrecorded
    rw [RuntimeState.recordedResponse, hget, Option.map_some, Option.some.injEq] at hresult
    exact hresult
  have hsame : (dispatchPayload task terms checkpoint t₁).hashed =
        (dispatchPayload task terms checkpoint t₂).hashed ↔ _ := hashed_dispatchPayload_iff
  by_cases hbudget : runtimeDeadlineBudgetMs terms.deadlineAt checkpoint t₁ =
      runtimeDeadlineBudgetMs terms.deadlineAt checkpoint t₂
  · rw [if_neg (by simp [hsame.mpr hbudget])] at hanswer
    have hreplays : result = .response response ∧ ∀ d ∈ done, executedUnit d.action = none :=
      ⟨hanswer, hnothing⟩
    exact ⟨iff_of_true hreplays hbudget, by simp [hanswer, hbudget]⟩
  · rw [if_pos fun heq => hbudget (hsame.mp (hseparates heq))] at hanswer
    simp [hanswer, hbudget]

/-! ## A task with a deadline -/

/-- A digest that can be evaluated: the budget of the request. -/
def budgetEnvironment : Environment where
  sha256 := fun _ => zeroDigest
  hashRequest := fun hashed => toString (hashed.deadlineMs.getD 0)
  ticks := fun _ _ => []
  importedBefore := fun _ _ => 0

/-- A graph without nodes: the runtime reports its completion at once. -/
def emptyGraphTask : TaskRecord where
  taskID := 7
  tenantID := "acme"
  status := .dispatched
  runtimeID := some "rt-a"
  runtimeEndpoint := some "http://rt-a"
  taskDefinition := { text := "", taskType := .executionGraph }
  idempotencyKey := "order-1"

/-- The deadline, if any, is ten seconds after the first dispatch. -/
def plainTerms (deadlineAt : Option Int) : DispatchTerms where
  deadlineAt := deadlineAt
  agentIdentity := {}
  requiredCapabilities := []
  decided := false

/-- The storage can be read and written. -/
def responsive : (a : Action) → RuntimeState → Option (Answer a)
  | .test _, _ => some false
  | .submissionRecord tenantID key hashed, s =>
      some (s.recordedResponse budgetEnvironment tenantID key hashed)
  | .persistTaskRecord _ _ _ _, _ => some (.ok ())
  | .sendCallback _, _ => some ⟨true, .ok ()⟩
  | _, _ => none

/-- The dispatch of the task at a point in time. -/
def dispatchAt (deadlineAt : Option Int) (now : Int) : Program RuntimeResponse :=
  handleTaskSubmit "rt-a" (dispatchPayload emptyGraphTask (plainTerms deadlineAt) none now)

/-- The runtime was not in safe idle and read its storage. -/
def answered (done : List (Performed Action Answer)) : Bool :=
  done.all fun
    | ⟨.test _, holds⟩ => !holds
    | ⟨.submissionRecord _ _ _, recorded⟩ => recorded.isSome
    | _ => true

/-- The handler ended with a response that passes the check. -/
def responded (check : TaskSubmitResponse → Bool) : RuntimeResponse → Bool
  | .response response => check response
  | .error _ _ => false

/-- Without a deadline the second dispatch is answered from the record. -/
theorem redispatch_without_deadline_replays :
    ∃ done₁ response s₁ done₂ s₂,
      Exec (performLocal budgetEnvironment) (dispatchAt none 0) emptyRuntime done₁
        (.response response) s₁ ∧
      Exec (performLocal budgetEnvironment) (dispatchAt none 1000000000) s₁ done₂
        (.response response) s₂ ∧
      ∀ d ∈ done₂, executedUnit d.action = none := by
  have hrun : ((dispatchAt none 0).run (performLocal budgetEnvironment) responsive
      emptyRuntime).any (fun first =>
        responded (fun response => decide (first.2.2.submissions.get
            (submissionKey "acme" "order-1") = some ⟨submissionKey "acme" "order-1",
              budgetEnvironment.hashRequest
                (dispatchPayload emptyGraphTask (plainTerms none) none 0).hashed, response⟩))
          first.2.1 &&
        ((dispatchAt none 1000000000).run (performLocal budgetEnvironment) responsive
          first.2.2).any fun second => answered second.1) = true := by
    decide +kernel
  obtain ⟨done₁, result, s₁, hfirst, hcheck⟩ := exists_exec_of_run hrun
  rw [Bool.and_eq_true] at hcheck
  obtain ⟨done₂, value, s₂, hsecond, hanswered⟩ := exists_exec_of_run hcheck.2
  have hall := List.all_eq_true.mp hanswered
  cases result with
  | error code reason => cases hcheck.1
  | response response =>
      have hreplays := (redispatch_replays_iff budgetEnvironment "rt-a" emptyGraphTask
        (plainTerms none) none 0 1000000000 s₁ s₂ response done₂ value
        (of_decide_eq_true hcheck.1) (fun _ => rfl) hsecond (by decide +kernel)
        (fun hmem => absurd (hall _ hmem) (by simp))
        (fun hmem => absurd (hall _ hmem) (by simp))).1.mpr rfl
      obtain ⟨rfl, hnothing⟩ := hreplays
      exact ⟨done₁, response, s₁, done₂, s₂, hfirst, hsecond, hnothing⟩

/-- The task is dispatched, finished and recorded; one second later, nine seconds before
the deadline, it is dispatched again. -/
theorem redispatch_before_deadline_conflicts :
    ∃ done₁ response s₁ done₂ s₂,
      Exec (performLocal budgetEnvironment) (dispatchAt (some 10000000000) 0) emptyRuntime done₁
        (.response response) s₁ ∧
      response.status = .completed ∧
      Exec (performLocal budgetEnvironment) (dispatchAt (some 10000000000) 1000000000) s₁ done₂
        (.error 409 "idempotency_conflict") s₂ := by
  have hrun : ((dispatchAt (some 10000000000) 0).run (performLocal budgetEnvironment) responsive
      emptyRuntime).any (fun first =>
        responded (fun response => decide (response.status = .completed)) first.2.1 &&
        ((dispatchAt (some 10000000000) 1000000000).run (performLocal budgetEnvironment) responsive
          first.2.2).any fun second =>
            decide (second.2.1 = .error 409 "idempotency_conflict")) = true := by
    decide +kernel
  obtain ⟨done₁, result, s₁, hfirst, hcheck⟩ := exists_exec_of_run hrun
  rw [Bool.and_eq_true] at hcheck
  obtain ⟨done₂, value, s₂, hsecond, hconflict⟩ := exists_exec_of_run hcheck.2
  obtain rfl := of_decide_eq_true hconflict
  cases result with
  | response response =>
      exact ⟨done₁, response, s₁, done₂, s₂, hfirst, of_decide_eq_true hcheck.1, hsecond⟩
  | error code reason => cases hcheck.1

end Coordinator
end Igris
