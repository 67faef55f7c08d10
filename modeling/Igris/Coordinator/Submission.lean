import Igris.Coordinator.Recovery
import Igris.Store.History

/-!
# What a failed submission leaves behind

A submission inserts its row first and selects a runtime, asks the policy and
assigns the task afterwards.  Each of these steps can fail, and so can the dispatch
that is started in the background and the recovery pass that an unreachable runtime
sets off.  The statement that marks a task failed does not apply to a pending row.

Main results:

- Theorem {lit}`startSubmitted_ends`: how a submission ends after the insertion.
- Theorem {lit}`dispatchToRuntime_ends`: how a dispatch ends.
- Theorem {lit}`recoverRuntime_accounts`: a recovery pass fails a task that has no
  checkpoint.
- Theorem {lit}`submit_all_or_nothing_iff`: the record tells of a failure exactly when a
  runtime was selected, the decision was persisted and no later action lost the failure.
-/

namespace Igris
namespace Coordinator

open Concurrency

/-! ## Failures and what becomes of them -/

/-- The action failed. -/
def failurePoint : Performed Action Answer → Bool
  | ⟨.selectRuntime _ _, .error _⟩ => true
  | ⟨.call _, .error _⟩ => true
  | ⟨.store (.markDispatched _ _ _), .error _⟩ => true
  | ⟨.store (.markApprovalRequired _ _), .error _⟩ => true
  | ⟨.store (.markFailedWithDetails _ _ _), .error _⟩ => true
  | ⟨.awaitResponse _, .unreachable⟩ => true
  | ⟨.awaitResponse _, .serverError _⟩ => true
  | ⟨.awaitResponse _, .rejected _ _ _⟩ => true
  | ⟨.awaitResponse _, .undecodable⟩ => true
  | _ => false

/-- The action keeps a failure from being recorded for the task, which may be
resumable: the answer of the runtime was not decoded, a status was not written, or
the recovery pass could not read what it needs. -/
@[grind =]
def losesFailure (id : Uuid) (resumable : Bool) : Performed Action Answer → Bool
  | ⟨.awaitResponse request, .undecodable⟩ => decide (request.taskID = id)
  | ⟨.store (.markFailedWithDetails id' _ _), .error .database⟩ => decide (id' = id)
  | ⟨.store (.markApprovalRequired id' _), .error .database⟩ => decide (id' = id)
  | ⟨.store (.markDispatched id' _ _), .error _⟩ => decide (id' = id)
  | ⟨.store (.markRecovering _), .error _⟩ => true
  | ⟨.getTask id' _, .error _⟩ => decide (id' = id)
  | ⟨.call (.hydrateTaskPermissionEnvelope id'), .error _⟩ => decide (id' = id)
  | ⟨.getAllCheckpoints id', .error _⟩ => resumable && decide (id' = id)
  | _ => false

/-- Background work that was started. -/
def jobs (done : List (Performed Action Answer)) : List Job :=
  done.filterMap fun
    | ⟨.go job, _⟩ => some job
    | _ => none

/-- The record is finished or waits for approval, and says why. -/
structure TellsFailure (t : TaskRecord) : Prop where
  status : t.status.terminal = true ∨ t.status = .approvalRequired
  reason : t.failureReason.isSome = true

/-- The failure can be seen in the record of the task. -/
def Reported (id : Uuid) (s : State) : Prop :=
  ∃ t, s.store.task id = some t ∧ TellsFailure t

def selection : Performed Action Answer → Option (Except String RuntimeInfo)
  | ⟨.selectRuntime _ _, answer⟩ => some answer
  | _ => none

def decisionSaved : Performed Action Answer → Option (Except String Unit)
  | ⟨.call (.saveActionPolicyDecision _), answer⟩ => some answer
  | _ => none

/-- The submission selected a runtime and persisted the decision of the policy. -/
@[mk_iff]
structure Assigned (done : List (Performed Action Answer)) : Prop where
  selected : ∃ runtime, done.findSome? selection = some (.ok runtime)
  persisted : done.findSome? decisionSaved = some (.ok ())

/-- The record that was inserted. -/
def inserted : Performed Action Answer → Option TaskRecord
  | ⟨.store (.createTask task _), .ok (_ :: _)⟩ => some task
  | _ => none

/-- The task is with a runtime or being recovered. -/
def InHand (id : Uuid) (s : State) : Prop :=
  ∃ t, s.store.task id = some t ∧ taskAllowsRuntimeMutation t.status = true

/-- A new task without any checkpoint. -/
structure Fresh (id : Uuid) (resumable : Bool) (t : TaskRecord) (s : State) : Prop where
  row : s.store.task id = some t
  lastCheckpoint : t.lastCheckpoint = none
  history : s.store.checkpointsOf id = []
  resumable : taskSupportsRecoveryResume t = resumable

/-- What the actions so far mean for the task. -/
structure Ledger where
  failed : Bool := false
  lost : Bool := false
  jobs : List Job := []
  selected : Option (Except String RuntimeInfo) := none
  saved : Option (Except String Unit) := none
  inserted : Option TaskRecord := none

def Ledger.note (id : Uuid) (resumable : Bool) (l : Ledger) (d : Performed Action Answer) :
    Ledger where
  failed := match failurePoint d with
    | true => true
    | false => l.failed
  lost := match losesFailure id resumable d with
    | true => true
    | false => l.lost
  jobs := match Coordinator.jobs [d] with
    | [] => l.jobs
    | started => l.jobs ++ started
  selected := Prog.noteFirst selection l.selected d
  saved := Prog.noteFirst decisionSaved l.saved d
  inserted := Prog.noteFirst Coordinator.inserted l.inserted d

/-- Nothing failed or was lost, and no work was started. -/
structure Ledger.Clear (l : Ledger) : Prop where
  failed : l.failed = false
  lost : l.lost = false
  jobs : l.jobs = []

/-- A runtime was selected and the decision persisted. -/
def Ledger.Assigned (l : Ledger) : Prop :=
  (∃ runtime, l.selected = some (.ok runtime)) ∧ l.saved = some (.ok ())

/-- The record tells of the failure unless an action lost it. -/
def Accounted (id : Uuid) (s : State) (l : Ledger) : Prop :=
  Reported id s ↔ l.lost = false

/-- No work was started, and nothing failed or the failure is accounted for. -/
structure Concluded (id : Uuid) (s : State) (l : Ledger) : Prop where
  jobs : l.jobs = []
  outcome : l.failed = false ∨ Accounted id s l

/-- The dispatch of the task was started. -/
structure Started (id : Uuid) (resumable : Bool) (runtimeTask : TaskRecord) (runtimeID : String)
    (s : State) (l : Ledger) : Prop where
  job : l.jobs = [.dispatchToRuntime runtimeTask none]
  failed : l.failed = false
  lost : l.lost = false
  taskID : runtimeTask.taskID = id
  assigned : runtimeTask.runtimeID = some runtimeID
  row : ∃ t, Fresh id resumable t s ∧ t.status = .dispatched ∧ t.runtimeID = some runtimeID

/-- How a submission ends after it inserted its row: it has no runtime or no
decision, and the record does not tell; it is over; or its dispatch was started. -/
inductive SubmitEnds (id : Uuid) (resumable : Bool) (s : State) (l : Ledger) : Prop where
  | unassigned (hnot : ¬l.Assigned) (hjobs : l.jobs = []) (hrow : ¬Reported id s)
  | concluded (hassigned : l.Assigned) (hconcluded : Concluded id s l)
  | started {runtimeTask : TaskRecord} {runtimeID : String} (hassigned : l.Assigned)
      (hstarted : Started id resumable runtimeTask runtimeID s l)

/-- How a dispatch ends: it is over, or it started a recovery pass for the runtime and
left the tables alone. -/
inductive DispatchEnds (id : Uuid) (runtimeID : String) (store : Store) (s : State) (l : Ledger) :
    Prop where
  | concluded (hconcluded : Concluded id s l)
  | unreachable (hjobs : l.jobs = [.recoverRuntime runtimeID]) (hlost : l.lost = false)
      (hsame : s.store = store)

/-- Every execution of the program ends so, with the ledger kept for the task. -/
def Ends {α : Type} (jsonb : TaskDefinition → TaskDefinition) (id : Uuid) (resumable : Bool)
    (post : α → State → Ledger → Prop) (p : Program α) (s : State) (l : Ledger) : Prop :=
  p.Follows (perform jsonb) (Ledger.note id resumable) (fun _ _ => True) post s l

/-- A submission and the background work that it sets off: its dispatch, and the
recovery pass that an unreachable runtime causes.  {lit}`submitted` is what the
submission itself did and {lit}`done` what was done in all. -/
inductive SubmissionRun (jsonb : TaskDefinition → TaskDefinition) (req : TaskSubmitRequest)
    (s : State) : List (Performed Action Answer) → List (Performed Action Answer) → State → Prop where
  | demo {failureReason : String} {result : Except CoordinatorError TaskRecord}
      {submitted : List (Performed Action Answer)} {s' : State}
      (hexec : Exec (perform jsonb) (submitDemoSimulatedFailure req failureReason) s submitted
        result s') : SubmissionRun jsonb req s submitted submitted s'
  | alone {result : Except CoordinatorError TaskRecord}
      {submitted : List (Performed Action Answer)} {s' : State}
      (hexec : Exec (perform jsonb) (submit req) s submitted result s')
      (hjobs : jobs submitted = []) : SubmissionRun jsonb req s submitted submitted s'
  | dispatched {result : Except CoordinatorError TaskRecord} {task : TaskRecord}
      {cp : Option CheckpointPayload} {submitted sent : List (Performed Action Answer)}
      {s₁ s' : State} (hexec : Exec (perform jsonb) (submit req) s submitted result s₁)
      (hjobs : jobs submitted = [.dispatchToRuntime task cp])
      (hdispatch : Exec (perform jsonb) (dispatchToRuntime task cp) s₁ sent () s')
      (hover : jobs sent = []) : SubmissionRun jsonb req s submitted (submitted ++ sent) s'
  | recovered {result : Except CoordinatorError TaskRecord} {task : TaskRecord}
      {cp : Option CheckpointPayload} {runtimeID : String}
      {submitted sent pass : List (Performed Action Answer)} {s₁ s₂ s' : State}
      (hexec : Exec (perform jsonb) (submit req) s submitted result s₁)
      (hjobs : jobs submitted = [.dispatchToRuntime task cp])
      (hdispatch : Exec (perform jsonb) (dispatchToRuntime task cp) s₁ sent () s₂)
      (hfailed : jobs sent = [.recoverRuntime runtimeID])
      (hrecover : Exec (perform jsonb) (recoverRuntime runtimeID) s₂ pass () s') :
      SubmissionRun jsonb req s submitted (submitted ++ (sent ++ pass)) s'

section Submission

variable {jsonb : TaskDefinition → TaskDefinition} {s s' : State} {id : Uuid} {t : TaskRecord}
  {resumable : Bool} {l : Ledger} {done : List (Performed Action Answer)}
  {d : Performed Action Answer}

/-! ## The ledger -/

theorem lost_foldl (done : List (Performed Action Answer)) (l : Ledger) :
    (done.foldl (Ledger.note id resumable) l).lost = false ↔
      l.lost = false ∧ ∀ d ∈ done, losesFailure id resumable d = false := by
  induction done generalizing l with
  | nil => simp
  | cons d rest ih =>
      rw [List.foldl_cons, ih, List.forall_mem_cons]
      cases hd : losesFailure id resumable d <;> simp [Ledger.note, hd]

theorem failed_foldl (done : List (Performed Action Answer)) (l : Ledger) :
    (done.foldl (Ledger.note id resumable) l).failed = (l.failed || done.any failurePoint) := by
  induction done generalizing l with
  | nil => simp
  | cons d rest ih =>
      rw [List.foldl_cons, ih, List.any_cons]
      cases hd : failurePoint d <;> simp [Ledger.note, hd]

theorem jobs_foldl (id : Uuid) (resumable : Bool) (done : List (Performed Action Answer))
    (l : Ledger) :
    (done.foldl (Ledger.note id resumable) l).jobs = l.jobs ++ jobs done := by
  induction done generalizing l with
  | nil => exact (List.append_nil _).symm
  | cons d rest ih =>
      have hcons : jobs (d :: rest) = jobs [d] ++ jobs rest := List.filterMap_append (l := [d])
      rw [List.foldl_cons, ih, hcons]
      cases hd : jobs [d] <;> simp [Ledger.note, hd]

theorem assigned_foldl (id : Uuid) (resumable : Bool) (done : List (Performed Action Answer)) :
    (done.foldl (Ledger.note id resumable) {}).Assigned ↔ Assigned done := by
  have hselected : (done.foldl (Ledger.note id resumable) {}).selected = done.findSome? selection :=
    (List.foldl_hom Ledger.selected fun _ _ => rfl).symm.trans (Prog.foldl_noteFirst _ _ _)
  have hsaved : (done.foldl (Ledger.note id resumable) {}).saved = done.findSome? decisionSaved :=
    (List.foldl_hom Ledger.saved fun _ _ => rfl).symm.trans (Prog.foldl_noteFirst _ _ _)
  rw [Ledger.Assigned, assigned_iff, hselected, hsaved]

theorem ends_of_exec {α : Type} {post : α → State → Ledger → Prop} {p : Program α} {value : α}
    (hexec : Exec (perform jsonb) p s done value s') (hp : Ends jsonb id resumable post p s l) :
    post value s' (done.foldl (Ledger.note id resumable) l) :=
  hexec.follows hp (Prog.admitted_true _ _)

theorem not_reported_of_row (ht : s.store.task id = some t)
    (hstatus : t.status = .pending ∨ taskAllowsRuntimeMutation t.status = true) :
    ¬Reported id s := by
  rintro ⟨t', ht', htells⟩
  rw [ht, Option.some.injEq] at ht'
  subst ht'
  have hended := htells.status
  cases hst : t.status <;> simp [hst, TaskRecordStatus.terminal, taskAllowsRuntimeMutation] at hended hstatus

theorem InHand.not_reported (hs : InHand id s) : ¬Reported id s := by
  rcases hs with ⟨t, ht, hstatus⟩
  exact not_reported_of_row ht (Or.inr hstatus)

theorem ends_of_taskStays {α : Type} {p : Program α} (resumable : Bool) (l : Ledger)
    (ht : s.store.task id = some t) :
    Ends jsonb id resumable (fun _ s' _ => ∃ t', s'.store.task id = some t' ∧
      t'.tenantKey = t.tenantKey) p s l := by
  refine ((Prog.guarded_true p).follows (J := fun s' _ => ∃ t', s'.store.task id = some t' ∧
    t'.tenantKey = t.tenantKey) ⟨t, ht, rfl⟩ ?_).weaken fun _ _ _ h => h.1
  rintro a answer s₀ s₁ _ - hstep ⟨t₀, ht₀, hkey₀⟩
  rcases task_stays hstep ht₀ with ⟨t₁, ht₁, hkey₁⟩
  exact ⟨t₁, ht₁, hkey₁.trans hkey₀⟩

/-! ## Recording a failure -/

variable {answer : StoreAnswer}

variable {reason : String} {details : Option TaskFailureDetails} {result : TaskSubmitResult}

/-- Marking a task failed that is in hand. -/
theorem markFailed_accounts
    (hperform : perform jsonb (.store (.markFailedWithDetails id reason details)) answer s = some s')
    (hs : InHand id s) (hl : l.lost = false) : Accounted id s'
      (l.note id resumable ⟨.store (.markFailedWithDetails id reason details), answer⟩) := by
  rcases hs with ⟨t, ht, hstatus⟩
  have hcond : (StoreOp.markFailedWithDetails id reason details).rowUpdate.cond t = true := by
    refine hasStatus_iff.mpr ⟨Store.taskID_of_task ht, ?_⟩
    cases hst : t.status <;> simp [hst, taskAllowsRuntimeMutation] at hstatus ⊢
  rcases task_of_transition hperform rfl ht hcond with ⟨rfl, hsame⟩ | ⟨ids, heffect, hrow⟩
  · apply iff_of_false
    · exact not_reported_of_row (hsame ▸ ht) (Or.inr hstatus)
    · simp [Ledger.note, losesFailure]
  · apply iff_of_true ⟨_, hrow, Or.inl rfl, rfl⟩
    rcases heffect with rfl | rfl <;> exact hl

theorem markFailed_concludes
    (hperform : perform jsonb (.store (.markFailedWithDetails id reason details)) answer s = some s')
    (hs : InHand id s) (hjobs : l.jobs = []) (hlost : l.lost = false) : Concluded id s'
      (l.note id resumable ⟨.store (.markFailedWithDetails id reason details), answer⟩) :=
  ⟨hjobs, Or.inr (markFailed_accounts hperform hs hlost)⟩

/-- Marking a pending task failed does nothing. -/
theorem markFailed_of_pending
    (hperform : perform jsonb (.store (.markFailedWithDetails id reason details)) answer s = some s')
    (ht : s.store.task id = some t) (hstatus : t.status = .pending) :
    s'.store.task id = some t := by
  apply task_of_unmet hperform ht
  intro hcond
  have hmem := (hasStatus_iff.mp hcond).2
  rw [hstatus] at hmem
  simp at hmem

/-! ## The submission -/

theorem checkpointsOf_of_write {op : StoreOp}
    (hperform : perform jsonb (.store op) answer s = some s') (hop : op.recorded = []) :
    s'.store.checkpointsOf id = s.store.checkpointsOf id := by
  unfold Store.checkpointsOf
  rcases op.perform_cases (perform_store hperform).1 with ⟨err, -, -, hsame⟩ | ⟨ids, -, happly⟩
  · rw [hsame]
  · rw [StoreOp.walCheckpoints_apply happly, hop, List.append_nil]

theorem dispatchSubmitted_ends {task : TaskRecord} {normalized : TaskDefinition}
    {runtime : RuntimeInfo} (hl : l.Clear) (hassigned : l.Assigned)
    (hfresh : Fresh task.taskID resumable t s) (hstatus : t.status = .pending) :
    Ends jsonb task.taskID resumable (fun _ => SubmitEnds task.taskID resumable)
      (dispatchSubmitted task normalized runtime) s l := by
  intro marked s₁ hmark _
  have hcond : (StoreOp.markDispatched task.taskID runtime.runtimeID runtime.endpoint).rowUpdate.cond
      t = true := hasStatus_iff.mpr ⟨Store.taskID_of_task hfresh.row, by simp [hstatus]⟩
  have hlost : ∀ err, (l.note task.taskID resumable ⟨.store (.markDispatched task.taskID
      runtime.runtimeID runtime.endpoint), .error err⟩).lost ≠ false := by
    simp [Ledger.note, losesFailure]
  rcases task_of_transition hmark rfl hfresh.row hcond with ⟨rfl, hsame⟩ | ⟨ids, heffect, hrow⟩
  · -- the row is still pending
    refine .concluded hassigned ⟨hl.jobs, Or.inr (iff_of_false ?_ (hlost _))⟩
    exact not_reported_of_row (hsame ▸ hfresh.row) (Or.inl hstatus)
  · have hhand : InHand task.taskID s₁ := ⟨_, hrow, rfl⟩
    have hrow' : Fresh task.taskID resumable _ s₁ := ⟨hrow, hfresh.lastCheckpoint,
      (checkpointsOf_of_write hmark rfl).trans hfresh.history, hfresh.resumable⟩
    rcases heffect with rfl | rfl
    · refine follows_quiet rfl fun built _ => ?_
      cases built with
      | error message =>
          exact fun _ _ hfail _ => .concluded hassigned
            (markFailed_concludes hfail hhand hl.jobs hl.lost)
      | ok _ =>
          refine follows_quiet rfl fun saved _ => ?_
          cases saved with
          | error message =>
              exact fun _ _ hfail _ => .concluded hassigned
                (markFailed_concludes hfail hhand hl.jobs hl.lost)
          | ok _ =>
              intro _ _ hgo _
              cases hgo
              exact .started hassigned ⟨congrArg (· ++ [_]) hl.jobs, hl.failed, hl.lost, rfl, rfl, _,
                hrow', rfl, rfl⟩
    · -- the row is dispatched, but nobody sends it
      exact .concluded hassigned ⟨hl.jobs, Or.inr (iff_of_false hhand.not_reported (hlost _))⟩

/-- A gated task waits for approval, unless the database refuses to write so. -/
theorem markApproval_accounts
    (hperform : perform jsonb (.store (.markApprovalRequired id reason)) answer s = some s')
    (ht : s.store.task id = some t) (hstatus : t.status = .pending) (hl : l.lost = false) :
    Accounted id s' (l.note id resumable ⟨.store (.markApprovalRequired id reason), answer⟩) := by
  have hcond : (StoreOp.markApprovalRequired id reason).rowUpdate.cond t = true :=
    hasStatus_iff.mpr ⟨Store.taskID_of_task ht, by simp [hstatus]⟩
  rcases task_of_transition hperform rfl ht hcond with ⟨rfl, hsame⟩ | ⟨ids, heffect, hrow⟩
  · apply iff_of_false
    · exact not_reported_of_row (hsame ▸ ht) (Or.inl hstatus)
    · simp [Ledger.note, losesFailure]
  · apply iff_of_true ⟨_, hrow, Or.inr rfl, rfl⟩
    rcases heffect with rfl | rfl <;> exact hl

/-- The policy of a submission lets the task wait for approval or be dispatched. -/
theorem startSubmitted_ends {req : TaskSubmitRequest} {task : TaskRecord}
    {normalized : TaskDefinition} (hfresh : Fresh task.taskID resumable t s)
    (hstatus : t.status = .pending) :
    Ends jsonb task.taskID resumable (fun _ => SubmitEnds task.taskID resumable)
      (startSubmitted req task normalized) s { inserted := some task } := by
  refine follows_quiet rfl fun selected _ => ?_
  cases selected with
  | error message =>
      intro _ _ hfail _
      refine .unassigned ?_ rfl (not_reported_of_row
        (markFailed_of_pending hfail hfresh.row hstatus) (Or.inl hstatus))
      rintro ⟨⟨runtime, hselected⟩, -⟩
      cases hselected
  | ok runtime =>
      refine follows_quiet rfl fun saved _ => ?_
      cases saved with
      | error message =>
          intro _ _ hfail _
          refine .unassigned ?_ rfl (not_reported_of_row
            (markFailed_of_pending hfail hfresh.row hstatus) (Or.inl hstatus))
          rintro ⟨-, hpersisted⟩
          cases hpersisted
      | ok _ =>
          have hdecision := evaluateActionPolicy_submit (submitPolicyInput task runtime) rfl
          simp only [Prog.bind_ret]
          by_cases hgated : policyHumanGated (submitPolicyInput task runtime).taskDefinition = true
          · rw [if_pos hgated] at hdecision
            rw [hdecision]
            intro marked s₁ hmark _
            cases marked <;> exact .concluded ⟨⟨runtime, rfl⟩, rfl⟩
              ⟨rfl, Or.inr (markApproval_accounts hmark hfresh.row hstatus rfl)⟩
          · rw [if_neg hgated] at hdecision
            rw [hdecision]
            exact dispatchSubmitted_ends ⟨rfl, rfl, rfl⟩ ⟨⟨runtime, rfl⟩, rfl⟩ hfresh hstatus

/-! ## The dispatch -/

variable {runtimeID : String} {task : TaskRecord}

/-- A service of a dispatch; the governance of a task is read by recovery passes. -/
def ofDispatch : Service → Bool
  | .hydrateTaskPermissionEnvelope _ => false
  | _ => true

theorem callOr_ends {service : Service} {failed : String → Program Unit} {rest : Program Unit}
    (hservice : ofDispatch service = true)
    (hfailed : ∀ err, ∃ reason operation rejectionType message,
      failed err = failTask id reason operation rejectionType message)
    (hrest : ∀ l : Ledger, l.Clear →
      Ends jsonb id resumable (fun _ => DispatchEnds id runtimeID s.store) rest s l)
    (hs : InHand id s) (l : Ledger) (hl : l.Clear) :
    Ends jsonb id resumable (fun _ => DispatchEnds id runtimeID s.store)
      (callOr service failed rest) s l := by
  refine follows_quiet rfl fun answer _ => ?_
  have hkept : (l.note id resumable ⟨.call service, answer⟩).lost = false := by
    cases service <;> first | exact hl.lost | cases hservice
  cases answer with
  | error err =>
      rcases hfailed err with ⟨reason, operation, rejectionType, message, heq⟩
      simp only [Prog.bind_ret, heq]
      exact fun _ _ hfail _ =>
        .concluded (markFailed_concludes hfail hs hl.jobs hkept)
  | ok _ => exact hrest _ ⟨hl.failed, hkept, hl.jobs⟩

theorem finishResult_ends (hs : InHand task.taskID s) (hl : l.Clear) :
    Ends jsonb task.taskID resumable (fun _ => Concluded task.taskID)
      (finishResult task result) s l := by
  unfold finishResult
  dsimp only
  split
  · exact fun _ _ _ _ => ⟨hl.jobs, Or.inl hl.failed⟩
  · split
    · exact fun _ _ hfail _ => markFailed_concludes hfail hs hl.jobs hl.lost
    · exact ⟨hl.jobs, Or.inl hl.failed⟩

/-- Storing a checkpoint or artifacts keeps a task in hand. -/
theorem InHand.of_write {op : StoreOp} (hs : InHand id s)
    (hperform : perform jsonb (.store op) answer s = some s')
    (hop : ∀ t, taskAllowsRuntimeMutation t.status = true →
      taskAllowsRuntimeMutation (op.rowUpdate.set t).status = true) : InHand id s' := by
  rcases hs with ⟨t, ht, hstatus⟩
  rcases op.perform_cases (perform_store hperform).1 with ⟨err, -, -, hsame⟩ | ⟨ids, -, happly⟩
  · exact ⟨t, hsame ▸ ht, hstatus⟩
  · refine ⟨_, StoreOp.task_apply happly ht, ?_⟩
    unfold Update.run
    split
    · exact hop t hstatus
    · exact hstatus

theorem recordArtifacts_ends (hs : InHand task.taskID s) (hl : l.Clear) :
    Ends jsonb task.taskID resumable
      (fun goOn s' l' => if goOn then InHand task.taskID s' ∧ l'.Clear else Concluded task.taskID s' l')
      (recordArtifacts task result) s l := by
  unfold recordArtifacts
  split
  · exact ⟨hs, hl⟩
  · refine follows_quiet rfl fun verified _ => ?_
    cases verified with
    | error message =>
        exact fun _ _ hfail _ => markFailed_concludes hfail hs hl.jobs hl.lost
    | ok _ =>
        refine follows_quiet rfl fun receipts _ => ?_
        cases receipts with
        | error message =>
            exact fun _ _ hfail _ => markFailed_concludes hfail hs hl.jobs hl.lost
        | ok _ => exact fun _ _ hsave _ => ⟨hs.of_write hsave fun t ht => ht, hl⟩

theorem processResult_ends (hs : InHand task.taskID s) (hl : l.Clear) :
    Ends jsonb task.taskID resumable (fun _ => Concluded task.taskID)
      (processResult task result) s l := by
  have hsaved : Ends jsonb task.taskID resumable (fun _ s' l' => InHand task.taskID s' ∧ l'.Clear)
      (saveResultCheckpoint result.checkpoint) s l := by
    cases result.checkpoint with
    | none => exact ⟨hs, hl⟩
    | some cp => exact fun _ _ hsave _ => ⟨hs.of_write hsave fun t ht => rfl, hl⟩
  refine hsaved.bind fun _ _ _ hsaved => ?_
  refine (recordArtifacts_ends hsaved.1 hsaved.2).bind fun goOn _ _ hrecorded => ?_
  cases goOn with
  | true => exact finishResult_ends hrecorded.1 hrecorded.2
  | false => exact hrecorded

theorem processResponse_ends {response : DispatchResponse}
    (hassigned : task.runtimeID = some runtimeID) {request : RuntimeTaskRequest}
    (hrequest : request.taskID = task.taskID) (hs : InHand task.taskID s) (hl : l.Clear) :
    Ends jsonb task.taskID resumable (fun _ => DispatchEnds task.taskID runtimeID s.store)
      (processResponse task response) s
      (l.note task.taskID resumable ⟨.awaitResponse request, response⟩) := by
  have hrecover : ∀ l' : Ledger, l'.jobs = [] → l'.lost = false →
      Ends jsonb task.taskID resumable (fun _ => DispatchEnds task.taskID runtimeID s.store)
        (handleDispatchFailure task) s l' := by
    intro l' hjobs hlost
    unfold handleDispatchFailure
    rw [hassigned]
    intro _ _ hgo _
    cases hgo
    exact .unreachable (congrArg (· ++ _) hjobs) hlost rfl
  cases response with
  | unreachable | serverError => exact hrecover _ hl.jobs hl.lost
  | rejected status reason details =>
      exact fun _ _ hfail _ => .concluded (markFailed_concludes hfail hs hl.jobs hl.lost)
  | undecodable =>
      refine .concluded ⟨hl.jobs, Or.inr (iff_of_false hs.not_reported ?_)⟩
      simp [Ledger.note, losesFailure, hrequest]
  | accepted result =>
      exact (processResult_ends hs hl).weaken fun _ _ _ => .concluded

/-- A dispatch is over and its failure accounted for, or it started a recovery pass. -/
theorem dispatchToRuntime_ends (resumable : Bool) {checkpoint : Option CheckpointPayload}
    (hassigned : task.runtimeID = some runtimeID) (hs : InHand task.taskID s) :
    Ends jsonb task.taskID resumable (fun _ => DispatchEnds task.taskID runtimeID s.store)
      (dispatchToRuntime task checkpoint) s {} := by
  have hsend : ∀ l : Ledger, l.Clear →
      Ends jsonb task.taskID resumable (fun _ => DispatchEnds task.taskID runtimeID s.store)
        (sendToRuntime task checkpoint) s l := by
    intro l hl number s₁ hpost _
    have hstore : s₁.store = s.store := by
      rcases perform_store_cases hpost with ⟨op, answer, heq, -⟩ | ⟨-, hsame⟩
      · cases heq
      · exact hsame
    rw [← hstore]
    refine follows_quiet rfl fun response _ => processResponse_ends hassigned rfl ?_ hl
    unfold InHand at hs ⊢
    rwa [hstore]
  unfold dispatchToRuntime
  refine callOr_ends rfl (fun _ => ⟨_, _, _, _, rfl⟩) ?_ hs {} ⟨rfl, rfl, rfl⟩
  iterate 6 refine callOr_ends rfl (fun _ => ⟨_, _, _, _, rfl⟩) ?_ hs
  exact hsend

/-! ## The recovery pass -/

/-- Without a checkpoint no runtime gets the task. -/
theorem handOff_accounts {tenantID : String} (hs : InHand id s) (hl : l.lost = false) :
    Ends jsonb id resumable (fun _ => Accounted id) (handOff id tenantID task none) s l := by
  refine follows_quiet rfl fun selected _ => ?_
  cases selected with
  | error message => exact fun _ _ hfail _ => markFailed_accounts hfail hs hl
  | ok newRuntime =>
      refine follows_quiet rfl fun saved _ => ?_
      cases saved with
      | error message => exact fun _ _ hfail _ => markFailed_accounts hfail hs hl
      | ok _ =>
          have hdenied : (recoveryHandoffAllowed task none newRuntime.runtimeID
              (evaluateActionPolicy (recoveryPolicyInput task newRuntime none))).1 = false := by
            by_contra hallowed
            rw [Bool.not_eq_false] at hallowed
            cases (recoveryHandoffAllowed_usable rfl hallowed).1
          simp only [Prog.bind_ret, hdenied, Bool.not_false, if_true]
          exact fun _ _ hfail _ => markFailed_accounts hfail hs hl

theorem getCumulativeRecoveryCheckpoint_of_empty (hhistory : s.store.checkpointsOf id = [])
    (hl : l.lost = false) :
    Ends jsonb id resumable
      (fun loaded s' l' => s' = s ∧
        (((loaded = .ok none ∨ ∃ err, loaded = .error (.invalid err)) ∧ l'.lost = false) ∨
          loaded = .error .read ∧ l'.lost = resumable))
      (getCumulativeRecoveryCheckpoint id) s l := by
  refine follows_quiet rfl fun checkpoints hstep => ?_
  cases checkpoints with
  | error err =>
      refine ⟨rfl, Or.inr ⟨rfl, ?_⟩⟩
      cases resumable <;> simp [Ledger.note, losesFailure, hl]
  | ok cps =>
      have hcps : cps = [] := by
        simp only [perform, readAnswer_ok, Store.allCheckpoints, hhistory] at hstep
        split at hstep <;> rename_i heq
        · exact (Except.ok.inj heq).symm
        · cases hstep
      subst hcps
      simp only [Prog.bind_ret, List.map_nil]
      by_cases hnil : id = Uuid.nil
      · rw [buildCumulativeRecoveryCheckpoint, if_pos hnil]
        exact ⟨rfl, Or.inl ⟨Or.inr ⟨_, rfl⟩, hl⟩⟩
      · rw [buildCumulativeRecoveryCheckpoint, if_neg hnil, if_pos rfl]
        exact ⟨rfl, Or.inl ⟨Or.inl rfl, hl⟩⟩

/-- The round of a task without a checkpoint fails the task. -/
theorem recoverTask_accounts (hfresh : Fresh id resumable t s) (hstatus : t.status = .recovering)
    (hl : l.lost = false) :
    Ends jsonb id resumable (fun _ => Accounted id) (recoverTask id) s l := by
  have hs : InHand id s := ⟨t, hfresh.row, by rw [hstatus]; rfl⟩
  refine (getCumulativeRecoveryCheckpoint_of_empty hfresh.history hl).bind ?_
  rintro loaded _ l' ⟨rfl, hloaded⟩
  refine follows_quiet rfl fun tenant _ => follows_quiet rfl fun found hfound => ?_
  cases found with
  | error err =>
      refine iff_of_false hs.not_reported ?_
      simp [Ledger.note, losesFailure]
  | ok task =>
      have hread := (perform_getTask hfound).1
      rw [hfresh.row, Option.some.injEq] at hread
      subst hread
      refine follows_quiet rfl fun hydrated _ => ?_
      cases hydrated with
      | error err =>
          refine iff_of_false hs.not_reported ?_
          simp [Ledger.note, losesFailure]
      | ok _ =>
          have hskip : taskRecoverySkipReason t = if taskSupportsRecoveryResume t then none
              else some "streaming_resume_unsupported" := by
            simp [taskRecoverySkipReason, hstatus, taskAllowsRecoveryRedispatch]
          simp only [Prog.bind_ret, hskip, hfresh.resumable]
          cases resumable with
          | false =>
              have hkept : l'.lost = false := hloaded.elim And.right And.right
              simp only [Bool.false_eq_true, if_false]
              unfold handleRecoverySkip
              rw [if_pos ⟨rfl, hstatus⟩]
              exact fun _ _ hfail _ => markFailed_accounts hfail hs hkept
          | true =>
              simp only [if_true]
              rcases hloaded with ⟨rfl | ⟨err, rfl⟩, hkept⟩ | ⟨rfl, hlost⟩
              · have hnone : recoveryCheckpoint id (.ok none) t = .ok none := by
                  simp [recoveryCheckpoint, hfresh.lastCheckpoint]
                rw [hnone]
                exact handOff_accounts hs hkept
              · exact fun _ _ hfail _ => markFailed_accounts hfail hs hkept
              · exact iff_of_false hs.not_reported (Bool.not_eq_false _ ▸ hlost)

theorem lost_of_unconcerned (h : concerns id d.action = false) :
    (l.note id resumable d).lost = l.lost := by
  have hkept : losesFailure id resumable d = false := by
    unfold losesFailure
    split <;> simp_all [concerns]
  simp only [Ledger.note, hkept]

/-- What is not about the task leaves it without checkpoints. -/
theorem Fresh.of_perform {a : Action} {answer : Answer a} (hfresh : Fresh id resumable t s)
    (ha : concerns id a = false) (hstep : perform jsonb a answer s = some s') :
    Fresh id resumable t s' where
  row := (task_of_perform ha hstep).trans hfresh.row
  lastCheckpoint := hfresh.lastCheckpoint
  history := by
    rw [← hfresh.history]
    rcases perform_store_cases hstep with ⟨op, answer', heq, -⟩ | ⟨-, hsame⟩
    · cases heq
      apply checkpointsOf_of_write hstep
      cases op <;> first | rfl | cases ha
    · rw [hsame]
  resumable := hfresh.resumable

theorem recoverTasks_accounts {ids : List Uuid} (hmem : id ∈ ids) (hnodup : ids.Nodup)
    (hfresh : Fresh id resumable t s) (hstatus : t.status = .recovering) (hl : l.lost = false) :
    Ends jsonb id resumable (fun _ => Accounted id) (recoverTasks ids) s l := by
  induction ids generalizing s l with
  | nil => cases hmem
  | cons first rest ih =>
      rw [List.nodup_cons] at hnodup
      by_cases hfirst : first = id
      · subst hfirst
        refine (recoverTask_accounts hfresh hstatus hl).bind fun _ _ _ haccounted => ?_
        refine ((recoverTasks_unconcerned hnodup.1).follows haccounted ?_).weaken fun _ _ _ h => h.1
        intro a answer s₀ s₁ l₀ ha hstep h₀
        rw [Bool.not_eq_true] at ha
        unfold Accounted Reported at h₀ ⊢
        rwa [task_of_perform ha hstep, lost_of_unconcerned ha]
      · have hmem' : id ∈ rest := (List.mem_cons.mp hmem).resolve_left (Ne.symm hfirst)
        refine ((recoverTask_unconcerned hfirst).follows
          (J := fun s l => Fresh id resumable t s ∧ l.lost = false) ⟨hfresh, hl⟩ ?_).bind
          fun _ _ _ h => ih hmem' hnodup.2 h.1.1 h.1.2
        rintro a answer s₀ s₁ l₀ ha hstep ⟨hfresh₀, hl₀⟩
        rw [Bool.not_eq_true] at ha
        exact ⟨hfresh₀.of_perform ha hstep, (lost_of_unconcerned ha).trans hl₀⟩

/-- A recovery pass fails a task without a checkpoint that was dispatched to the
runtime. -/
theorem recoverRuntime_accounts (hfresh : Fresh id resumable t s) (hstatus : t.status = .dispatched)
    (hassigned : t.runtimeID = some runtimeID) :
    Ends jsonb id resumable (fun _ => Accounted id) (recoverRuntime runtimeID) s {} := by
  intro answer s₁ hmark _
  have hcond : (Update.markRecovering runtimeID).cond t = true := by
    simp [Update.markRecovering, hassigned, hstatus]
  have hhand : InHand id s := ⟨t, hfresh.row, by rw [hstatus]; rfl⟩
  cases answer with
  | error err =>
      refine iff_of_false (hhand.of_write hmark fun t _ => rfl).not_reported ?_
      simp [Ledger.note, losesFailure]
  | ok ids =>
      have happly := StoreOp.apply_of_perform_ok (perform_store hmark).1
      have hmem : id ∈ ids := StoreOp.mem_ids_of_cond happly hfresh.row hcond
      have hrow : s₁.store.task id = some { t with status := .recovering } := by
        rw [StoreOp.task_apply happly hfresh.row]
        exact congrArg some (Update.run_of_cond hcond)
      have hfresh₁ : Fresh id resumable { t with status := .recovering } s₁ :=
        ⟨hrow, hfresh.lastCheckpoint, (checkpointsOf_of_write hmark rfl).trans hfresh.history,
          hfresh.resumable⟩
      exact recoverTasks_accounts hmem (StoreOp.nodup_ids happly) hfresh₁ rfl rfl

/-! ## Before the insertion -/

theorem note_preliminary {a : Action} {answer : Answer a} (ha : preliminary a = true) :
    ({} : Ledger).note id resumable ⟨a, answer⟩ = {} := by
  cases a <;> first | rfl | cases ha

/-- The record is prepared without touching the tables. -/
theorem prepareTask_follows {γ : Type} {track : γ → Performed Action Answer → γ}
    {ok : γ → Performed Action Answer → Prop} {g : γ} {req : TaskSubmitRequest}
    (hkeep : ∀ a answer, preliminary a = true → track g ⟨a, answer⟩ = g) :
    (prepareTask req).Follows (perform jsonb) track ok (fun prepared s' g' => (s' = s ∧ g' = g) ∧
      ∀ task normalized, prepared = .ok (task, normalized) → Prepared req task) s g := by
  refine ((prepareTask_guarded (K := fun _ _ => True)).follows
    (J := fun s' g' => s' = s ∧ g' = g) ⟨rfl, rfl⟩ ?_).weaken ?_
  · rintro a answer _ s₁ _ ha hstep ⟨rfl, rfl⟩
    exact ⟨(perform_quiet (quiet_of_preliminary ha) hstep).1, hkeep a answer ha⟩
  · rintro prepared _ _ ⟨hsame, hprepared⟩
    refine ⟨hsame, ?_⟩
    rintro task normalized rfl
    exact hprepared

/-! ## The insertion -/

variable {req : TaskSubmitRequest} {result : Except CoordinatorError TaskRecord}

/-- A program that prepares a record, inserts it, and only reads if the key was taken:
if it inserted a record, the rest of it ran in the state after the insertion. -/
theorem insertion_ends {cont : Except CoordinatorError (TaskRecord × TaskDefinition) →
      Program (Except CoordinatorError TaskRecord)}
    {next : TaskRecord → TaskDefinition → StoreAnswer → Program (Except CoordinatorError TaskRecord)}
    {post : Except CoordinatorError TaskRecord → State → Ledger → Prop}
    (hfailed : ∀ err, cont (.error err) = .ret (.error err))
    (hcreate : ∀ task normalized, cont (.ok (task, normalized)) =
      .act (.store (.createTask task req.boundAction)) (next task normalized))
    (hrefused : ∀ task normalized err, ∃ value, next task normalized (.error err) = .ret value)
    (htaken : ∀ task normalized, Prepared req task →
      (next task normalized (.ok [])).Issues (fun _ _ => True) (·.quiet = true))
    (hnext : ∀ normalized first rest s₁,
      perform jsonb (.store (.createTask task req.boundAction)) (.ok (first :: rest)) s = some s₁ →
      Ends jsonb id resumable post (next task normalized (.ok (first :: rest))) s₁
        { inserted := some task }) :
    Ends jsonb id resumable (fun result s' l => l.inserted = some task → post result s' l)
      ((prepareTask req).bind cont) s {} := by
  refine (prepareTask_follows fun _ _ => note_preliminary).bind ?_
  rintro (err | ⟨task', normalized⟩) _ _ ⟨⟨rfl, rfl⟩, hprepared⟩
  · rw [hfailed]
    nofun
  · rw [hcreate]
    intro answer s₁ hstep _
    rcases answer with err | (_ | ⟨first, rest⟩)
    · rcases hrefused task' normalized err with ⟨value, heq⟩
      rw [heq]
      nofun
    · refine ((htaken task' normalized (hprepared _ _ rfl)).follows
        (J := fun _ l => l.inserted = none) rfl ?_).weaken fun _ _ _ h heq => ?_
      · intro a answer _ _ l ha _ hl
        cases a <;> first | exact hl | cases ha
      · cases h.1.symm.trans heq
    · by_cases htask : task' = task
      · subst htask
        exact (hnext normalized first rest s₁ hstep).weaken fun _ _ _ h _ => h
      · refine ((Prog.guarded_true _).follows (J := fun _ l => l.inserted = some task') rfl
          ?_).weaken fun _ _ _ h heq => ?_
        · intro a answer _ _ l _ _ hl
          simp [Ledger.note, hl]
        · exact absurd (Option.some.inj (h.1.symm.trans heq)) htask

theorem inserted_foldl (id : Uuid) (resumable : Bool) (done : List (Performed Action Answer)) :
    (done.foldl (Ledger.note id resumable) {}).inserted = done.findSome? inserted :=
  (List.foldl_hom Ledger.inserted fun _ _ => rfl).symm.trans (Prog.foldl_noteFirst _ _ _)

/-- The demo path inserts a row and then asks for a transition that a pending row
does not allow. -/
theorem submitDemoSimulatedFailure_stays_pending {failureReason : String}
    (hexec : Exec (perform jsonb) (submitDemoSimulatedFailure req failureReason) s done result s')
    (hinserted : done.findSome? inserted = some task) :
    ¬Assigned done ∧ ∃ t, s'.store.task task.taskID = some t ∧ t.status = .pending ∧
      t.tenantKey = task.tenantKey := by
  have hends : Ends jsonb task.taskID true (fun _ s' l => l.inserted = some task →
      ¬l.Assigned ∧ ∃ t, s'.store.task task.taskID = some t ∧ t.status = .pending ∧
        t.tenantKey = task.tenantKey) (submitDemoSimulatedFailure req failureReason) s {} := by
    refine insertion_ends (fun _ => rfl) (fun _ _ => rfl) (fun _ _ _ => ⟨_, rfl⟩)
      (fun _ _ hprepared => (existingTask_guarded
        ⟨hprepared, fun bound _ => ⟨bound, trivial, rfl⟩⟩).issues) ?_
    intro _ first rest s₁ hcreate marked s₂ hmark _
    have hok : s.store.createTask jsonb task req.boundAction = (.ok (first :: rest), s₁.store) :=
      StoreOp.apply_of_perform_ok (perform_store hcreate).1
    rcases Store.createTask_eq_ok hok with ⟨-, hnil, -⟩ | ⟨-, -, -, hrow, -⟩
    · cases hnil
    · have hpending := markFailed_of_pending hmark (t := Store.newRow jsonb task)
        (by rw [hrow, if_pos rfl]) rfl
      have hnone : ¬(Ledger.note task.taskID true { inserted := some task } ⟨_, marked⟩).Assigned := by
        rintro ⟨⟨runtime, hselected⟩, -⟩
        cases hselected
      cases marked <;> exact ⟨hnone, _, hpending, rfl, rfl⟩
  rw [← assigned_foldl task.taskID true]
  exact (ends_of_exec hexec hends :) ((inserted_foldl _ _ _).trans hinserted)

/-- A new row has no checkpoint: none was ever accepted for a task that did not exist. -/
theorem fresh_of_insertion {τ : List StoreEvent} {bound : Option BoundActionRunIdentity}
    {first : Uuid} {rest : List Uuid} (hstore : StoreRun jsonb .empty τ s.store)
    (hcreate : perform jsonb (.store (.createTask task bound)) (.ok (first :: rest)) s = some s') :
    Fresh task.taskID (taskSupportsRecoveryResume (Store.newRow jsonb task))
      (Store.newRow jsonb task) s' := by
  have happly := StoreOp.apply_of_perform_ok (perform_store hcreate).1
  have hok : s.store.createTask jsonb task bound = (.ok (first :: rest), s'.store) := happly
  rcases Store.createTask_eq_ok hok with ⟨-, hnil, -⟩ | ⟨-, hfree, -, hrow, -, -, -⟩
  · cases hnil
  · refine ⟨by rw [hrow, if_pos rfl], rfl, ?_, rfl⟩
    have hinv := hstore.checkpointInvariant
    rw [checkpointsOf_of_write hcreate rfl, hinv.history, hinv.known _ hfree, List.map_nil]

/-! ## A later submission under the same key -/

/-- What a program returns is the record with the key. -/
abbrev Returns (jsonb : TaskDefinition → TaskDefinition) (key : String × String)
    (p : Program (Except CoordinatorError TaskRecord)) (s : State) : Prop :=
  p.Follows (perform jsonb) (fun (_ : Unit) _ => ()) (fun _ _ => True) (fun result _ _ =>
    ∀ t, result = .ok t → s.store.task t.taskID = some t ∧ t.tenantKey = key) s ()

theorem existingTask_returns {tenantID key : String} :
    Returns jsonb (tenantID, key) (existingTask tenantID key) s := by
  refine follows_quiet rfl fun found hread => ?_
  rcases found with (_ | _) | existing
  · rintro _ ⟨⟩
  · rintro _ ⟨⟩
  · rintro _ ⟨⟩
    exact perform_getTaskByIdempotencyKey hread

theorem resolveDuplicate_returns {key : String} :
    Returns jsonb (req.tenantID, key) (resolveDuplicate req key) s := by
  unfold resolveDuplicate
  split
  · exact existingTask_returns
  · refine follows_quiet rfl fun found _ => ?_
    rcases found with (_ | _) | existing
    · rintro _ ⟨⟩
    · rintro _ ⟨⟩
    · simp only [Prog.bind_ret]
      split
      · rintro _ ⟨⟩
      · exact existingTask_returns

/-- A submission under a key that a record holds returns that record or an error. -/
theorem submit_of_taken {t' : TaskRecord} (ht : s.store.task id = some t)
    (hkey : t.tenantKey = (req.tenantID, req.idempotencyKey)) (hne : req.idempotencyKey ≠ "")
    (hexec : Exec (perform jsonb) (submit req) s done (.ok t') s') : t' = t := by
  have hid := Store.taskID_of_task ht
  subst hid
  have hends : (submit req).Follows (perform jsonb) (fun (_ : Unit) _ => ()) (fun _ _ => True)
      (fun result _ _ => ∀ t', result = .ok t' → t' = t) s () := by
    refine (prepareTask_follows fun _ _ _ => rfl).bind ?_
    rintro (err | ⟨task, normalized⟩) _ _ ⟨⟨rfl, rfl⟩, hprepared⟩
    · rintro _ ⟨⟩
    · have hprep := hprepared task normalized rfl
      have htaskKey : task.tenantKey = t.tenantKey := by
        rw [hkey, TaskRecord.tenantKey, hprep.tenantID, hprep.idempotencyKey, if_neg hne]
      intro answer s₁ hstep _
      cases answer with
      | error err => rintro _ ⟨⟩
      | ok ids =>
          have hok := StoreOp.apply_of_perform_ok (perform_store hstep).1
          rcases Store.createTask_eq_ok hok with ⟨-, rfl, hsame⟩ | ⟨-, -, hfree, -⟩
          · refine resolveDuplicate_returns.weaken fun _ _ _ hreturns t' hresult => ?_
            have ht' := hreturns t' hresult
            rw [hsame] at ht'
            apply Store.eq_of_tenantKey ht'.1 ht
            rw [ht'.2, ← htaskKey, TaskRecord.tenantKey, hprep.tenantID]
          · exact absurd (htaskKey ▸ List.mem_map_of_mem (Relational.Table.mem_of_get ht)) hfree
  exact (hexec.follows hends (Prog.admitted_true _ _) :) t' rfl

/-! ## All or nothing -/

/-- A later submission under the same key is told of the failure. -/
def ToldLater (jsonb : TaskDefinition → TaskDefinition) (task : TaskRecord) (s : State) : Prop :=
  ∀ req done t s', req.tenantID = task.tenantID → req.idempotencyKey = task.idempotencyKey →
    req.idempotencyKey ≠ "" → Exec (perform jsonb) (submit req) s done (.ok t) s' → TellsFailure t

theorem toldLater_of_reported (ht : s.store.task id = some t) (hkey : t.tenantKey = task.tenantKey)
    (htells : TellsFailure t) : ToldLater jsonb task s := by
  intro req done t' s' htenant hreqKey hne hexec
  have htaken : t.tenantKey = (req.tenantID, req.idempotencyKey) := by
    rw [hkey, TaskRecord.tenantKey, htenant, hreqKey]
  rw [submit_of_taken ht htaken hne hexec]
  exact htells

variable {τ : List StoreEvent}

/-- How a submission that inserted its row ends, and that the row keeps its key. -/
theorem submit_ends (hexec : Exec (perform jsonb) (submit req) s done result s')
    (hstore : StoreRun jsonb .empty τ s.store) (hinserted : done.findSome? inserted = some task)
    (hresumable : taskSupportsRecoveryResume (Store.newRow jsonb task) = resumable) :
    SubmitEnds task.taskID resumable s' (done.foldl (Ledger.note task.taskID resumable) {}) ∧
      ∃ t, s'.store.task task.taskID = some t ∧ t.tenantKey = task.tenantKey := by
  have hends : Ends jsonb task.taskID resumable (fun _ s' l => l.inserted = some task →
      SubmitEnds task.taskID resumable s' l ∧ ∃ t, s'.store.task task.taskID = some t ∧
        t.tenantKey = task.tenantKey) (submit req) s {} := by
    refine insertion_ends (fun _ => rfl) (fun _ _ => rfl) (fun _ _ _ => ⟨_, rfl⟩)
      (fun _ _ hprepared => (resolveDuplicate_guarded hprepared).issues) ?_
    intro normalized first rest s₁ hcreate
    have hfresh := fresh_of_insertion hstore hcreate
    rw [hresumable] at hfresh
    exact (startSubmitted_ends hfresh rfl).and (ends_of_taskStays (t := Store.newRow jsonb task) _ _ hfresh.row)
  exact (ends_of_exec hexec hends :) ((inserted_foldl _ _ _).trans hinserted)

/-- How the dispatch ends that a submission started. -/
theorem Started.dispatch_ends {runtimeTask : TaskRecord} {s₁ : State}
    {sent : List (Performed Action Answer)} (h : Started id resumable runtimeTask runtimeID s₁ l)
    (hexec : Exec (perform jsonb) (dispatchToRuntime runtimeTask none) s₁ sent () s') :
    DispatchEnds id runtimeID s₁.store s' (sent.foldl (Ledger.note id resumable) {}) := by
  rcases h.row with ⟨t, hfresh, hstatus, -⟩
  have hhand : InHand id s₁ := ⟨t, hfresh.row, by rw [hstatus]; rfl⟩
  rw [← h.taskID] at hhand ⊢
  exact (ends_of_exec hexec (dispatchToRuntime_ends resumable h.assigned hhand) :)

theorem not_failed_iff : (done.foldl (Ledger.note id resumable) {}).failed = false ↔
    ¬∃ d ∈ done, failurePoint d = true := by
  rw [failed_foldl]
  simp

/-- A submission that started work started its dispatch. -/
theorem submit_started {runtimeTask : TaskRecord} {cp : Option CheckpointPayload}
    (hends : SubmitEnds id resumable s (done.foldl (Ledger.note id resumable) {}))
    (hjobs : jobs done = [.dispatchToRuntime runtimeTask cp]) :
    Assigned done ∧ cp = none ∧ ∃ runtimeID,
      Started id resumable runtimeTask runtimeID s (done.foldl (Ledger.note id resumable) {}) := by
  have hall := jobs_foldl id resumable done {}
  rw [hjobs] at hall
  cases hends with
  | unassigned _ hnone _ => cases hnone.symm.trans hall
  | concluded _ hconcluded => cases hconcluded.jobs.symm.trans hall
  | started hassigned hstarted =>
      cases hstarted.job.symm.trans hall
      exact ⟨(assigned_foldl _ _ done).mp hassigned, rfl, _, hstarted⟩

/-- What is accounted for in the end is accounted for as a whole, if nothing was lost
before. -/
theorem Accounted.after (before : List (Performed Action Answer))
    (h : Accounted id s (done.foldl (Ledger.note id resumable) {}))
    (hbefore : (before.foldl (Ledger.note id resumable) {}).lost = false) :
    Reported id s ↔ ∀ d ∈ before ++ done, losesFailure id resumable d = false := by
  rw [lost_foldl] at hbefore
  rw [Accounted, lost_foldl, and_iff_right rfl] at h
  rw [h, List.forall_mem_append, and_iff_right hbefore.2]

/-- A submission without runtime or decision is not reported; any other failure is
accounted for. -/
theorem SubmissionRun.accounted {submitted : List (Performed Action Answer)}
    (h : SubmissionRun jsonb req s submitted done s') (hstore : StoreRun jsonb .empty τ s.store)
    (hinserted : submitted.findSome? inserted = some task)
    (hresumable : taskSupportsRecoveryResume (Store.newRow jsonb task) = resumable)
    (hfails : ∃ d ∈ done, failurePoint d = true) :
    ((¬Assigned submitted ∧ ¬Reported task.taskID s') ∨ (Assigned submitted ∧
      (Reported task.taskID s' ↔ ∀ d ∈ done, losesFailure task.taskID resumable d = false))) ∧
      ∃ t, s'.store.task task.taskID = some t ∧ t.tenantKey = task.tenantKey := by
  cases h with
  | demo hexec =>
      rcases submitDemoSimulatedFailure_stays_pending hexec hinserted with
        ⟨hnot, t, ht, hstatus, hkey⟩
      exact ⟨Or.inl ⟨hnot, not_reported_of_row ht (Or.inl hstatus)⟩, t, ht, hkey⟩
  | alone hexec hjobs =>
      rcases submit_ends hexec hstore hinserted hresumable with ⟨hends, hrow⟩
      refine ⟨?_, hrow⟩
      cases hends with
      | unassigned hnot _ hunreported =>
          rw [assigned_foldl] at hnot
          exact Or.inl ⟨hnot, hunreported⟩
      | concluded hassigned hconcluded =>
          have haccounted := hconcluded.outcome.resolve_left (not_failed_iff.not.mpr (not_not.mpr hfails))
          exact Or.inr ⟨(assigned_foldl _ _ done).mp hassigned, haccounted.after [] rfl⟩
      | started _ hstarted =>
          have hjob := hstarted.job
          rw [jobs_foldl, hjobs] at hjob
          cases hjob
  | dispatched hexec hjobs hdispatch hover =>
      rename_i runtimeTask cp sent s₁
      rcases submit_ends hexec hstore hinserted hresumable with ⟨hends, t₁, ht₁, hkey₁⟩
      rcases ends_of_exec hdispatch (ends_of_taskStays resumable {} ht₁) with ⟨t₂, ht₂, hkey₂⟩
      refine ⟨Or.inr ?_, t₂, ht₂, hkey₂.trans hkey₁⟩
      obtain ⟨hassigned, rfl, runtimeID, hstarted⟩ := submit_started hends hjobs
      refine ⟨hassigned, ?_⟩
      cases hstarted.dispatch_ends hdispatch with
      | concluded hconcluded =>
          refine (hconcluded.outcome.resolve_left ?_).after _ hstarted.lost
          rw [not_failed_iff, not_not]
          rcases hfails with ⟨d, hd, hfails⟩
          rcases List.mem_append.mp hd with hd | hd
          · exact absurd ⟨d, hd, hfails⟩ (not_failed_iff.mp hstarted.failed)
          · exact ⟨d, hd, hfails⟩
      | unreachable hjob _ _ =>
          rw [jobs_foldl, hover] at hjob
          cases hjob
  | recovered hexec hjobs hdispatch hfailed hrecover =>
      rename_i runtimeTask cp runtimeID sent pass s₁ s₂
      rcases submit_ends hexec hstore hinserted hresumable with ⟨hends, t₁, ht₁, hkey₁⟩
      rcases ends_of_exec hdispatch (ends_of_taskStays resumable {} ht₁) with ⟨t₂, ht₂, hkey₂⟩
      rcases ends_of_exec hrecover (ends_of_taskStays resumable {} ht₂) with ⟨t₃, ht₃, hkey₃⟩
      refine ⟨Or.inr ?_, t₃, ht₃, hkey₃.trans (hkey₂.trans hkey₁)⟩
      obtain ⟨hassigned, rfl, runtimeID', hstarted⟩ := submit_started hends hjobs
      refine ⟨hassigned, ?_⟩
      rcases hstarted.row with ⟨t, hfresh, hstatus, hruntime⟩
      have hall := jobs_foldl task.taskID resumable sent {}
      rw [hfailed] at hall
      cases hstarted.dispatch_ends hdispatch with
      | concluded hconcluded => cases hconcluded.jobs.symm.trans hall
      | unreachable hjob hlost hsame =>
          cases hjob.symm.trans hall
          have hfresh₂ : Fresh task.taskID resumable t s₂ := ⟨hsame ▸ hfresh.row,
            hfresh.lastCheckpoint, hsame ▸ hfresh.history, hfresh.resumable⟩
          have hpass := ends_of_exec hrecover (recoverRuntime_accounts hfresh₂ hstatus hruntime)
          rw [← List.append_assoc]
          apply hpass.after
          rw [List.foldl_append, lost_foldl]
          exact ⟨hstarted.lost, ((lost_foldl _ _).mp hlost).2⟩

/-- A failure after the insertion ends in a record that tells of it, to the caller and
to every later submission under the same key, exactly when the submission had
selected a runtime and persisted its decision and no later action lost the failure. -/
theorem submit_all_or_nothing_iff {submitted : List (Performed Action Answer)}
    (h : SubmissionRun jsonb req s submitted done s') (hstore : StoreRun jsonb .empty τ s.store)
    (hinserted : submitted.findSome? inserted = some task)
    (hfails : ∃ d ∈ done, failurePoint d = true) :
    Reported task.taskID s' ∧ ToldLater jsonb task s' ↔
      Assigned submitted ∧ ∀ d ∈ done, losesFailure task.taskID
        (taskSupportsRecoveryResume (Store.newRow jsonb task)) d = false := by
  rcases h.accounted hstore hinserted rfl hfails with ⟨houtcome, t, ht, hkey⟩
  have htold : Reported task.taskID s' → ToldLater jsonb task s' := by
    rintro ⟨t', ht', htells⟩
    rw [ht, Option.some.injEq] at ht'
    subst ht'
    exact toldLater_of_reported ht hkey htells
  rw [and_iff_left_of_imp htold]
  rcases houtcome with ⟨hnot, hunreported⟩ | ⟨hassigned, haccounted⟩
  · exact iff_of_false hunreported fun h => hnot h.1
  · rw [and_iff_right hassigned]
    exact haccounted

end Submission

/-! ## A submission without a runtime, and one whose runtime is gone -/

def orderRequest : TaskSubmitRequest where
  tenantID := "acme"
  taskDefinition := { text := "", taskType := .agentWorkflow }
  idempotencyKey := "order-1"

def emptyState : State where
  store := Store.empty
  posted := []

/-- Everything works but the selection of a runtime. -/
def noRuntime : (a : Action) → State → Option (Answer a)
  | .selectRuntime _ _, _ => some (.error "no healthy runtime")
  | a, s => smoothly ⟨"runtime-a", "https://a"⟩ a s

/-- No runtime can be selected.  The row that was inserted stays pending, without a
reason, and a later submission under the same key gets it as its task. -/
theorem unselected_task_stays_pending :
    ∃ task done s', SubmissionRun id orderRequest emptyState done done s' ∧
      done.findSome? inserted = some task ∧ (∃ d ∈ done, failurePoint d = true) ∧
      (∃ t, s'.store.task task.taskID = some t ∧ t.status = .pending ∧ t.failureReason = none) ∧
      ∃ done' t s'', Exec (perform id) (submit orderRequest) s' done' (.ok t) s'' ∧
        t.taskID = task.taskID ∧ t.status = .pending ∧ t.runtimeID = none := by
  let pending (task t : TaskRecord) : Bool := decide (t.taskID = task.taskID) &&
    decide (t.status = .pending) && t.failureReason.isNone && t.runtimeID.isNone
  have hrun : ((submit orderRequest).run (perform id) noRuntime emptyState).any (fun out =>
      (jobs out.1).isEmpty && out.1.any failurePoint &&
      (out.1.findSome? inserted).any fun task =>
        (out.2.2.store.task task.taskID).any (pending task) &&
        ((submit orderRequest).run (perform id) noRuntime out.2.2).any fun out' =>
          out'.2.1.toOption.any (pending task)) = true := by
    decide +kernel
  rcases exists_exec_of_run hrun with ⟨done, _, s', hexec, hcheck⟩
  simp only [Bool.and_eq_true, List.isEmpty_iff, List.any_eq_true, Option.any_eq_true] at hcheck
  rcases hcheck with ⟨⟨hjobs, hfails⟩, task, hinserted, ⟨t, ht, hpending⟩, out', hout', t', ht', hpending'⟩
  simp only [pending, Bool.and_eq_true, decide_eq_true_eq, Option.isNone_iff_eq_none] at hpending hpending'
  have hlater := exec_of_run hout'
  have hresult : out'.2.1 = .ok t' := by
    cases hres : out'.2.1 with
    | error err => simp [hres, Except.toOption] at ht'
    | ok found => simpa [hres, Except.toOption] using ht'
  rw [hresult] at hlater
  exact ⟨task, done, s', .alone hexec hjobs, hinserted, hfails,
    ⟨t, ht, hpending.1.1.2, hpending.1.2⟩, out'.1, t', out'.2.2, hlater, hpending'.1.1.1,
    hpending'.1.1.2, hpending'.2⟩

/-- Everything works but the runtime that got the task. -/
def runtimeGone : (a : Action) → State → Option (Answer a)
  | .awaitResponse _, _ => some .unreachable
  | a, s => smoothly ⟨"runtime-a", "https://a"⟩ a s

/-- A runtime was selected and the decision was persisted. -/
def assignedCheck (done : List (Performed Action Answer)) : Bool :=
  ((done.findSome? selection).any fun answer => answer.toOption.isSome) &&
    decide (done.findSome? decisionSaved = some (.ok ()))

theorem assigned_of_check {done : List (Performed Action Answer)} (h : assignedCheck done = true) :
    Assigned done := by
  simp only [assignedCheck, Bool.and_eq_true, decide_eq_true_eq, Option.any_eq_true] at h
  rcases h with ⟨⟨answer, hanswer, hok⟩, hpersisted⟩
  cases answer with
  | error err => cases hok
  | ok runtime => exact ⟨⟨runtime, hanswer⟩, hpersisted⟩

/-- The job of a submission and that of its dispatch are carried out, and the record keeps
the failure. -/
def keptFailure (out : List (Performed Action Answer) × Except CoordinatorError TaskRecord × State)
    (task : TaskRecord) : Bool :=
  match jobs out.1 with
  | [.dispatchToRuntime runtimeTask cp] =>
      ((dispatchToRuntime runtimeTask cp).run (perform id) runtimeGone out.2.2).any fun sent =>
        match jobs sent.1 with
        | [.recoverRuntime runtimeID] =>
            ((recoverRuntime runtimeID).run (perform id) runtimeGone sent.2.2).any fun pass =>
              ((out.1 ++ (sent.1 ++ pass.1)).all fun d =>
                !losesFailure task.taskID (taskSupportsRecoveryResume (Store.newRow id task)) d) &&
                (out.1 ++ (sent.1 ++ pass.1)).any failurePoint
        | _ => false
  | _ => false

/-- The runtime of a new task is gone: the recovery pass fails the task, and the
record says so. -/
theorem submit_all_or_nothing_unreachable :
    ∃ task submitted done s', SubmissionRun id orderRequest emptyState submitted done s' ∧
      submitted.findSome? inserted = some task ∧ (∃ d ∈ done, failurePoint d = true) ∧
      Reported task.taskID s' ∧ ToldLater id task s' := by
  have hrun : ((submit orderRequest).run (perform id) runtimeGone emptyState).any (fun out =>
      assignedCheck out.1 && (out.1.findSome? inserted).any (keptFailure out)) = true := by
    decide +kernel
  rcases exists_exec_of_run hrun with ⟨submitted, _, s₁, hexec, hcheck⟩
  simp only [Bool.and_eq_true, Option.any_eq_true] at hcheck
  rcases hcheck with ⟨hassigned, task, hinserted, hcheck⟩
  unfold keptFailure at hcheck
  split at hcheck
  · rename_i runtimeTask cp hjobs
    rcases (Option.any_eq_true _ _).mp hcheck with ⟨sent, hsent, hcheck⟩
    split at hcheck
    · rename_i runtimeID hfailed
      rcases (Option.any_eq_true _ _).mp hcheck with ⟨pass, hpass, hcheck⟩
      simp only [Bool.and_eq_true, List.any_eq_true, List.all_eq_true, Bool.not_eq_true'] at hcheck
      have hchain : SubmissionRun id orderRequest emptyState submitted
          (submitted ++ (sent.1 ++ pass.1)) pass.2.2 :=
        .recovered hexec hjobs (exec_of_run hsent) hfailed (exec_of_run hpass)
      have hstore : StoreRun id .empty [] emptyState.store := StoreRun.nil _
      have hboth := (submit_all_or_nothing_iff hchain hstore hinserted hcheck.2).mpr
        ⟨assigned_of_check hassigned, hcheck.1⟩
      exact ⟨task, submitted, _, _, hchain, hinserted, hcheck.2, hboth⟩
    · cases hcheck
  · cases hcheck

end Coordinator
end Igris
