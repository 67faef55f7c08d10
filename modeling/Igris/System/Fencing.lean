import Igris.System.Schedule

/-!
# Fencing of superseded runtimes

A recovery pass may assign a task to another runtime while messages of the first
one are still on their way.  The callback handlers compare the sender with the
assigned runtime, but in a step of their own before the write; the answer to a
dispatch is not compared at all.

Main results:

- Theorem {lit}`changes_in_time`: a write that is in time comes from the assigned
  runtime.
- Theorem {lit}`SystemRun.fenced`: if all writes of messages are in time, a reassigned
  task is changed by messages of its new runtime only.
- Theorem {lit}`late_result_completes`: the late answer of a superseded runtime
  completes a task that another runtime is working on.
-/

namespace Igris

open Concurrency Coordinator

/-- The thread processes a message of a runtime. -/
def isMessage : Origin → Bool
  | .dispatch _ _ | .callback _ => true
  | _ => false

/-- The runtime whose message a thread processes: the one a dispatch was sent to, or
the sender of a callback. -/
def messageOf : Origin → Option String
  | .dispatch task _ => task.runtimeID
  | .callback callback => some callback.sender
  | _ => none

/-- The handlers compare identities up to surrounding space. -/
def SameRuntime (a b : String) : Prop :=
  Text.trimSpace a = Text.trimSpace b

/-- The operation is a report on the task. -/
def reportsOn (id : Uuid) : StoreOp → Bool
  | .markCompleted taskID => decide (taskID = id)
  | .markFailedWithDetails taskID _ _ => decide (taskID = id)
  | .saveExecutionArtifacts taskID _ _ => decide (taskID = id)
  | .saveCheckpoint cp => decide (cp.taskID = id)
  | _ => false

/-- The callback carries the identity of its sender. -/
def Identified (callback : RuntimeCallback) : Prop :=
  Text.trimSpace callback.sender ≠ "" ∧
    ((∃ envelope, callback.envelope = some envelope ∧
        SameRuntime envelope.runtimeID callback.sender) ∨
      SameRuntime callback.headerRuntimeID callback.sender)

/-- The event is no late message about the task with record {lit}`t`: a dispatch
reports on the task while its runtime is still assigned, and a callback says who
sent it and was checked against the runtime that is assigned now. -/
structure InTime (pre : List SystemEvent) (id : Uuid) (t : TaskRecord) (e : SystemEvent) :
    Prop where
  dispatch : ∀ task checkpoint op, e.origin = .dispatch task checkpoint → e.action = .store op →
    reportsOn id op = true → task.runtimeID = t.runtimeID
  callback : ∀ callback, e.origin = .callback callback → callback.taskID = id →
    Identified callback ∧ ∀ read,
      (⟨e.tid, e.origin, .getTask callback.taskID callback.tenantID, .ok read⟩ : SystemEvent) ∈ pre →
        read.runtimeID = t.runtimeID

/-- A recovery pass assigned the task to the runtime. -/
def Reassigns (id : Uuid) (runtimeID : String) (e : SystemEvent) : Prop :=
  ∃ tid failed endpoint answer ids, e = ⟨tid, .recovery failed,
    .store (.markDispatched id runtimeID endpoint), answer⟩ ∧ StoreOp.Effective answer ids

/-- The event tries to assign the task to a runtime. -/
def Assigns (id : Uuid) (e : SystemEvent) : Prop :=
  (∃ runtimeID endpoint, e.action = .store (.markDispatched id runtimeID endpoint)) ∨
    ∃ tenantID runtimeID endpoint,
      e.action = .store (.markApprovedDispatched id tenantID runtimeID endpoint)

section Fencing

variable {jsonb : TaskDefinition → TaskDefinition} {runtimeAt : String → String} {store : Store}
  {calls : List Origin} {τ pre post : List SystemEvent} {c c' c₁ c₂ : SystemConfig}
  {e : SystemEvent} {id : Uuid} {t : TaskRecord} {runtimeID : String}

/-! ## Assignments -/

/-- A statement writes the runtime of a row only when it dispatches the task. -/
theorem runtimeID_set {op : StoreOp} (hcond : op.rowUpdate.cond t = true) :
    (op.rowUpdate.set t).runtimeID = t.runtimeID ∨
      (∃ runtimeID endpoint, op = .markDispatched t.taskID runtimeID endpoint) ∨
      ∃ tenantID runtimeID endpoint,
        op = .markApprovedDispatched t.taskID tenantID runtimeID endpoint := by
  cases op with
  | markDispatched taskID runtimeID endpoint =>
      rw [← (hasStatus_iff.mp hcond).1]
      exact Or.inr (Or.inl ⟨runtimeID, endpoint, rfl⟩)
  | markApprovedDispatched taskID tenantID runtimeID endpoint =>
      simp only [StoreOp.rowUpdate, Update.markApprovedDispatched, Bool.and_eq_true] at hcond
      rw [← (hasStatus_iff.mp hcond.1).1]
      exact Or.inr (Or.inr ⟨tenantID, runtimeID, endpoint, rfl⟩)
  | _ => exact Or.inl rfl

/-- The assigned runtime stays until the next assignment. -/
theorem assigned_of_run (hrun : Run (system jsonb runtimeAt) c τ c')
    (ht : c.state.store.task id = some t) (hno : ∀ e ∈ τ, ¬Assigns id e) :
    ∃ t', c'.state.store.task id = some t' ∧ t'.runtimeID = t.runtimeID := by
  revert hno
  refine hrun.invariant (I := fun τ c' => (∀ e ∈ τ, ¬Assigns id e) →
    ∃ t', c'.state.store.task id = some t' ∧ t'.runtimeID = t.runtimeID) ?_ ?_
  · intro _
    exact ⟨t, ht, rfl⟩
  · intro τ c₁ e c₂ _ ih hstep hno
    rcases ih (fun e' he' => hno e' (List.mem_append_left _ he')) with ⟨t₁, ht₁, hruntime⟩
    have hid := Store.taskID_of_task ht₁
    rcases task_cases_of_step hstep ht₁ with hkept | ⟨op, answer, ids, he, -, -, hcond, hset⟩
    · exact ⟨t₁, hkept, hruntime⟩
    · have hassigns : ¬Assigns id e := hno e (by simp)
      rcases runtimeID_set hcond with hsame | ⟨runtimeID, endpoint, rfl⟩ |
        ⟨tenantID, runtimeID, endpoint, rfl⟩
      · exact ⟨_, hset, hsame.trans hruntime⟩
      · rw [hid] at he
        exact absurd (Or.inl ⟨runtimeID, endpoint, by rw [he]⟩) hassigns
      · rw [hid] at he
        exact absurd (Or.inr ⟨tenantID, runtimeID, endpoint, by rw [he]⟩) hassigns

theorem Reassigns.row (h : Reassigns id runtimeID e)
    (hstep : Step (system jsonb runtimeAt) c e c') :
    ∃ t, c'.state.store.task id = some t ∧ t.runtimeID = some runtimeID := by
  rcases h with ⟨tid, failed, endpoint, answer, ids, rfl, heffect⟩
  rcases row_of_effective hstep heffect (fun _ => rfl) (fun t ht => (hasStatus_iff.mp ht).1) with
    ⟨t, -, -, ht'⟩
  exact ⟨_, ht', rfl⟩

/-! ## Writes in time -/

/-- The report of a dispatch that meets the row is a report on its task. -/
theorem reportsOn_of_dispatch {K : (a : Action) → Answer a → Prop} {task : TaskRecord}
    {checkpoint : Option CheckpointPayload} {op : StoreOp}
    (hissues : DispatchIssues K task checkpoint (.store op)) (hcond : op.rowUpdate.cond t = true) :
    reportsOn t.taskID op = true := by
  cases hissues with
  | quiet hquiet => cases hquiet
  | fail | complete => exact decide_eq_true (hasStatus_iff.mp hcond).1.symm
  | saveExecutionArtifacts =>
      exact decide_eq_true (of_decide_eq_true hcond).symm
  | saveCheckpoint => exact decide_eq_true (Store.taskID_of_acceptCheckpoint hcond).symm

/-- The operation of a callback that meets the row is about the task of the callback. -/
theorem taskID_of_callbackOp {callback : RuntimeCallback}
    (hcond : (callbackOp callback).rowUpdate.cond t = true) : t.taskID = callback.taskID := by
  unfold callbackOp at hcond
  split at hcond
  · exact Store.taskID_of_acceptCheckpoint hcond
  · exact (hasStatus_iff.mp hcond).1
  · exact (hasStatus_iff.mp hcond).1

/-- An identity that passed the check is the assigned one. -/
theorem sameRuntime_of_matches {task : TaskRecord} {given sender : String}
    (hassigned : task.runtimeID = some runtimeID) (hblank : Text.trimSpace runtimeID ≠ "")
    (hmatch : runtimeCallbackMatchesTask task [given] = true) (hgiven : SameRuntime given sender)
    (hsender : Text.trimSpace sender ≠ "") : SameRuntime sender runtimeID := by
  simp only [runtimeCallbackMatchesTask, hassigned, hblank, decide_false, Bool.false_or,
    List.all_cons, List.all_nil, Bool.and_true, Bool.or_eq_true, decide_eq_true_eq] at hmatch
  unfold SameRuntime at hgiven ⊢
  rcases hmatch with hempty | hsame
  · rw [hgiven] at hempty
    exact absurd hempty hsender
  · rw [← hgiven, hsame]

/-- A write in time that changes the record comes from the assigned runtime. -/
theorem changes_in_time (h : SystemRun jsonb runtimeAt store calls (pre ++ e :: post) c)
    (hstep : Step (system jsonb runtimeAt) c₁ e c₂) (ht : c₁.state.store.task id = some t)
    (hassigned : t.runtimeID = some runtimeID) (hblank : Text.trimSpace runtimeID ≠ "")
    (htime : InTime pre id t e) (hchanged : c₂.state.store.task id ≠ some t)
    (hmessage : isMessage e.origin = true) :
    ∃ sender, messageOf e.origin = some sender ∧ SameRuntime sender runtimeID := by
  have hid := Store.taskID_of_task ht
  rcases task_cases_of_step hstep ht with hkept | ⟨op, answer, ids, he, -, -, hcond, -⟩
  · exact absurd hkept hchanged
  have haction : e.action = .store op := by rw [he]
  have hissues := h.issues
  rw [haction] at hissues
  cases ho : e.origin with
  | dispatch task checkpoint =>
      rw [ho] at hissues
      have hreports := reportsOn_of_dispatch hissues hcond
      rw [hid] at hreports
      have hsame := htime.dispatch task checkpoint op ho haction hreports
      exact ⟨runtimeID, hsame.trans hassigned, rfl⟩
  | callback callback =>
      rw [ho] at hissues
      refine ⟨callback.sender, rfl, ?_⟩
      cases hissues with
      | quiet hquiet => cases hquiet
      | @store task op hchecked hop =>
          rw [← hop] at hcond
          have htask : callback.taskID = id := (taskID_of_callbackOp hcond).symm.trans hid
          rcases htime.callback callback ho htask with ⟨⟨hsender, hgiven⟩, hfresh⟩
          have hread : task.runtimeID = some runtimeID :=
            (hfresh task (ho ▸ hchecked.read)).trans hassigned
          rcases hgiven with ⟨envelope, henvelope, hgiven⟩ | hgiven
          · exact sameRuntime_of_matches hread hblank (hchecked.envelope envelope henvelope).2 hgiven
              hsender
          · exact sameRuntime_of_matches hread hblank hchecked.header hgiven hsender
  | _ =>
      rw [ho] at hmessage
      cases hmessage

/-- In every run whose steps are all in time, a reassigned task is fenced: until it
is assigned again, every change of its record comes from a message of the new
runtime or from a call that is no message, and a message of another runtime
leaves the record as it is. -/
theorem SystemRun.fenced (h : SystemRun jsonb runtimeAt store calls τ c)
    (htime : EveryStep (system jsonb runtimeAt) (initial runtimeAt store calls) τ
      fun pre c₁ e => ∀ t, c₁.state.store.task id = some t → InTime pre id t e)
    (hblank : Text.trimSpace runtimeID ≠ "") :
    ∀ p r q e s c₁ c₂ t, τ = p ++ r :: (q ++ e :: s) → Reassigns id runtimeID r →
      (∀ e' ∈ q, ¬Assigns id e') →
      Run (system jsonb runtimeAt) (initial runtimeAt store calls) (p ++ r :: q) c₁ →
      Step (system jsonb runtimeAt) c₁ e c₂ → c₁.state.store.task id = some t →
      (c₂.state.store.task id ≠ some t → isMessage e.origin = false ∨
        ∃ sender, messageOf e.origin = some sender ∧ SameRuntime sender runtimeID) ∧
      ∀ sender, messageOf e.origin = some sender → ¬SameRuntime sender runtimeID →
        c₂.state.store.task id = some t := by
  intro p r q e s c₁ c₂ t hτ hreassigns hlast hrun hstep ht
  have hsplit : τ = (p ++ r :: q) ++ e :: s := by
    rw [hτ]
    simp
  rcases hrun.split with ⟨d₁, d₂, -, hr, hq⟩
  rcases hreassigns.row hr with ⟨t₀, ht₀, hruntime⟩
  rcases assigned_of_run hq ht₀ hlast with ⟨t', ht', hstill⟩
  rw [ht, Option.some.injEq] at ht'
  subst ht'
  have hassigned : t.runtimeID = some runtimeID := hstill.trans hruntime
  have hchange : c₂.state.store.task id ≠ some t → isMessage e.origin = true →
      ∃ sender, messageOf e.origin = some sender ∧ SameRuntime sender runtimeID :=
    changes_in_time (hsplit ▸ h) hstep ht hassigned hblank (htime _ e s c₁ hsplit hrun t ht)
  refine ⟨?_, ?_⟩
  · intro hne
    cases hmessage : isMessage e.origin with
    | false => exact Or.inl rfl
    | true => exact Or.inr (hchange hne hmessage)
  · intro sender hsender hother
    by_contra hne
    have hmessage : isMessage e.origin = true := by
      cases ho : e.origin <;> rw [ho] at hsender <;> first | rfl | cases hsender
    rcases hchange hne hmessage with ⟨sender', hsender', hsame⟩
    rw [hsender, Option.some.injEq] at hsender'
    exact hother (hsender' ▸ hsame)

end Fencing

/-! ## A late answer -/

/-- Two tool calls. -/
def orderRequest : TaskSubmitRequest where
  taskID := 7
  tenantID := "acme"
  taskDefinition := {
    text := "", taskType := .executionGraph
    graphNodes := [{ kind := .tool, nodeID := "read", text := "" },
      { kind := .tool, nodeID := "write", text := "" }] }
  idempotencyKey := "order-1"

/-- The first runtime reports that the first step is done. -/
def firstCheckpoint : RuntimeCallback where
  sender := "runtime-a"
  taskID := 7
  tenantID := "acme"
  body := .checkpoint {
    taskID := 7
    resumeToken := { lastCommittedStep := 0, runtimeID := "runtime-a", checkpointDigest := "" }
    walEntries := [{
      entryID := 1, taskID := 7, stepIndex := 0, stepType := "", status := "Committed",
      inputDigest := "", outputDigest := none, timestampMs := 0, runtimeID := "runtime-a",
      signature := none }] }
  headerRuntimeID := "runtime-a"

def handoffCalls : List Origin :=
  [.submit orderRequest, .callback firstCheckpoint, .recovery "runtime-a"]

/-- The task is dispatched to the first runtime, which reports one step and goes
silent; a recovery pass hands the task to the second runtime. -/
def handoffSchedule : Script State Action Answer :=
  (List.replicate 10 0 ++ List.replicate 8 3 ++ List.replicate 3 1).map
      (fun tid => (tid, smoothly ⟨"runtime-a", "https://a"⟩)) ++
    List.replicate 12 (2, smoothly ⟨"runtime-b", "https://b"⟩)

def reassignsTo (id : Uuid) (runtimeID : String) : SystemEvent → Bool
  | ⟨_, .recovery _, .store (.markDispatched id' runtimeID' _), .ok _⟩ =>
      decide (id' = id) && decide (runtimeID' = runtimeID)
  | _ => false

variable {runtimeID : String} {e : SystemEvent}

theorem reassigns_of_reassignsTo {id : Uuid} (h : reassignsTo id runtimeID e = true) :
    Reassigns id runtimeID e := by
  unfold reassignsTo at h
  split at h
  · simp only [Bool.and_eq_true, decide_eq_true_eq] at h
    rcases h with ⟨rfl, rfl⟩
    exact ⟨_, _, _, _, _, rfl, Or.inl rfl⟩
  · cases h

def assigns (id : Uuid) : SystemEvent → Bool
  | ⟨_, _, .store (.markDispatched id' _ _), _⟩ => decide (id' = id)
  | ⟨_, _, .store (.markApprovedDispatched id' _ _ _), _⟩ => decide (id' = id)
  | _ => false

theorem not_assigns {id : Uuid} (h : assigns id e = false) : ¬Assigns id e := by
  rcases e with ⟨tid, o, a, answer⟩
  rintro (⟨runtimeID, endpoint, haction⟩ | ⟨tenantID, runtimeID, endpoint, haction⟩)
  all_goals
    dsimp only at haction
    subst haction
    simp [assigns] at h

/-- A dispatch to the runtime completes the task. -/
def completesFrom (id : Uuid) (runtimeID : String) : SystemEvent → Bool
  | ⟨_, .dispatch task _, .store (.markCompleted id'), .ok _⟩ =>
      decide (id' = id) && decide (task.runtimeID = some runtimeID)
  | _ => false

theorem completes_of_completesFrom {id : Uuid} (h : completesFrom id runtimeID e = true) :
    messageOf e.origin = some runtimeID ∧
      ∃ ids, e = ⟨e.tid, e.origin, .store (.markCompleted id), .ok ids⟩ := by
  unfold completesFrom at h
  split at h
  · simp only [Bool.and_eq_true, decide_eq_true_eq] at h
    rcases h with ⟨rfl, hruntime⟩
    exact ⟨hruntime, _, rfl⟩
  · cases h

/-- A completion that follows a reassignment, with the records around it. -/
theorem completed_after_reassign {jsonb : TaskDefinition → TaskDefinition}
    {runtimeAt : String → String} {store : Store} {calls : List Origin} {p q s : List SystemEvent}
    {r : SystemEvent} {c : SystemConfig} {id : Uuid} {sender : String}
    (hrun : SystemRun jsonb runtimeAt store calls (p ++ r :: (q ++ e :: s)) c)
    (hr : reassignsTo id runtimeID r = true) (hq : ∀ e' ∈ q, assigns id e' = false)
    (he : completesFrom id sender e = true) :
    ∃ c₁ c₂ t t', Run (system jsonb runtimeAt) (initial runtimeAt store calls) (p ++ r :: q) c₁ ∧
      Step (system jsonb runtimeAt) c₁ e c₂ ∧
      c₁.state.store.task id = some t ∧ t.runtimeID = some runtimeID ∧ t.status ≠ .completed ∧
      c₂.state.store.task id = some t' ∧ t'.status = .completed := by
  have hsplit : Run (system jsonb runtimeAt) (initial runtimeAt store calls)
      ((p ++ r :: q) ++ e :: s) c := by
    have := hrun.run
    simpa using this
  rcases hsplit.split with ⟨c₁, c₂, hpre, hstep, -⟩
  rcases hpre.split with ⟨d₁, d₂, -, hreassign, hbetween⟩
  rcases (reassigns_of_reassignsTo hr).row hreassign with ⟨t₀, ht₀, hruntime⟩
  rcases assigned_of_run hbetween ht₀ (fun e' he' => not_assigns (hq e' he')) with
    ⟨t, ht, hstill⟩
  rcases completes_of_completesFrom he with ⟨-, ids, heq⟩
  have hcompletes := hstep
  rw [heq] at hcompletes
  rcases row_of_effective hcompletes (Or.inl rfl) (fun _ => rfl)
    (fun t ht => (hasStatus_iff.mp ht).1) with ⟨t₁, ht₁, hcond, ht'⟩
  rw [ht, Option.some.injEq] at ht₁
  subst ht₁
  refine ⟨c₁, c₂, t, _, hpre, hstep, ht, hstill.trans hruntime, ?_, ht', rfl⟩
  intro hstatus
  have hmem := (hasStatus_iff.mp hcond).2
  rw [hstatus] at hmem
  simp at hmem

/-- The answer of the first runtime arrives after the task was reassigned to the
second one, and completes the task. -/
theorem late_result_completes :
    ∃ τ c, SystemRun id id .empty handoffCalls τ c ∧
      ∃ p r q e s c₁ c₂ t t', τ = p ++ r :: (q ++ e :: s) ∧ Reassigns 7 "runtime-b" r ∧
        (∀ e' ∈ q, ¬Assigns 7 e') ∧
        Run (system id id) (initial id .empty handoffCalls) (p ++ r :: q) c₁ ∧
        Step (system id id) c₁ e c₂ ∧ messageOf e.origin = some "runtime-a" ∧
        c₁.state.store.task 7 = some t ∧ t.runtimeID = some "runtime-b" ∧
        t.status ≠ .completed ∧ c₂.state.store.task 7 = some t' ∧ t'.status = .completed := by
  have hplay : (play (system id id) anyStep [] (initial id .empty handoffCalls)
      (handoffSchedule ++ List.replicate 2 (3, smoothly ⟨"runtime-a", "https://a"⟩))).any
      (fun out => follows (reassignsTo 7 "runtime-b") (assigns 7) (completesFrom 7 "runtime-a")
        out.1) = true := by
    decide +kernel
  rcases exists_systemRun (by decide) hplay with ⟨τ, c, hrun, hcheck, -⟩
  rcases exists_of_follows hcheck with ⟨p, r, q, e, s, rfl, hr, hq, he⟩
  rcases completed_after_reassign hrun hr hq he with
    ⟨c₁, c₂, t, t', hpre, hstep, ht, hruntime, hstatus, ht', hstatus'⟩
  exact ⟨_, c, hrun, p, r, q, e, s, c₁, c₂, t, t', rfl, reassigns_of_reassignsTo hr,
    fun e' he' => not_assigns (hq e' he'), hpre, hstep, (completes_of_completesFrom he).1, ht,
    hruntime, hstatus, ht', hstatus'⟩

/-! ## An answer in time -/

/-- Decides whether the event is in time. -/
def inTime (id : Uuid) (pre : List SystemEvent) (c : SystemConfig) (e : SystemEvent) : Bool :=
  match c.state.store.task id with
  | none => true
  | some t =>
      match e.origin, e.action with
      | .dispatch task _, .store op =>
          !reportsOn id op || decide (task.runtimeID = t.runtimeID)
      | .callback callback, _ =>
          decide (callback.taskID ≠ id) ||
            (decide (Text.trimSpace callback.sender ≠ "") &&
              decide (Text.trimSpace callback.headerRuntimeID = Text.trimSpace callback.sender) &&
              pre.all fun
                | ⟨tid, _, .getTask _ _, .ok read⟩ =>
                    decide (tid ≠ e.tid) || decide (read.runtimeID = t.runtimeID)
                | _ => true)
      | _, _ => true

theorem inTime_sound {id : Uuid} {pre : List SystemEvent} {c : SystemConfig}
    (h : inTime id pre c e = true) :
    ∀ t, c.state.store.task id = some t → InTime pre id t e := by
  intro t ht
  unfold inTime at h
  rw [ht] at h
  refine ⟨?_, ?_⟩
  · intro task checkpoint op ho haction hreports
    simp only [ho, haction, hreports, Bool.not_true, Bool.false_or, decide_eq_true_eq] at h
    exact h
  · intro callback ho htask
    simp only [ho, htask, ne_eq, not_true_eq_false, decide_false, Bool.false_or, Bool.and_eq_true,
      decide_eq_true_eq, List.all_eq_true] at h
    refine ⟨⟨h.1.1, Or.inr h.1.2⟩, ?_⟩
    intro read hread
    have := h.2 _ hread
    simpa using this

theorem fenced_handoff :
    ∃ τ c, SystemRun id id .empty handoffCalls τ c ∧
      EveryStep (system id id) (initial id .empty handoffCalls) τ
        (fun pre c₁ e => ∀ t, c₁.state.store.task 7 = some t → InTime pre 7 t e) ∧
      ∃ e ∈ τ, ∃ c₁ c₂ t, Step (system id id) c₁ e c₂ ∧ c₁.state.store.task 7 = some t ∧
        c₂.state.store.task 7 ≠ some t ∧ (isMessage e.origin = false ∨
          ∃ sender, messageOf e.origin = some sender ∧ SameRuntime sender "runtime-b") := by
  have hplay : (play (system id id) (inTime 7) [] (initial id .empty handoffCalls)
      (handoffSchedule ++ List.replicate 10 (5, smoothly ⟨"runtime-b", "https://b"⟩))).any
      (fun out => follows (reassignsTo 7 "runtime-b") (assigns 7) (completesFrom 7 "runtime-b")
        out.1) = true := by
    decide +kernel
  rcases exists_systemRun (by decide) hplay with ⟨τ, c, hrun, hcheck, hevery⟩
  rcases exists_of_follows hcheck with ⟨p, r, q, e, s, rfl, hr, hq, he⟩
  rcases completed_after_reassign hrun hr hq he with
    ⟨c₁, c₂, t, t', hpre, hstep, ht, -, hstatus, ht', hstatus'⟩
  have htime := fun pre e post c₁ hsplit hpre => inTime_sound (hevery pre e post c₁ hsplit hpre)
  have hchanged : c₂.state.store.task 7 ≠ some t := by
    rw [ht']
    rintro heq
    cases heq
    exact hstatus hstatus'
  refine ⟨_, c, hrun, htime, e, by simp, c₁, c₂, t, hstep, ht, hchanged, ?_⟩
  exact (hrun.fenced htime (by decide) p r q e s c₁ c₂ t rfl (reassigns_of_reassignsTo hr)
    (fun e' he' => not_assigns (hq e' he')) hpre hstep ht).1 hchanged

end Igris
