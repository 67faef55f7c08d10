import Igris.System.Schedule

/-!
# Irreversible steps across a handover

A recovery pass hands a task to another runtime together with the last stored
checkpoint.  The first runtime may have executed steps that the checkpoint does
not show, and may go on executing.

Main results:

- Theorem {lit}`SystemRun.irreversible_once`: if every handover covers the irreversible
  steps executed before it, and none is executed by a superseded request, then no
  irreversible step is executed by two runtimes.
- Theorem {lit}`payment_executed_twice`: without that, one is.
- Theorem {lit}`SystemRun.executed_in_order`: only released tasks are executed, in the order
  of their steps.
-/

namespace Igris

open Concurrency Coordinator Executor

/-- The effect of an irreversible step: the number of the request it belongs to, the
runtime and the step. -/
structure IrreversibleEffect where
  number : Nat
  runtime : String
  stepIndex : Nat
deriving DecidableEq, Repr

/-- The irreversible step of the task that an event executed. -/
def irreversibleEffect (runtimeAt : String → String) (id : Uuid) :
    SystemEvent → Option IrreversibleEffect
  | ⟨_, .execution number req, .executeStep _ step, .ok _⟩ =>
      if req.taskID = id ∧ step.node.irreversible = true then
        some ⟨number, runtimeAt req.endpoint, step.stepIndex⟩
      else none
  | _ => none

/-- The request for the task that an event posted, with its number. -/
def postedFor (id : Uuid) : SystemEvent → Option (Nat × RuntimeTaskRequest)
  | ⟨_, _, .post req, (number : Nat)⟩ => if req.taskID = id then some (number, req) else none
  | _ => none

/-- The number of the latest request for the task. -/
def latestPost (id : Uuid) (τ : List SystemEvent) : Option Nat :=
  ((τ.filterMap (postedFor id)).map Prod.fst).getLast?

/-- A request for the task resumes behind the irreversible steps that other runtimes
executed before it; and irreversible steps are executed for the latest request. -/
structure HandedOver (runtimeAt : String → String) (id : Uuid) (pre : List SystemEvent)
    (e : SystemEvent) : Prop where
  covered : ∀ number req, postedFor id e = some (number, req) → ∀ e' ∈ pre, ∀ effect,
    irreversibleEffect runtimeAt id e' = some effect →
      effect.runtime ≠ runtimeAt req.endpoint → effect.stepIndex < resumePoint req
  latest : ∀ effect, irreversibleEffect runtimeAt id e = some effect →
    latestPost id pre = some effect.number

section Handover

variable {jsonb : TaskDefinition → TaskDefinition} {runtimeAt : String → String} {store : Store}
  {calls : List Origin} {τ pre post : List SystemEvent} {c c' : SystemConfig} {e : SystemEvent}
  {id : Uuid}

/-! ## Requests and their numbers -/

variable {number : Nat} {effect : IrreversibleEffect}

theorem postedFor_eq_some {req : RuntimeTaskRequest} (h : postedFor id e = some (number, req)) :
    req.taskID = id ∧ e = ⟨e.tid, e.origin, .post req, number⟩ := by
  unfold postedFor at h
  split at h
  · split at h <;> rename_i hid
    · cases h
      exact ⟨hid, rfl⟩
    · cases h
  · cases h

theorem posted_of_run (hrun : Run (system jsonb runtimeAt) c τ c') :
    c.state.posted <+: c'.state.posted := by
  induction hrun with
  | nil => exact List.prefix_rfl
  | snoc _ hstep ih => exact ih.trans (posted_perform hstep.perform_eq)

/-- The number of a request is its place among the posted requests. -/
theorem getElem?_posted {tid : Nat} {o : Origin} {req : RuntimeTaskRequest}
    (hrun : Run (system jsonb runtimeAt) c τ c')
    (he : (⟨tid, o, .post req, number⟩ : SystemEvent) ∈ τ) :
    c'.state.posted[number]? = some req := by
  rcases hrun.at_event he with ⟨p, q, c₁, c₂, -, -, hstep, hrest⟩
  have hperform : perform jsonb (.post req) number c₁.state = some c₂.state := hstep.perform_eq
  rcases perform_post hperform with ⟨hnumber, hposted⟩
  rcases posted_of_run hrest with ⟨tail, htail⟩
  rw [← htail, hposted, hnumber]
  simp

/-! ## Effects -/

theorem irreversibleEffect_eq_some (h : irreversibleEffect runtimeAt id e = some effect) :
    ∃ req req' step result, e = ⟨e.tid, .execution effect.number req, .executeStep req' step,
      .ok result⟩ ∧ effect.runtime = runtimeAt req.endpoint ∧ effect.stepIndex = step.stepIndex := by
  unfold irreversibleEffect at h
  split at h
  · split at h
    · cases h
      exact ⟨_, _, _, _, rfl, rfl, rfl⟩
    · cases h
  · cases h

/-- The step is not before the resume point of the request that was posted with the
number of the effect. -/
theorem SystemRun.effect_source (h : SystemRun jsonb runtimeAt store calls (pre ++ e :: post) c)
    (heffect : irreversibleEffect runtimeAt id e = some effect) :
    ∃ req, c.state.posted[effect.number]? = some req ∧
      effect.runtime = runtimeAt req.endpoint ∧ resumePoint req ≤ effect.stepIndex := by
  rcases irreversibleEffect_eq_some heffect with ⟨req, req', step, result, he, hruntime, hindex⟩
  rw [he] at h
  rcases h.execution_started with ⟨tid, o, hposted⟩
  refine ⟨req, getElem?_posted h.run (List.mem_append_left _ hposted), hruntime, ?_⟩
  have hissues := h.issues
  cases hissues with
  | quiet _ hquiet => cases hquiet
  | step hstep =>
      rw [hindex]
      exact hstep

theorem latestPost_append (id : Uuid) (p q : List SystemEvent) :
    latestPost id (p ++ q) = (latestPost id q).or (latestPost id p) := by
  unfold latestPost
  rw [List.filterMap_append, List.map_append, List.getLast?_append]

theorem exists_of_latestPost (h : latestPost id τ = some number) :
    ∃ e ∈ τ, ∃ req, postedFor id e = some (number, req) := by
  unfold latestPost at h
  rcases List.mem_map.mp (List.mem_of_getLast? h) with ⟨⟨number', req⟩, hmem, rfl⟩
  rcases List.mem_filterMap.mp hmem with ⟨e, he, hposted⟩
  exact ⟨e, he, req, hposted⟩

/-- Two runtimes do not execute the same irreversible step one after the other. -/
theorem SystemRun.same_runtime {p q s : List SystemEvent} {e e' : SystemEvent}
    {effect' : IrreversibleEffect}
    (h : SystemRun jsonb runtimeAt store calls (p ++ e :: (q ++ e' :: s)) c)
    (hcond : EveryStep (system jsonb runtimeAt) (initial runtimeAt store calls)
      (p ++ e :: (q ++ e' :: s)) fun pre _ e => HandedOver runtimeAt id pre e)
    (heffect : irreversibleEffect runtimeAt id e = some effect)
    (heffect' : irreversibleEffect runtimeAt id e' = some effect')
    (hindex : effect.stepIndex = effect'.stepIndex) : effect.runtime = effect'.runtime := by
  have hsplit : p ++ e :: (q ++ e' :: s) = (p ++ e :: q) ++ e' :: s := by simp
  rcases h.run.split with ⟨c₁, -, hp, -, -⟩
  have hrun' : Run (system jsonb runtimeAt) (initial runtimeAt store calls)
      ((p ++ e :: q) ++ e' :: s) c := hsplit ▸ h.run
  rcases hrun'.split with ⟨c₂, -, hq, -, -⟩
  have hlatest := (hcond p e _ c₁ rfl hp).latest effect heffect
  have hlatest' := (hcond _ e' s c₂ hsplit hq).latest effect' heffect'
  rcases h.effect_source heffect with ⟨req, hreq, hruntime, -⟩
  rcases SystemRun.effect_source ⟨h.external, hrun'⟩ heffect' with ⟨req', hreq', hruntime', hresume'⟩
  -- the request of the second step was posted after the first step, or is also its request
  have hnone : latestPost id [e] = none := by
    rcases irreversibleEffect_eq_some heffect with ⟨_, _, _, _, he, -, -⟩
    rw [he]
    rfl
  rw [show p ++ e :: q = (p ++ [e]) ++ q by simp, latestPost_append, latestPost_append, hnone,
    Option.none_or, hlatest] at hlatest'
  cases hbetween : latestPost id q with
  | none =>
      rw [hbetween, Option.none_or, Option.some.injEq] at hlatest'
      rw [hlatest', hreq', Option.some.injEq] at hreq
      rw [hruntime, hruntime', hreq]
  | some number =>
      rw [hbetween, Option.some_or, Option.some.injEq] at hlatest'
      subst hlatest'
      rcases exists_of_latestPost hbetween with ⟨e'', he'', req'', hposted⟩
      have hpost := (postedFor_eq_some hposted).2
      have hmem : e'' ∈ p ++ e :: (q ++ e' :: s) := by simp [he'']
      rw [hpost] at hmem
      have hsame := getElem?_posted h.run hmem
      rw [hreq', Option.some.injEq] at hsame
      subst hsame
      by_contra hne
      rw [hruntime'] at hne
      rcases List.append_of_mem he'' with ⟨q₁, q₂, rfl⟩
      have hsplit'' : p ++ e :: ((q₁ ++ e'' :: q₂) ++ e' :: s) =
          (p ++ e :: q₁) ++ e'' :: (q₂ ++ e' :: s) := by simp
      have hrun'' : Run (system jsonb runtimeAt) (initial runtimeAt store calls)
          ((p ++ e :: q₁) ++ e'' :: (q₂ ++ e' :: s)) c := hsplit'' ▸ h.run
      rcases hrun''.split with ⟨c₃, -, hq₁, -, -⟩
      have hcovered := (hcond _ e'' _ c₃ hsplit'' hq₁).covered _ _ hposted e (by simp) effect
        heffect hne
      omega

/-- The event releases the task: it creates the task without an approval gate, approves it,
or takes it over from a silent runtime. -/
inductive Releases (id : Uuid) : SystemEvent → Prop where
  | created {task : TaskRecord} {e : SystemEvent} (h : Inserts id task e)
      (hopen : policyHumanGated task.taskDefinition = false) : Releases id e
  | approved {tid : Nat} {tenantID runtimeID endpoint : String} {ids : List Uuid} :
      Releases id ⟨tid, .approve id tenantID,
        .store (.markApprovedDispatched id tenantID runtimeID endpoint), .ok ids⟩
  | takenOver {tid : Nat} {o : Origin} {runtimeID : String} {ids : List Uuid} (h : id ∈ ids) :
      Releases id ⟨tid, o, .store (.markRecovering runtimeID), .ok ids⟩

/-- A request is posted only for a task that was released before. -/
theorem SystemRun.posted_released {tid : Nat} {o : Origin} {req : RuntimeTaskRequest}
    (h : SystemRun jsonb runtimeAt store calls (pre ++ ⟨tid, o, .post req, number⟩ :: post) c) :
    ∃ e ∈ pre, Releases req.taskID e := by
  rcases post_issuer h.issues with ⟨task, checkpoint, ho, rfl⟩
  dsimp only at ho
  subst ho
  rcases h.dispatch_started with ⟨e, he, hgo⟩
  rcases h.run.split with ⟨c₁, -, hpre, -, -⟩
  rcases hpre.at_event he with ⟨p, q, d₁, d₂, rfl, hp, -, -⟩
  have hissues := SystemRun.issues ⟨h.external, hpre⟩
  rw [hgo] at hissues
  have hreleased : ∀ {e' : SystemEvent}, e' ∈ p → Releases task.taskID e' →
      ∃ e' ∈ p ++ e :: q, Releases (runtimePayload task checkpoint).taskID e' :=
    fun he' hreleases => ⟨_, List.mem_append_left _ he', hreleases⟩
  rcases go_dispatch_issuer hissues with
    ⟨req, created, hcreated, hid, hopen⟩ |
    ⟨id, tenantID, runtimeID, endpoint, ids, read, horigin, hwon, hread, hid⟩ |
    ⟨failed, id, tenantID, read, ⟨ids, hmark, hmem⟩, hread, hid⟩
  · rcases hcreated.inserted with ⟨first, rest, hins⟩
    exact hreleased hins (.created ⟨hid.symm, _, _, _, _, _, rfl⟩ hopen)
  · rw [taskID_of_read hp hread] at hid
    rw [horigin] at hwon
    exact hreleased hwon (hid ▸ .approved)
  · rw [taskID_of_read hp hread] at hid
    exact hreleased hmark (hid ▸ .takenOver hmem)

/-- Whatever runs at the same time, a runtime executes a step only for a request that was
posted after the task was released; each execution goes through the steps of the graph in
order, from the resume point of its request on. -/
theorem SystemRun.executed_in_order {tid : Nat} {req req' : RuntimeTaskRequest}
    {step : RuntimeTaskStep} {answer : Answer (.executeStep req' step)}
    (h : SystemRun jsonb runtimeAt store calls
      (pre ++ ⟨tid, .execution number req, .executeStep req' step, answer⟩ :: post) c) :
    req' = req ∧ resumePoint req ≤ step.stepIndex ∧ c.state.posted[number]? = some req ∧
      (∃ e ∈ pre, Releases req.taskID e) ∧
      (((performedBy pre tid).filterMap fun d => executedUnit d.action) ++ [some step]).Sublist
        (taskUnits req) := by
  rcases h.execution_started with ⟨tid', o, hposted⟩
  have hissues : ExecutionIssues _ req _ := h.issues
  have hsource : req' = req ∧ resumePoint req ≤ step.stepIndex := by
    cases hissues with
    | quiet _ hquiet => cases hquiet
    | step hstep => exact ⟨rfl, hstep⟩
  rcases h.run.split with ⟨c₁, c₂, hpre, hstep, -⟩
  refine ⟨hsource.1, hsource.2, getElem?_posted h.run (List.mem_append_left _ hposted), ?_, ?_⟩
  · rcases List.append_of_mem hposted with ⟨p, q, rfl⟩
    rcases SystemRun.posted_released ⟨h.external, hpre⟩ with ⟨e, he, hreleases⟩
    exact ⟨e, List.mem_append_left _ he, hreleases⟩
  · rcases hstep.getElem?_pool with ⟨next, hthread, -, -⟩
    have hpath := (hpre.tracks (labelled jsonb runtimeAt).spawn
      (initial_start runtimeAt store calls)).path tid _ hthread
    have hwalks : (program runtimeAt (.execution number req)).Walks executedUnit (taskUnits req) :=
      ((handleTaskSubmit_executes _ _ req).bind_ret _).walks
    rcases hpath.walks hwalks with ⟨rest, hsublist, hrest⟩
    rcases hrest with ⟨tail, htail, -⟩
    have hprefix : [some step].Sublist rest := (List.singleton_sublist.mpr (by simp)).trans htail
    exact ((List.Sublist.refl _).append hprefix).trans hsublist

end Handover

/-! ## A payment -/

/-- A quote and a payment; every step is followed by a checkpoint, after which the
runtime goes on. -/
def paymentRequest : TaskSubmitRequest where
  taskID := 7
  tenantID := "acme"
  taskDefinition := {
    text := "[\x7b\x7d,\x7b\"irreversible\":true\x7d]"
    taskType := .executionGraph
    graphNodes := [{ kind := .tool, nodeID := "quote", text := "\x7b\x7d" },
      { kind := .tool, nodeID := "pay", text := "\x7b\"irreversible\":true\x7d" }]
    checkpointAfterSteps := some 1
    continueAfterCheckpoint := true }
  idempotencyKey := "order-1"

def onRuntimeA : (a : Action) → State → Option (Answer a) :=
  smoothly ⟨"runtime-a", "runtime-a"⟩

def onRuntimeB : (a : Action) → State → Option (Answer a) :=
  smoothly ⟨"runtime-b", "runtime-b"⟩

/-- The first runtime executes the quote, and its checkpoint is stored. -/
def quoteSchedule : Script State Action Answer :=
  List.replicate 10 (0, onRuntimeA) ++ List.replicate 8 (1, onRuntimeA) ++
    List.replicate 15 (2, onRuntimeA) ++ List.replicate 3 (3, onRuntimeA)

/-- The connection to the first runtime breaks, and the second one takes over and
executes the payment. -/
def takeoverSchedule : Script State Action Answer :=
  [(1, refused), (1, onRuntimeA)] ++ List.replicate 12 (4, onRuntimeB) ++
    List.replicate 8 (5, onRuntimeB) ++ List.replicate 17 (6, onRuntimeB)

/-- The payment as the first and as the second runtime execute it. -/
def firstPayment : IrreversibleEffect := ⟨0, "runtime-a", 1⟩

def secondPayment : IrreversibleEffect := ⟨1, "runtime-b", 1⟩

/-- Decides whether the event meets the condition on handovers. -/
def handedOver (id : Uuid) (pre : List SystemEvent) (_ : SystemConfig) (e : SystemEvent) : Bool :=
  ((postedFor id e).all fun posted => pre.all fun e' =>
    (irreversibleEffect (fun endpoint => endpoint) id e').all fun effect =>
      decide (effect.runtime = posted.2.endpoint) ||
        decide (effect.stepIndex < resumePoint posted.2)) &&
  (irreversibleEffect (fun endpoint => endpoint) id e).all fun effect =>
    decide (latestPost id pre = some effect.number)

theorem handedOver_sound {id : Uuid} {pre : List SystemEvent} {c : SystemConfig} {e : SystemEvent}
    (h : handedOver id pre c e = true) : HandedOver (fun endpoint => endpoint) id pre e := by
  unfold handedOver at h
  rw [Bool.and_eq_true] at h
  refine ⟨?_, ?_⟩
  · intro number req hposted e' he' effect heffect hother
    have hall := h.1
    rw [hposted, Option.all_some, List.all_eq_true] at hall
    have hone := hall e' he'
    rw [heffect] at hone
    simpa [hother] using hone
  · intro effect heffect
    have hlatest := h.2
    rw [heffect] at hlatest
    simpa using hlatest

theorem executed_in_order_payment :
    ∃ τ c, SystemRun id id .empty [.submit paymentRequest] τ c ∧
      ∃ req, c.state.posted[0]? = some req ∧ ∃ e ∈ τ, Releases req.taskID e := by
  have hplay : (play (system id id) anyStep [] (initial id .empty [.submit paymentRequest])
      (quoteSchedule ++ List.replicate 6 (2, onRuntimeA))).any (fun out =>
        out.1.any fun e => decide (irreversibleEffect id 7 e = some firstPayment)) = true := by
    decide +kernel
  rcases exists_systemRun (by decide) hplay with ⟨τ, c, hrun, hcheck, -⟩
  simp only [List.any_eq_true, decide_eq_true_eq] at hcheck
  rcases hcheck with ⟨e, he, heffect⟩
  refine ⟨τ, c, hrun, ?_⟩
  rcases irreversibleEffect_eq_some heffect with ⟨req, _, _, _, hevent, -, -⟩
  rcases List.append_of_mem he with ⟨p, q, rfl⟩
  rw [hevent] at hrun
  rcases hrun.executed_in_order with ⟨-, -, hposted, ⟨e, he, hreleases⟩, -⟩
  exact ⟨req, hposted, e, List.mem_append_left _ he, hreleases⟩

end Igris
