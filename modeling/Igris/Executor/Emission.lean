import Igris.Executor.Execute
import Igris.Lib.Hoare
import Igris.System.Schedule

/-!
# The checkpoints an execution emits

A runtime hands its checkpoints to the coordinator in callbacks and in its answer,
and the coordinator checks each of them before it is stored.  This file follows the
step loop and compares what it emits with what the coordinator accepts.

Main results:

- Theorem {lit}`runSteps_emits`: the step loop keeps the relation between its
  variables and what was emitted, and stops with an acceptable checkpoint.
- Theorem {lit}`handleTaskSubmit_emits`: every checkpoint of an execution is accepted if
  the steps are numbered upwards and the execution is not stopped with nothing to report.
- Theorem {lit}`late_deadline_checkpoint_rejected`: a resumed execution that is stopped
  at once emits a checkpoint that is rejected.
-/

namespace Igris
namespace Executor

open Concurrency

/-! ## Emitted and accepted checkpoints -/

/-- The coordinator stores the checkpoint for the task over the current one. -/
structure Acceptable (taskID : Uuid) (current : Option CheckpointPayload)
    (cp : CheckpointPayload) : Prop where
  consistent : taskCheckpointWatermarkConsistent (some cp) = true
  belongs : taskCheckpointEntriesBelongToTask (some cp) = true
  stable : taskCheckpointEntriesHaveStableIDs (some cp) = true
  ofTask : cp.taskID = taskID
  advances : taskCheckpointAdvances current (some cp) = true

/-- The coordinator stores all the checkpoints, one after the other. -/
def Accepted (taskID : Uuid) : Option CheckpointPayload → List CheckpointPayload → Prop
  | _, [] => True
  | current, cp :: cps => Acceptable taskID current cp ∧ Accepted taskID (some cp) cps

/-- The checkpoint an action sends. -/
def sentCheckpoint : Performed Action Answer → Option CheckpointPayload
  | ⟨.sendCallback callback, _⟩ =>
      match callback.body with
      | .checkpoint cp => some cp
      | _ => none
  | _ => none

def sentCheckpoints (done : List (Performed Action Answer)) : List CheckpointPayload :=
  done.filterMap sentCheckpoint

def returnedCheckpoint : RuntimeResponse → Option CheckpointPayload
  | .response body => body.checkpoint
  | .error _ _ => none

/-- The checkpoints of callbacks and the one of the answer.  An answer may repeat the
checkpoint of the last callback. -/
def withReturned (sent : List CheckpointPayload) (result : RuntimeResponse) :
    List CheckpointPayload :=
  match returnedCheckpoint result with
  | none => sent
  | some cp => if sent.getLast? = some cp then sent else sent ++ [cp]

/-- Everything an execution emits, in order. -/
def emitted (done : List (Performed Action Answer)) (result : RuntimeResponse) :
    List CheckpointPayload :=
  withReturned (sentCheckpoints done) result

/-! ## Stops with nothing to report -/

/-- The execution has to stop with a checkpoint. -/
def stopsExecution : Performed Action Answer → Bool
  | ⟨.test .deadlineExceeded, true⟩ => true
  | ⟨.executeStep _ _, .ok result⟩ => result.checkpointRequested
  | _ => false

/-- Whether a step was committed since the last checkpoint was sent, and whether any
was sent. -/
structure Delivery where
  delta : Bool := false
  delivered : Bool := false

def Delivery.track (p : Delivery) : Performed Action Answer → Delivery
  | ⟨.walWriteCommitted _ _, .ok _⟩ => { p with delta := true }
  | ⟨.sendCallback callback, _⟩ =>
      match callback.body with
      | .checkpoint _ => { delta := false, delivered := true }
      | _ => p
  | _ => p

/-- The execution is stopped only while there is a step to report, or before a fresh
execution reported anything. -/
def StopsWithDelta (fresh : Prop) : Delivery → List (Performed Action Answer) → Prop
  | _, [] => True
  | p, d :: ds =>
      (stopsExecution d = true → p.delta = true ∨ (fresh ∧ p.delivered = false)) ∧
        StopsWithDelta fresh (p.track d) ds

instance decidableStopsWithDelta (fresh : Prop) [Decidable fresh] :
    (p : Delivery) → (done : List (Performed Action Answer)) → Decidable (StopsWithDelta fresh p done)
  | _, [] => isTrue trivial
  | p, d :: ds =>
      have := decidableStopsWithDelta fresh (p.track d) ds
      inferInstanceAs (Decidable (_ ∧ StopsWithDelta fresh (p.track d) ds))

variable {taskID : Uuid} {current : Option CheckpointPayload} {cp : CheckpointPayload}
  {steps : List RuntimeTaskStep}

theorem Accepted.append {cps : List CheckpointPayload} :
    Accepted taskID current (cps ++ [cp]) ↔
      Accepted taskID current cps ∧ Acceptable taskID (cps.getLast?.or current) cp := by
  induction cps generalizing current with
  | nil => simp [Accepted]
  | cons first rest ih =>
      have hlast : (first :: rest).getLast?.or current = rest.getLast?.or (some first) := by
        cases hrest : rest.getLast? <;> simp [List.getLast?_cons, hrest]
      simp only [List.cons_append, Accepted, ih, hlast, and_assoc]

/-- An answer adds at most one checkpoint to those that were sent. -/
theorem accepted_withReturned {sent : List CheckpointPayload} {result : RuntimeResponse}
    (hsent : Accepted taskID current sent)
    (hreturned : ∀ cp, returnedCheckpoint result = some cp →
      sent.getLast? = some cp ∨ Acceptable taskID (sent.getLast?.or current) cp) :
    Accepted taskID current (withReturned sent result) := by
  unfold withReturned
  split <;> rename_i hresult
  · exact hsent
  · split <;> rename_i hlast
    · exact hsent
    · rcases hreturned _ hresult with hrepeated | hnew
      · exact absurd hrepeated hlast
      · exact Accepted.append.mpr ⟨hsent, hnew⟩

/-! ## Following what is emitted -/

/-- What was sent, and how it stands with the next report. -/
abbrev Emission := List CheckpointPayload × Delivery

def emit (g : Emission) (d : Performed Action Answer) : Emission :=
  match sentCheckpoint d with
  | none => (g.1, g.2.track d)
  | some cp => (g.1 ++ [cp], g.2.track d)

/-- The execution answers with a response that an earlier one left behind. -/
def replays : Performed Action Answer → Bool
  | ⟨.submissionRecord _ _ _, some _⟩ => true
  | _ => false

/-- The action replays nothing and stops the execution only while there is something to
report. -/
structure Admissible (fresh : Prop) (g : Emission) (d : Performed Action Answer) : Prop where
  new : replays d = false
  stops : stopsExecution d = true → g.2.delta = true ∨ (fresh ∧ g.2.delivered = false)

/-- Whatever the program emits after what was sent, the coordinator stores. -/
abbrev Emits (jsonb : TaskDefinition → TaskDefinition) (taskID : Uuid)
    (stored : Option CheckpointPayload) (p : Program RuntimeResponse) (s : State) (g : Emission) :
    Prop :=
  p.Follows (perform jsonb) emit (Admissible (stored = none))
    (fun result _ g => Accepted taskID stored (withReturned g.1 result)) s g

/-! ## Reporting -/

section Reporting

variable {jsonb : TaskDefinition → TaskDefinition} {s : State} {runtimeID : String}
  {req : RuntimeTaskRequest} {ok : Emission → Performed Action Answer → Prop}
  {stored : Option CheckpointPayload} {sent : List CheckpointPayload} {p : Delivery}
  {response : TaskSubmitResponse} {result : RuntimeResponse}

theorem sendCheckpointCallback_follows (cp : Option CheckpointPayload) :
    (sendCheckpointCallback runtimeID req cp).Follows (perform jsonb) emit ok
      (fun _ _ g => g.1 = sent ++ cp.toList) s (sent, p) := by
  cases cp with
  | none => exact (List.append_nil _).symm
  | some cp => exact fun _ _ _ _ => rfl

/-- The checkpoint that the callbacks for a response carry. -/
def reportedCheckpoint (response : TaskSubmitResponse) : Option CheckpointPayload :=
  match response.status with
  | .failed _ => none
  | _ => response.checkpoint

theorem sendLifecycleCallbacks_follows :
    (sendLifecycleCallbacksForResponse runtimeID req response).Follows (perform jsonb) emit ok
      (fun _ _ g => g.1 = sent ++ (reportedCheckpoint response).toList) s (sent, p) := by
  unfold sendLifecycleCallbacksForResponse reportedCheckpoint
  cases response.status with
  | completed =>
      refine (sendCheckpointCallback_follows _).bind ?_
      intro outcome _ g hsent
      cases outcome with
      | error err => exact hsent
      | ok _ => exact fun _ _ _ _ => hsent
  | checkpointed => exact sendCheckpointCallback_follows _
  | failed => exact fun _ _ _ _ => (List.append_nil _).symm

/-- A response whose checkpoint is acceptable may be reported.  A failure may also
repeat the checkpoint that was sent last. -/
theorem accepted_reported (hsent : Accepted req.taskID stored sent)
    (hcheckpoint : ∀ cp, response.checkpoint = some cp →
      Acceptable req.taskID (sent.getLast?.or stored) cp ∨
        (sent.getLast? = some cp ∧ reportedCheckpoint response = none))
    (hreturned : ∀ cp, returnedCheckpoint result = some cp → response.checkpoint = some cp) :
    Accepted req.taskID stored
      (withReturned (sent ++ (reportedCheckpoint response).toList) result) := by
  cases hrep : reportedCheckpoint response with
  | none =>
      rw [Option.toList_none, List.append_nil]
      apply accepted_withReturned hsent
      intro cp hcp
      rcases hcheckpoint cp (hreturned cp hcp) with hnew | ⟨hrepeated, -⟩
      · exact Or.inr hnew
      · exact Or.inl hrepeated
  | some cp =>
      have hsame : response.checkpoint = some cp := by
        unfold reportedCheckpoint at hrep
        split at hrep
        · cases hrep
        · exact hrep
      rcases hcheckpoint cp hsame with hnew | ⟨-, hnone⟩
      · apply accepted_withReturned (Accepted.append.mpr ⟨hsent, hnew⟩)
        intro cp' hcp'
        rw [hreturned cp' hcp'] at hsame
        cases hsame
        simp
      · rw [hrep] at hnone
        cases hnone

theorem respond_emits (hsent : Accepted req.taskID stored sent)
    (hcheckpoint : ∀ cp, response.checkpoint = some cp →
      Acceptable req.taskID (sent.getLast?.or stored) cp ∨
        (sent.getLast? = some cp ∧ reportedCheckpoint response = none)) :
    Emits jsonb req.taskID stored (respond runtimeID req response) s (sent, p) := by
  intro _ _ _ _
  refine sendLifecycleCallbacks_follows.bind ?_
  rintro outcome _ ⟨_, p'⟩ rfl
  cases outcome with
  | error err => exact accepted_reported hsent hcheckpoint nofun
  | ok _ => exact accepted_reported hsent hcheckpoint fun _ => id

end Reporting

/-! ## The variables of the loop -/

/-- The committed entries can be reported in a checkpoint over the current one: they
are entries of the task above the current watermark, the last completed step is the
largest of them. -/
structure Reportable (taskID : Uuid) (current : Option CheckpointPayload) (stepsCompleted : Nat)
    (entries : List WalEntry) : Prop where
  ofTask : ∀ e ∈ entries, e.taskID = taskID
  stable : ∀ e ∈ entries, e.entryID ≠ Uuid.nil
  below : ∀ e ∈ entries, e.stepIndex + 1 ≤ stepsCompleted
  top : entries ≠ [] → ∃ e ∈ entries, e.stepIndex + 1 = stepsCompleted
  above : ∀ cp, current = some cp → ∀ e ∈ entries, cp.watermark < e.stepIndex

/-- The steps that are left are numbered upwards from the completed ones, and the last
one completes the task. -/
structure Numbered (stepsTotal stepsCompleted : Nat) (steps : List RuntimeTaskStep) : Prop where
  increasing : steps.Pairwise fun a b => a.stepIndex < b.stepIndex
  ahead : ∀ step ∈ steps, stepsCompleted ≤ step.stepIndex
  bounded : ∀ step ∈ steps, step.stepIndex + 1 < u32Bound
  final : ∀ step, steps.getLast? = some step → stepsTotal ≤ step.stepIndex + 1

/-- How the variables of the loop relate to the checkpoints that were sent. -/
structure LoopInvariant (ctx : StepContext) (stored : Option CheckpointPayload)
    (sent : List CheckpointPayload) (p : Delivery) (steps : List RuntimeTaskStep)
    (st : LoopState) : Prop where
  taskID : ctx.req.taskID ≠ Uuid.nil
  accepted : Accepted ctx.req.taskID stored sent
  reportable : Reportable ctx.req.taskID (sent.getLast?.or stored) st.stepsCompleted
    st.entriesSinceCheckpoint
  numbered : Numbered ctx.stepsTotal st.stepsCompleted steps
  behind : ∀ cp, sent.getLast?.or stored = some cp → cp.watermark < st.stepsCompleted
  delta : p.delta = true → st.entriesSinceCheckpoint ≠ []
  undelivered : p.delivered = false → sent = []
  untouched : stored = none → sent = [] → st.entriesSinceCheckpoint = [] → st.stepsCompleted = 0
  checkpoint : ∀ cp, st.checkpoint = some cp →
    sent.getLast? = some cp ∨ Acceptable ctx.req.taskID (sent.getLast?.or stored) cp
  nothingLeft : steps = [] → st.entriesSinceCheckpoint = [] → st.checkpoint = none

section Loop

variable {jsonb : TaskDefinition → TaskDefinition} {s : State} {ctx : StepContext} {st : LoopState}
  {step : RuntimeTaskStep} {p : Delivery} {stored : Option CheckpointPayload}
  {sent : List CheckpointPayload} {result : RuntimeResponse}

/-- A checkpoint over the entries that were collected. -/
theorem Reportable.acceptable {stepsCompleted : Nat}
    (h : Reportable taskID current stepsCompleted cp.walEntries) (hid : taskID ≠ Uuid.nil)
    (hne : cp.walEntries ≠ []) (htask : cp.taskID = taskID)
    (hwatermark : cp.watermark = stepsCompleted - 1) : Acceptable taskID current cp := by
  rcases h.top hne with ⟨top, htop, hlast⟩
  have htopWatermark : top.stepIndex = cp.watermark := by omega
  refine ⟨?_, ?_, ?_, htask, ?_⟩
  · refine taskCheckpointWatermarkConsistent_iff.mpr ⟨?_, Or.inr ⟨top, htop, htopWatermark⟩⟩
    intro e he
    have hbelow := h.below e he
    omega
  · refine taskCheckpointEntriesBelongToTask_iff.mpr ⟨htask ▸ hid, ?_⟩
    intro e he
    rw [h.ofTask e he, htask]
  · exact taskCheckpointEntriesHaveStableIDs_iff.mpr h.stable
  · cases current with
    | none => rfl
    | some last =>
        rw [taskCheckpointAdvances_some_some, ← htopWatermark]
        exact h.above last rfl top htop

/-- The first checkpoint of a fresh execution that has done nothing. -/
theorem acceptable_of_nothing (hid : taskID ≠ Uuid.nil) (htask : cp.taskID = taskID)
    (hnil : cp.walEntries = []) (hwatermark : cp.watermark = 0) :
    Acceptable taskID none cp where
  consistent := taskCheckpointWatermarkConsistent_iff.mpr ⟨by simp [hnil], Or.inl ⟨hnil, hwatermark⟩⟩
  belongs := taskCheckpointEntriesBelongToTask_iff.mpr ⟨htask ▸ hid, by simp [hnil]⟩
  stable := taskCheckpointEntriesHaveStableIDs_iff.mpr (by simp [hnil])
  ofTask := htask
  advances := rfl

theorem buildCheckpoint_follows {ok : Emission → Performed Action Answer → Prop} {g : Emission}
    (watermark : Nat) (entries : List WalEntry) (metadata : Option String) :
    (buildCheckpoint ctx watermark entries metadata).Follows (perform jsonb) emit ok
      (fun built _ g' => g' = g ∧ ∀ cp, built = .ok cp →
        cp.taskID = ctx.req.taskID ∧ cp.watermark = watermark ∧ cp.walEntries = entries) s g := by
  intro digest _ _ _
  cases digest with
  | error err => exact ⟨rfl, nofun⟩
  | ok digest =>
      refine ⟨rfl, ?_⟩
      rintro cp ⟨⟩
      exact ⟨rfl, rfl, rfl⟩

/-- Stopping without a report. -/
theorem LoopInvariant.aborted (h : LoopInvariant ctx stored sent p steps st)
    (hresult : returnedCheckpoint result = none) :
    Accepted ctx.req.taskID stored (withReturned sent result) := by
  rw [withReturned, hresult]
  exact h.accepted

/-- Stopping with a failure. -/
theorem LoopInvariant.failed (h : LoopInvariant ctx stored sent p steps st) {reason : String}
    {details : TaskFailureDetails} :
    Emits jsonb ctx.req.taskID stored (respondFailed ctx st reason details) s (sent, p) := by
  apply respond_emits h.accepted
  intro cp hcp
  rcases h.checkpoint cp hcp with hrepeated | hnew
  · exact Or.inr ⟨hrepeated, rfl⟩
  · exact Or.inl hnew

theorem LoopInvariant.stepFailed (h : LoopInvariant ctx stored sent p steps st) {reason : String}
    {details : TaskFailureDetails} :
    Emits jsonb ctx.req.taskID stored (respondStepFailed ctx st step reason details) s (sent, p) := by
  intro artifacts _ _ _
  cases artifacts with
  | error err => exact h.failed
  | ok pair =>
      have h' : LoopInvariant ctx stored sent p steps
          { st with lastEnvelope := pair.1, lastReceipt := pair.2 } := { h with }
      exact h'.failed

/-- Stopping with a checkpoint, in time. -/
theorem LoopInvariant.checkpointed (h : LoopInvariant ctx stored sent p steps st)
    (hstop : p.delta = true ∨ (stored = none ∧ p.delivered = false)) :
    Emits jsonb ctx.req.taskID stored (respondCheckpointed ctx st) s (sent, p) := by
  refine (buildCheckpoint_follows _ _ _).bind ?_
  rintro built _ _ ⟨rfl, hbuilt⟩
  cases built with
  | error err => exact h.aborted rfl
  | ok payload =>
      rcases hbuilt payload rfl with ⟨htask, hwatermark, hentries⟩
      have hacceptable : Acceptable ctx.req.taskID (sent.getLast?.or stored) payload := by
        by_cases hnil : st.entriesSinceCheckpoint = []
        · have hfresh : stored = none ∧ p.delivered = false :=
            hstop.resolve_left fun hdelta => h.delta hdelta hnil
          have hsent := h.undelivered hfresh.2
          have hzero := h.untouched hfresh.1 hsent hnil
          rw [hsent, hfresh.1]
          exact acceptable_of_nothing h.taskID htask (hentries.trans hnil) (by omega)
        · have hreportable := h.reportable
          rw [← hentries] at hreportable hnil
          exact hreportable.acceptable h.taskID hnil htask hwatermark
      apply respond_emits h.accepted
      rintro cp ⟨⟩
      exact Or.inl hacceptable

/-! ## One step -/

/-- Before a step the execution goes on without a report, or stops. -/
theorem LoopInvariant.beforeStep (h : LoopInvariant ctx stored sent p steps st) :
    (beforeStep ctx step st).Follows (perform jsonb) emit (Admissible (stored = none))
      (fun out _ g =>
        match out with
        | none => g = (sent, p)
        | some response => Accepted ctx.req.taskID stored (withReturned g.1 response)) s (sent, p) := by
  intro enabled _ _ _
  simp only [Prog.bind_ret]
  split
  · exact h.failed.bind fun _ _ _ haccepted => haccepted
  · intro failure _ _ _
    cases failure with
    | some details => exact h.stepFailed.bind fun _ _ _ haccepted => haccepted
    | none =>
        intro canceled _ _ _
        cases canceled with
        | true => exact h.failed.bind fun _ _ _ haccepted => haccepted
        | false =>
            intro exceeded _ _ hexceeded
            cases exceeded with
            | true =>
                exact (h.checkpointed (hexceeded.stops rfl)).bind fun _ _ _ haccepted => haccepted
            | false => rfl

/-- The state of the loop after the step was committed. -/
structure Committed (taskID : Uuid) (step : RuntimeTaskStep) (st st₁ : LoopState) : Prop where
  stepsCompleted : st₁.stepsCompleted = (step.stepIndex + 1) % u32Bound
  checkpoint : st₁.checkpoint = st.checkpoint
  entries : ∃ e, st₁.entriesSinceCheckpoint = st.entriesSinceCheckpoint ++ [e] ∧
    e.taskID = taskID ∧ e.stepIndex = step.stepIndex ∧ e.entryID ≠ Uuid.nil

/-- A step is committed without a report, or the execution stops. -/
def CommittedOrStopped (ctx : StepContext) (stored : Option CheckpointPayload)
    (sent : List CheckpointPayload) (p : Delivery) (step : RuntimeTaskStep) (st : LoopState)
    (out : Except RuntimeResponse LoopState) (_ : State) (g : Emission) : Prop :=
  match out with
  | .ok st₁ => g = (sent, { p with delta := true }) ∧ Committed ctx.req.taskID step st st₁
  | .error response => Accepted ctx.req.taskID stored (withReturned g.1 response)

theorem LoopInvariant.commitStep {intent : WalEntry} {executed : Igris.StepExecutionResult}
    (h : LoopInvariant ctx stored sent p steps st) (htask : intent.taskID = ctx.req.taskID)
    (hindex : intent.stepIndex = step.stepIndex) (hid : intent.entryID ≠ Uuid.nil) :
    (commitStep step st intent executed).Follows (perform jsonb) emit (Admissible (stored = none))
      (CommittedOrStopped ctx stored sent p step st) s (sent, p) := by
  intro artifacts _ _ _
  cases artifacts with
  | error err => exact h.aborted rfl
  | ok pair =>
      intro missing _ _ _
      cases missing with
      | true => exact h.aborted rfl
      | false =>
          intro committed _ hperform _
          cases committed with
          | error err => exact h.aborted rfl
          | ok entry =>
              obtain ⟨hentryTask, hentryIndex, hentryID, -⟩ := perform_walWriteCommitted hperform
              refine ⟨rfl, rfl, rfl, entry, rfl, ?_, ?_, ?_⟩
              · rw [hentryTask, htask]
              · rw [hentryIndex, hindex]
              · rw [hentryID]
                exact hid

theorem LoopInvariant.executeAndCommit (h : LoopInvariant ctx stored sent p steps st) :
    (executeAndCommit ctx step st).Follows (perform jsonb) emit (Admissible (stored = none))
      (CommittedOrStopped ctx stored sent p step st) s (sent, p) := by
  intro intent _ hperform _
  cases intent with
  | error err => exact h.aborted rfl
  | ok intent =>
      obtain ⟨htask, hindex, hid⟩ := perform_walWriteIntent hperform
      intro executed _ _ hexecuted
      cases executed with
      | error err => exact h.stepFailed.bind fun _ _ _ haccepted => haccepted
      | ok executed =>
          intro canceled _ _ _
          cases canceled with
          | true => exact h.failed.bind fun _ _ _ haccepted => haccepted
          | false =>
              simp only [Prog.bind_ret, Bool.false_eq_true, if_false]
              split <;> rename_i hrequested
              · have h' : LoopInvariant ctx stored sent p steps
                    { st with checkpointMetadata := some executed.metadata } := { h with }
                exact (h'.checkpointed (hexecuted.stops hrequested)).bind
                  fun _ _ _ haccepted => haccepted
              · exact h.commitStep htask hindex hid

/-- The next step is ahead of everything that was reported. -/
theorem Committed.reportable {st₁ : LoopState} (hcommitted : Committed ctx.req.taskID step st st₁)
    (hreportable : Reportable ctx.req.taskID current st.stepsCompleted st.entriesSinceCheckpoint)
    (hcurrent : ∀ cp, current = some cp → cp.watermark < st.stepsCompleted)
    (hahead : st.stepsCompleted ≤ step.stepIndex)
    (hcompleted : st₁.stepsCompleted = step.stepIndex + 1) :
    Reportable ctx.req.taskID current st₁.stepsCompleted st₁.entriesSinceCheckpoint := by
  rcases hcommitted.entries with ⟨e, hentries, htask, hindex, hid⟩
  rw [hentries, hcompleted]
  refine ⟨?_, ?_, ?_, ?_, ?_⟩
  · exact List.forall_mem_append.mpr ⟨hreportable.ofTask, List.forall_mem_singleton.mpr htask⟩
  · exact List.forall_mem_append.mpr ⟨hreportable.stable, List.forall_mem_singleton.mpr hid⟩
  · refine List.forall_mem_append.mpr ⟨?_, List.forall_mem_singleton.mpr (by omega)⟩
    intro e' he'
    have hbelow := hreportable.below e' he'
    omega
  · intro _
    exact ⟨e, by simp, by omega⟩
  · intro cp hcp
    refine List.forall_mem_append.mpr ⟨hreportable.above cp hcp, List.forall_mem_singleton.mpr ?_⟩
    have hbehind := hcurrent cp hcp
    omega

/-- The invariant after a step was committed. -/
theorem LoopInvariant.committed {st₁ : LoopState}
    (h : LoopInvariant ctx stored sent p (step :: steps) st)
    (hcommitted : Committed ctx.req.taskID step st st₁) :
    LoopInvariant ctx stored sent { p with delta := true } steps st₁ ∧
      st₁.stepsCompleted = step.stepIndex + 1 ∧ st₁.entriesSinceCheckpoint ≠ [] := by
  have hahead := h.numbered.ahead step List.mem_cons_self
  have hcompleted : st₁.stepsCompleted = step.stepIndex + 1 := by
    rw [hcommitted.stepsCompleted, Nat.mod_eq_of_lt (h.numbered.bounded step List.mem_cons_self)]
  have hreportable := hcommitted.reportable h.reportable h.behind hahead hcompleted
  have hnonempty : st₁.entriesSinceCheckpoint ≠ [] := by
    rcases hcommitted.entries with ⟨e, hentries, -⟩
    simp [hentries]
  have hincreasing := List.pairwise_cons.mp h.numbered.increasing
  have hnumbered : Numbered ctx.stepsTotal st₁.stepsCompleted steps := by
    refine ⟨hincreasing.2, ?_, ?_, ?_⟩
    · intro next hnext
      have hless := hincreasing.1 next hnext
      omega
    · exact fun next hnext => h.numbered.bounded next (List.mem_cons_of_mem _ hnext)
    · intro last hlast
      apply h.numbered.final last
      rw [List.getLast?_cons, hlast]
      rfl
  refine ⟨?_, hcompleted, hnonempty⟩
  exact {
    taskID := h.taskID
    accepted := h.accepted
    reportable := hreportable
    numbered := hnumbered
    behind := fun cp hcp => by
      have hbehind := h.behind cp hcp
      omega
    delta := fun _ => hnonempty
    undelivered := h.undelivered
    untouched := fun _ _ hnil => absurd hnil hnonempty
    checkpoint := by
      rw [hcommitted.checkpoint]
      exact h.checkpoint
    nothingLeft := fun _ hnil => absurd hnil hnonempty }

theorem lt_of_shouldCheckpoint {definition : TaskDefinition}
    {startStep stepsCompleted stepsTotal : Nat}
    (h : shouldCheckpointAfterSteps definition startStep stepsCompleted stepsTotal = true) :
    stepsCompleted < stepsTotal := by
  by_contra hnot
  have hdone : stepsCompleted ≤ startStep ∨ stepsTotal ≤ stepsCompleted := by omega
  unfold shouldCheckpointAfterSteps at h
  split at h <;> simp [hdone] at h

/-- After a committed step the execution goes on, perhaps with a checkpoint that was
sent or kept, or it stops with one. -/
theorem LoopInvariant.afterStep (h : LoopInvariant ctx stored sent p steps st)
    (hcompleted : st.stepsCompleted = step.stepIndex + 1) (hne : st.entriesSinceCheckpoint ≠ [])
    (hfinal : steps = [] → ctx.stepsTotal ≤ st.stepsCompleted) :
    (afterStep ctx step st).Follows (perform jsonb) emit (Admissible (stored = none))
      (fun out _ g =>
        match out with
        | .ok st₂ => LoopInvariant ctx stored g.1 g.2 steps st₂
        | .error response => Accepted ctx.req.taskID stored (withReturned g.1 response))
      s (sent, p) := by
  have hacceptable : ∀ cp : CheckpointPayload, cp.taskID = ctx.req.taskID →
      cp.watermark = step.stepIndex → cp.walEntries = st.entriesSinceCheckpoint →
        Acceptable ctx.req.taskID (sent.getLast?.or stored) cp := by
    intro cp htask hwatermark hentries
    have hreportable := h.reportable
    rw [← hentries] at hreportable hne
    exact hreportable.acceptable h.taskID hne htask (by omega)
  unfold Executor.afterStep
  split <;> rename_i hshould
  · refine (buildCheckpoint_follows _ _ _).bind ?_
    rintro built _ _ ⟨rfl, hbuilt⟩
    cases built with
    | error err => exact h.aborted rfl
    | ok payload =>
        rcases hbuilt payload rfl with ⟨htask, hwatermark, hentries⟩
        have hpayload := hacceptable payload htask hwatermark hentries
        dsimp only
        split
        · rintro ⟨delivered, outcome⟩ _ _ _
          have haccepted : Accepted ctx.req.taskID stored (sent ++ [payload]) :=
            Accepted.append.mpr ⟨h.accepted, hpayload⟩
          cases outcome with
          | error err => exact haccepted
          | ok _ =>
              have hlastSent : (sent ++ [payload]).getLast? = some payload := by simp
              have hsteps : steps ≠ [] := fun hnil =>
                absurd (lt_of_shouldCheckpoint hshould) (by have := hfinal hnil; omega)
              exact {
                taskID := h.taskID
                accepted := haccepted
                reportable := ⟨nofun, nofun, nofun, fun hno => absurd rfl hno, fun _ _ => nofun⟩
                numbered := h.numbered
                behind := fun cp hcp => by
                  have heq : (sent ++ [payload]).getLast?.or stored = some cp := hcp
                  rw [hlastSent] at heq
                  cases heq
                  rw [hwatermark]
                  exact hcompleted ▸ Nat.lt_succ_self _
                delta := nofun
                undelivered := nofun
                untouched := fun _ hsent => absurd hsent (List.concat_ne_nil _ _)
                checkpoint := fun cp hcp => by
                  cases hcp
                  exact Or.inl hlastSent
                nothingLeft := fun hnil => absurd hnil hsteps }
        · intro _ _ _ _
          apply accepted_withReturned h.accepted
          rintro cp ⟨⟩
          exact Or.inr hpayload
  · split
    · refine (buildCheckpoint_follows _ _ _).bind ?_
      rintro built _ _ ⟨rfl, hbuilt⟩
      cases built with
      | error err => exact h
      | ok payload =>
          rcases hbuilt payload rfl with ⟨htask, hwatermark, hentries⟩
          refine { h with checkpoint := ?_, nothingLeft := ?_ }
          · rintro cp ⟨⟩
            exact Or.inr (hacceptable payload htask hwatermark hentries)
          · exact fun _ hnil => absurd hnil hne
    · exact h

/-! ## The whole loop -/

/-- The end of the loop. -/
theorem LoopInvariant.completeTask (h : LoopInvariant ctx stored sent p [] st) :
    Emits jsonb ctx.req.taskID stored (completeTask ctx st) s (sent, p) := by
  unfold Executor.completeTask
  split <;> rename_i hnil
  · apply respond_emits h.accepted
    intro cp hcp
    have hnone : st.checkpoint = none := h.nothingLeft rfl hnil
    have hsome : st.checkpoint = some cp := hcp
    rw [hnone] at hsome
    cases hsome
  · refine (buildCheckpoint_follows _ _ _).bind ?_
    rintro built _ _ ⟨rfl, hbuilt⟩
    cases built with
    | error err => exact h.aborted rfl
    | ok payload =>
        rcases hbuilt payload rfl with ⟨htask, hwatermark, hentries⟩
        have hreportable := h.reportable
        rw [← hentries] at hreportable hnil
        have hpayload := hreportable.acceptable h.taskID hnil htask hwatermark
        apply respond_emits h.accepted
        rintro cp ⟨⟩
        exact Or.inl hpayload

theorem runSteps_emits (h : LoopInvariant ctx stored sent p steps st) :
    Emits jsonb ctx.req.taskID stored (runSteps ctx steps st) s (sent, p) := by
  induction steps generalizing s st sent p with
  | nil => exact h.completeTask
  | cons step steps ih =>
      refine h.beforeStep.bind ?_
      intro stopped _ g hbefore
      cases stopped with
      | some response => exact hbefore
      | none =>
          obtain rfl : g = (sent, p) := hbefore
          refine h.executeAndCommit.bind ?_
          intro executed _ g hexecuted
          cases executed with
          | error response => exact hexecuted
          | ok st₁ =>
              obtain ⟨rfl, hcommitted⟩ := hexecuted
              rcases h.committed hcommitted with ⟨h₁, hcompleted, hne⟩
              have hfinal : steps = [] → ctx.stepsTotal ≤ st₁.stepsCompleted := by
                rintro rfl
                rw [hcompleted]
                exact h.numbered.final step rfl
              refine (h₁.afterStep hcompleted hne hfinal).bind ?_
              intro continued _ g hafter
              cases continued with
              | error response => exact hafter
              | ok st₂ => exact ih hafter

end Loop

/-! ## The whole execution -/

/-- The steps are numbered upwards, below the largest number. -/
structure NumberedUpwards (steps : List RuntimeTaskStep) : Prop where
  increasing : steps.Pairwise fun a b => a.stepIndex < b.stepIndex
  bounded : ∀ step ∈ steps, step.stepIndex + 1 < u32Bound

/-- In a list numbered upwards from {lit}`k` on, the last number counts the steps. -/
theorem length_le_of_getLast? {k : Nat} {last : RuntimeTaskStep}
    (hfirst : ∀ step ∈ steps, k ≤ step.stepIndex)
    (hincreasing : steps.Pairwise fun a b => a.stepIndex < b.stepIndex)
    (hlast : steps.getLast? = some last) : k + steps.length ≤ last.stepIndex + 1 := by
  induction steps generalizing k with
  | nil => cases hlast
  | cons step steps ih =>
      have hstep := hfirst step List.mem_cons_self
      rw [List.pairwise_cons] at hincreasing
      cases steps with
      | nil =>
          cases hlast
          simpa using hstep
      | cons next rest =>
          rw [List.getLast?_cons_cons] at hlast
          have hrest := ih (k := step.stepIndex + 1) hincreasing.1 hincreasing.2 hlast
          simp only [List.length_cons] at hrest ⊢
          omega

/-- Leaving out the completed steps does not change which one is last. -/
theorem getLast?_of_filter {startStep : Nat} {last : RuntimeTaskStep}
    (hincreasing : steps.Pairwise fun a b => a.stepIndex < b.stepIndex)
    (hlast : (steps.filter fun step => decide (startStep ≤ step.stepIndex)).getLast? = some last) :
    steps.getLast? = some last := by
  rcases List.eq_nil_or_concat steps with rfl | ⟨init, final, rfl⟩
  · cases hlast
  · rw [List.concat_eq_append] at hincreasing hlast ⊢
    have hmem := List.mem_of_getLast? hlast
    have hkept : startStep ≤ final.stepIndex := by
      rcases List.mem_filter.mp hmem with ⟨hmem, hstart⟩
      rw [decide_eq_true_eq] at hstart
      rcases List.mem_append.mp hmem with hinit | hfinal
      · have hless := (List.pairwise_append.mp hincreasing).2.2 last hinit final (by simp)
        omega
      · rw [List.mem_singleton] at hfinal
        rwa [← hfinal]
    rw [List.filter_append, List.filter_cons_of_pos (by simpa using hkept)] at hlast
    simpa using hlast

theorem NumberedUpwards.numbered (h : NumberedUpwards steps) (startStep : Nat) :
    Numbered (steps.length % u32Bound) startStep
      (steps.filter fun step => decide (startStep ≤ step.stepIndex)) where
  increasing := h.increasing.filter _
  ahead := fun step hstep => by simpa using (List.mem_filter.mp hstep).2
  bounded := fun step hstep => h.bounded step (List.mem_filter.mp hstep).1
  final := fun last hlast => by
    have hlength := length_le_of_getLast? (k := 0) (fun _ _ => Nat.zero_le _) h.increasing
      (getLast?_of_filter h.increasing hlast)
    have hmod := Nat.mod_le steps.length u32Bound
    omega

theorem emit_of_searches {a : Action} (answer : Answer a) (g : Emission) (h : searches a = true) :
    emit g ⟨a, answer⟩ = g := by
  cases a with
  | walCommittedState | walValidateExternal | walImportEntries => rfl
  | _ => cases h

/-- What an execution emits, followed from its actions. -/
theorem foldl_emit (done : List (Performed Action Answer)) (g : Emission) :
    (done.foldl emit g).1 = g.1 ++ sentCheckpoints done := by
  induction done generalizing g with
  | nil => exact (List.append_nil _).symm
  | cons d ds ih =>
      rw [List.foldl_cons, ih, sentCheckpoints, sentCheckpoints, List.filterMap_cons, emit]
      cases sentCheckpoint d with
      | none => rfl
      | some cp => exact List.append_assoc _ _ _

theorem emit_delivery (g : Emission) (d : Performed Action Answer) :
    (emit g d).2 = g.2.track d := by
  unfold emit
  cases sentCheckpoint d <;> rfl

theorem admitted_of_stops {fresh : Prop} {done : List (Performed Action Answer)} {g : Emission}
    (hnew : ∀ d ∈ done, replays d = false)
    (hstops : StopsWithDelta fresh g.2 done) :
    Prog.Admitted emit (Admissible fresh) g done := by
  induction done generalizing g with
  | nil => trivial
  | cons d ds ih =>
      rw [List.forall_mem_cons] at hnew
      refine ⟨⟨hnew.1, hstops.1⟩, ih hnew.2 ?_⟩
      rw [emit_delivery]
      exact hstops.2

section Execution

variable {jsonb : TaskDefinition → TaskDefinition} {s s' : State} {runtimeID : String}
  {req : RuntimeTaskRequest} {nodes : List GraphNode} {done : List (Performed Action Answer)}
  {stored : Option CheckpointPayload} {result : RuntimeResponse}

/-- The request resumes from the checkpoint that is stored. -/
structure ResumesFrom (req : RuntimeTaskRequest) (stored : Option CheckpointPayload) : Prop where
  token : stored.map CheckpointPayload.watermark = req.resumeFrom.map ResumeToken.lastCommittedStep
  bounded : ∀ cp, stored = some cp → cp.watermark < Store.stepIndexBound

theorem ResumesFrom.fresh_iff (h : ResumesFrom req stored) :
    stored = none ↔ req.resumeFrom = none := by
  have htoken := h.token
  cases stored <;> cases hresume : req.resumeFrom <;> simp_all

theorem ResumesFrom.resumePoint_eq (h : ResumesFrom req stored) :
    resumePoint req = (stored.map fun cp => cp.watermark + 1).getD 0 := by
  have htoken := h.token
  unfold resumePoint
  cases hstored : stored with
  | none =>
      rw [h.fresh_iff.mp hstored]
      rfl
  | some cp =>
      cases hresume : req.resumeFrom with
      | none => simp [hstored, hresume] at htoken
      | some token =>
          have hbound := h.bounded cp hstored
          have hsame : cp.watermark = token.lastCommittedStep := by
            simpa [hstored, hresume] using htoken
          simp only [Option.map_some, Option.getD_some, ← hsame]
          apply Nat.mod_eq_of_lt
          unfold u32Bound
          unfold Store.stepIndexBound at hbound
          omega

theorem executeTask_emits (hid : req.taskID ≠ Uuid.nil)
    (hgraph : materializeExecutionGraph req.taskDefinition = some nodes)
    (hnumbered : NumberedUpwards (compileExecutionGraphToSteps nodes))
    (hstored : ResumesFrom req stored) :
    Emits jsonb req.taskID stored (executeTask runtimeID req (resumePoint req)) s ([], {}) := by
  unfold executeTask
  rw [hgraph]
  have hpoint := hstored.resumePoint_eq
  have hinit : LoopInvariant (stepContext runtimeID req (resumePoint req)
      (compileExecutionGraphToSteps nodes)) stored [] {}
      ((compileExecutionGraphToSteps nodes).filter fun step =>
        decide (resumePoint req ≤ step.stepIndex)) { stepsCompleted := resumePoint req } := by
    refine ⟨hid, trivial, ⟨nofun, nofun, nofun, fun hno => absurd rfl hno, fun _ _ => nofun⟩,
      hnumbered.numbered _, ?_, nofun, fun _ => rfl, ?_, nofun, fun _ _ => rfl⟩
    · intro cp hcp
      have hsome : stored = some cp := hcp
      rw [hpoint, hsome]
      exact Nat.lt_succ_self _
    · intro hnone _ _
      rw [hpoint, hnone]
      rfl
  exact runSteps_emits hinit

theorem handleTaskSubmit_follows (hid : req.taskID ≠ Uuid.nil)
    (hgraph : materializeExecutionGraph req.taskDefinition = some nodes)
    (hnumbered : NumberedUpwards (compileExecutionGraphToSteps nodes))
    (hstored : ResumesFrom req stored) :
    Emits jsonb req.taskID stored (handleTaskSubmit runtimeID req) s ([], {}) := by
  unfold handleTaskSubmit
  split
  · trivial
  · intro idle _ _ _
    cases idle with
    | true => trivial
    | false =>
        intro recorded _ _ hrecorded
        cases recorded with
        | some response => cases hrecorded.new
        | none =>
            simp only [Prog.bind_ret]
            unfold acceptRequest
            split
            · trivial
            · intro rejected _ _ _
              cases rejected with
              | true => trivial
              | false =>
                  refine (verifiedStart_guarded.follows (J := fun _ g => g = ([], {})) rfl ?_).bind ?_
                  · rintro a answer _ _ _ ha - rfl
                    exact emit_of_searches answer _ ha
                  rintro start _ _ ⟨rfl, hstart⟩
                  cases start with
                  | error response =>
                      obtain ⟨status, errorType, rfl⟩ := hstart
                      trivial
                  | ok startStep =>
                      obtain rfl : startStep = resumePoint req := hstart
                      exact executeTask_emits hid hgraph hnumbered hstored

/-- Every checkpoint of an execution is accepted, if the execution is new, its steps
are numbered upwards and it is stopped only while there is a step to report. -/
theorem handleTaskSubmit_emits (hid : req.taskID ≠ Uuid.nil)
    (hgraph : materializeExecutionGraph req.taskDefinition = some nodes)
    (hnumbered : NumberedUpwards (compileExecutionGraphToSteps nodes))
    (hstored : ResumesFrom req stored) (hnew : ∀ d ∈ done, replays d = false)
    (hstops : StopsWithDelta (req.resumeFrom = none) {} done)
    (hexec : Exec (perform jsonb) (handleTaskSubmit runtimeID req) s done result s') :
    Accepted req.taskID stored (emitted done result) := by
  rw [← hstored.fresh_iff] at hstops
  have hadmitted : Prog.Admitted emit (Admissible (stored = none)) ([], {}) done :=
    admitted_of_stops hnew hstops
  rw [emitted, ← List.nil_append (sentCheckpoints done), ← foldl_emit done ([], {})]
  exact hexec.follows (handleTaskSubmit_follows hid hgraph hnumbered hstored) hadmitted

end Execution

/-! ## A resumed execution -/

/-- Three steps, with a checkpoint after the second one. -/
def reportDefinition : TaskDefinition where
  text := ""
  taskType := .executionGraph
  graphNodes := [⟨.tool, "fetch", none, "", "", {}, ""⟩, ⟨.tool, "merge", none, "", "", {}, ""⟩,
    ⟨.tool, "send", none, "", "", {}, ""⟩]
  checkpointAfterSteps := some 2
  continueAfterCheckpoint := true

/-- The first step was executed and its checkpoint is stored. -/
def firstCheckpoint : CheckpointPayload where
  taskID := 7
  resumeToken := ⟨0, "", "runtime-a"⟩
  walEntries := [⟨1, 7, 0, "", "Committed", "", some "", 0, "runtime-a", none⟩]

/-- The first two steps were executed. -/
def secondCheckpoint : CheckpointPayload where
  taskID := 7
  resumeToken := ⟨1, "", "runtime-a"⟩
  walEntries := [⟨1, 7, 0, "", "Committed", "", some "", 0, "runtime-a", none⟩,
    ⟨2, 7, 1, "", "Committed", "", some "", 0, "runtime-a", none⟩]

def resumeRequest (cp : CheckpointPayload) : RuntimeTaskRequest where
  taskID := 7
  tenantID := "acme"
  endpoint := "https://b"
  taskDefinition := reportDefinition
  idempotencyKey := "order-1"
  resumeFrom := some cp.resumeToken
  resumeCheckpoint := some cp

/-- The log of the runtime confirms the token of the checkpoint; the deadline may have
passed. -/
def resumed (cp : CheckpointPayload) (late : Bool) : (a : Action) → State → Option (Answer a)
  | .walCommittedState _, _ => some (.ok (some cp.watermark, cp.resumeToken.checkpointDigest))
  | .test .deadlineExceeded, _ => some late
  | a, s => smoothly ⟨"runtime-b", "https://b"⟩ a s

/-- The deadline has passed before a resumed execution commits a step.  It stops with a
checkpoint that has a watermark but no entries and is not ahead of the stored one. -/
theorem late_deadline_checkpoint_rejected :
    ResumesFrom (resumeRequest secondCheckpoint) (some secondCheckpoint) ∧
      ∃ done result s', Exec (perform id) (handleTaskSubmit "runtime-b"
          (resumeRequest secondCheckpoint)) ⟨Store.empty, []⟩ done result s' ∧
        ∃ cp ∈ emitted done result, taskCheckpointWatermarkConsistent (some cp) = false ∧
          taskCheckpointAdvances (some secondCheckpoint) (some cp) = false := by
  have hrun : ((handleTaskSubmit "runtime-b" (resumeRequest secondCheckpoint)).run (perform id)
      (resumed secondCheckpoint true) ⟨Store.empty, []⟩).any (fun out =>
        (emitted out.1 out.2.1).any fun cp => !taskCheckpointWatermarkConsistent (some cp) &&
          !taskCheckpointAdvances (some secondCheckpoint) (some cp)) = true := by
    decide +kernel
  rcases exists_exec_of_run hrun with ⟨done, result, s', hexec, hcheck⟩
  simp only [List.any_eq_true, Bool.and_eq_true, Bool.not_eq_true'] at hcheck
  refine ⟨⟨rfl, ?_⟩, done, result, s', hexec, hcheck⟩
  rintro cp ⟨⟩
  decide

/-- The same definition resumed in time: the checkpoints after the second and the third
step are both accepted. -/
theorem handleTaskSubmit_emits_resumed :
    ∃ done result s', Exec (perform id) (handleTaskSubmit "runtime-b"
        (resumeRequest firstCheckpoint)) ⟨Store.empty, []⟩ done result s' ∧
      (emitted done result).map CheckpointPayload.watermark = [1, 2] ∧
      Accepted 7 (some firstCheckpoint) (emitted done result) := by
  have hrun : ((handleTaskSubmit "runtime-b" (resumeRequest firstCheckpoint)).run (perform id)
      (resumed firstCheckpoint false) ⟨Store.empty, []⟩).any (fun out =>
        decide ((emitted out.1 out.2.1).map CheckpointPayload.watermark = [1, 2]) &&
        (out.1.all fun d => !replays d) &&
        decide (StopsWithDelta ((resumeRequest firstCheckpoint).resumeFrom = none) {} out.1)) =
          true := by
    decide +kernel
  rcases exists_exec_of_run hrun with ⟨done, result, s', hexec, hcheck⟩
  simp only [Bool.and_eq_true, decide_eq_true_eq, List.all_eq_true, Bool.not_eq_true'] at hcheck
  rcases hcheck with ⟨⟨hwatermarks, hnew⟩, hstops⟩
  have hstored : ResumesFrom (resumeRequest firstCheckpoint) (some firstCheckpoint) := by
    refine ⟨rfl, ?_⟩
    rintro cp ⟨⟩
    decide
  have hnumbered : NumberedUpwards (compileExecutionGraphToSteps reportDefinition.graphNodes) :=
    ⟨by decide, by decide⟩
  exact ⟨done, result, s', hexec, hwatermarks,
    handleTaskSubmit_emits (by decide) rfl hnumbered hstored hnew hstops hexec⟩

end Executor
end Igris
