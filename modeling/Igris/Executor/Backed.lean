import Igris.Executor.Emission
import Igris.Executor.Local

/-!
# Checkpoints backed by the log

The digest of a checkpoint is computed over the log of the runtime that executed the
steps.  A checkpoint is backed if its entries are committed entries of that log and its
digest covers all entries up to its watermark.  An execution keeps every checkpoint
backed as long as each commit continues the committed steps of the task and behavior
trees leave nothing in the log.

Main results:

- Theorem {lit}`runSteps_meets`: the step loop keeps its collected entries and its
  checkpoint backed.
- Theorem {lit}`handleTaskSubmit_meets`: an execution, whether it returns or is cut off,
  keeps every checkpoint backed by the log.
-/

namespace Igris
namespace Executor

open Concurrency Relational Program

/-! ## Orderly executions -/

/-- The runtime gave out the checkpoint, or keeps it in a recorded response. -/
def RuntimeState.Holds (s : RuntimeState) (cp : CheckpointPayload) : Prop :=
  cp ∈ s.sent ∨ ∃ record ∈ s.submissions.rows, record.response.checkpoint = some cp

/-- Steps are committed once and in order, and behavior trees leave nothing behind. -/
def Orderly (env : Environment) (s : RuntimeState) : (a : Action) → Answer a → Prop
  | .walWriteCommitted intent _, (answer : Except String WalEntry) =>
      match answer with
      | .ok reported =>
          (Wal.committedEntries s.log intent.taskID).map (fun entry => entry.stepIndex.toNat) =
            List.range reported.stepIndex
      | .error _ => True
  | .executeStep req step, _ => step.node.kind = .behaviorTree → env.ticks req s.log = []
  | .executeBehaviorTree req, (answer : Except String BehaviorTreeResult) =>
      env.ticks req s.log = [] ∧
        match answer with
        | .ok bt => bt.checkpoint = none
        | .error _ => True
  | _, _ => True

instance (env : Environment) (s : RuntimeState) (a : Action) (answer : Answer a) :
    Decidable (Orderly env s a answer) := by
  cases a with
  | walWriteCommitted | executeBehaviorTree =>
      cases answer <;> dsimp only [Orderly] <;> infer_instance
  | _ => dsimp only [Orderly]; infer_instance

/-! ## Checkpoints that the log backs -/

section Backed

variable {sha256 : List UInt8 → Wal.Digest} {entries entries' : List Wal.Entry}
  {cp : CheckpointPayload}

/-- The entry is in the log and can be handed over. -/
def Reported (entries : List Wal.Entry) (e : WalEntry) : Prop :=
  ∃ entry ∈ entries, entry.Portable ∧ e = entry.report

/-- The first committed entries are those of the first steps. -/
def StepsTo (entries : List Wal.Entry) (n : Nat) : Prop :=
  (entries.take n).map (fun entry => entry.stepIndex.toNat) = List.range n

/-- The digest over the first committed entries, as it is reported. -/
def digestOf (sha256 : List UInt8 → Wal.Digest) (entries : List Wal.Entry) : String :=
  Text.hexEncode (sha256 (entries.flatMap Wal.Entry.outputBytes)).1

/-- The entries of a checkpoint are among the committed ones up to its watermark, and
its digest is the one over all of these. -/
def Backed (sha256 : List UInt8 → Wal.Digest) (entries : List Wal.Entry)
    (cp : CheckpointPayload) : Prop :=
  cp.walEntries ≠ [] → taskCheckpointWatermarkConsistent (some cp) = true →
    StepsTo entries (cp.watermark + 1) ∧
      cp.resumeToken.checkpointDigest = digestOf sha256 (entries.take (cp.watermark + 1)) ∧
      ∀ e ∈ cp.walEntries, Reported (entries.take (cp.watermark + 1)) e

theorem StepsTo.le_length {n : Nat} (h : StepsTo entries n) : n ≤ entries.length := by
  have hlength := congrArg List.length h
  simp only [List.length_map, List.length_take, List.length_range] at hlength
  omega

theorem take_of_prefix {n : Nat} (h : entries <+: entries') (hn : n ≤ entries.length) :
    entries'.take n = entries.take n := by
  obtain ⟨rest, rfl⟩ := h
  exact List.take_append_of_le_length hn

theorem Reported.mono {e : WalEntry} (h : Reported entries e) (hentries : entries <+: entries') :
    Reported entries' e := by
  obtain ⟨entry, hmem, hreport⟩ := h
  exact ⟨entry, hentries.subset hmem, hreport⟩

/-- A log that grows at its end still backs the checkpoint. -/
theorem Backed.mono (h : Backed sha256 entries cp) (hentries : entries <+: entries') :
    Backed sha256 entries' cp := by
  intro hne hconsistent
  obtain ⟨hsteps, hdigest, hreported⟩ := h hne hconsistent
  have htake := take_of_prefix hentries hsteps.le_length
  unfold StepsTo at hsteps ⊢
  rw [htake]
  exact ⟨hsteps, hdigest, hreported⟩

end Backed

/-- Every checkpoint of the task that the runtime holds is backed by its log. -/
def Sound (env : Environment) (taskID : Uuid) (s : RuntimeState) : Prop :=
  ∀ cp, cp.taskID = taskID → s.Holds cp →
    Backed env.sha256 (Wal.committedEntries s.log taskID) cp

/-- Between two commits: the committed entries are these, and every checkpoint is backed. -/
structure At (env : Environment) (taskID : Uuid) (entries : List Wal.Entry) (s : RuntimeState) :
    Prop where
  entries : Wal.committedEntries s.log taskID = entries
  sound : Sound env taskID s

/-! ## Callbacks and responses -/

section Respond

variable {env : Environment} {taskID : Uuid} {entries : List Wal.Entry} {s s' : RuntimeState}
  {runtimeID : String} {req : RuntimeTaskRequest} {response : TaskSubmitResponse}

/-- The program keeps every checkpoint of the task backed, whether it returns or is cut
off, and returns as stated. -/
abbrev Keeps {α : Type} (env : Environment) (taskID : Uuid) (p : Program α)
    (post : α → RuntimeState → Prop) (s : RuntimeState) : Prop :=
  p.Meets (performLocal env) (Orderly env) (Sound env taskID) post s

/-- The answer is about the task only what the log backs. -/
def Answered (env : Environment) (taskID : Uuid) (result : RuntimeResponse) (s : RuntimeState) :
    Prop :=
  Sound env taskID s ∧ ∀ cp, returnedCheckpoint result = some cp → cp.taskID = taskID →
    Backed env.sha256 (Wal.committedEntries s.log taskID) cp

/-- Every checkpoint of the task in the response is backed. -/
def BackedResponse (env : Environment) (taskID : Uuid) (entries : List Wal.Entry)
    (checkpoint : Option CheckpointPayload) : Prop :=
  ∀ cp, checkpoint = some cp → cp.taskID = taskID → Backed env.sha256 entries cp

theorem backedResponse_none : BackedResponse env taskID entries none :=
  nofun

/-- A longer log and new checkpoints that it backs. -/
theorem Sound.extend (h : Sound env taskID s)
    (hentries : Wal.committedEntries s.log taskID <+: Wal.committedEntries s'.log taskID)
    (hholds : ∀ cp, cp.taskID = taskID → s'.Holds cp →
      s.Holds cp ∨ Backed env.sha256 (Wal.committedEntries s'.log taskID) cp) :
    Sound env taskID s' := by
  intro cp htask hcp
  obtain hold | hnew := hholds cp htask hcp
  · exact (h cp htask hold).mono hentries
  · exact hnew

theorem answered_error (h : Sound env taskID s) (status : Nat) (errorType : String) :
    Answered env taskID (.error status errorType) s :=
  ⟨h, nofun⟩

theorem persistRecord_meets (hat : At env taskID entries s)
    (hbacked : BackedResponse env taskID entries response.checkpoint) :
    Keeps env taskID (persistRecord req response) (fun _ => At env taskID entries) s := by
  intro answer s₁ hstep _
  have hat₁ : At env taskID entries s₁ := by
    cases answer with
    | error err =>
        cases hstep
        exact hat
    | ok _ =>
        cases hstep
        refine ⟨hat.entries, hat.sound.extend (List.prefix_refl _) ?_⟩
        intro cp htask hcp
        obtain hsent | ⟨record, hrecord, hcheckpoint⟩ := hcp
        · exact Or.inl (Or.inl hsent)
        · obtain rfl | ⟨hold, -⟩ := Table.mem_put.mp hrecord
          · have hlog : Wal.committedEntries s.log taskID = entries := hat.entries
            exact Or.inr (hlog ▸ hbacked cp hcheckpoint htask)
          · exact Or.inl (Or.inr ⟨record, hold, hcheckpoint⟩)
  exact ⟨hat₁.sound, hat₁⟩

theorem sendRuntimeCallback_meets {body : CallbackBody} (hat : At env taskID entries s)
    (hbacked : ∀ cp, body = .checkpoint cp → cp.taskID = taskID → Backed env.sha256 entries cp) :
    Keeps env taskID (sendRuntimeCallback runtimeID req body)
      (fun _ => At env taskID entries) s := by
  intro answer s₁ hstep _
  have hat₁ : At env taskID entries s₁ := by
    cases body with
    | checkpoint cp =>
        cases hstep
        refine ⟨hat.entries, hat.sound.extend (List.prefix_refl _) ?_⟩
        intro cp' htask hcp
        obtain hsent | hrecord := hcp
        · simp only [List.mem_append, List.mem_singleton] at hsent
          obtain hsent | rfl := hsent
          · exact Or.inl (Or.inl hsent)
          · have hlog : Wal.committedEntries s.log taskID = entries := hat.entries
            exact Or.inr (hlog ▸ hbacked cp' rfl htask)
        · exact Or.inl (Or.inr hrecord)
    | _ =>
        cases hstep
        exact hat
  exact ⟨hat₁.sound, hat₁⟩

theorem sendCheckpointCallback_meets {checkpoint : Option CheckpointPayload}
    (hat : At env taskID entries s) (hbacked : BackedResponse env taskID entries checkpoint) :
    Keeps env taskID (sendCheckpointCallback runtimeID req checkpoint)
      (fun _ => At env taskID entries) s := by
  cases checkpoint with
  | none => exact hat
  | some cp =>
      apply sendRuntimeCallback_meets hat
      rintro _ ⟨⟩ htask
      exact hbacked cp rfl htask

theorem sendLifecycleCallbacks_meets (hat : At env taskID entries s)
    (hbacked : BackedResponse env taskID entries response.checkpoint) :
    Keeps env taskID (sendLifecycleCallbacksForResponse runtimeID req response)
      (fun _ => At env taskID entries) s := by
  unfold sendLifecycleCallbacksForResponse
  split
  · apply (sendCheckpointCallback_meets hat hbacked).bind
    intro sent s₁ hat₁
    cases sent with
    | error err => exact hat₁
    | ok _ => exact sendRuntimeCallback_meets hat₁ nofun
  · exact sendCheckpointCallback_meets hat hbacked
  · exact sendRuntimeCallback_meets hat nofun

theorem At.answered (hat : At env taskID entries s)
    (hbacked : BackedResponse env taskID entries response.checkpoint) :
    Answered env taskID (.response response) s := by
  refine ⟨hat.sound, ?_⟩
  rw [hat.entries]
  exact hbacked

theorem respond_meets (hat : At env taskID entries s)
    (hbacked : BackedResponse env taskID entries response.checkpoint) :
    Keeps env taskID (respond runtimeID req response) (Answered env taskID) s := by
  apply (persistRecord_meets hat hbacked).bind
  intro _ s₁ hat₁
  apply (sendLifecycleCallbacks_meets hat₁ hbacked).bind
  intro sent s₂ hat₂
  cases sent with
  | error err => exact answered_error hat₂.sound _ _
  | ok _ => exact hat₂.answered hbacked

end Respond

/-! ## The step loop -/

/-- The entries collected since the last checkpoint are in the log, and the last of
them ends it. -/
structure LoopBacked (env : Environment) (taskID : Uuid) (entries : List Wal.Entry)
    (st : LoopState) : Prop where
  reported : ∀ e ∈ st.entriesSinceCheckpoint, Reported entries e
  steps : st.entriesSinceCheckpoint ≠ [] → StepsTo entries entries.length ∧
    st.stepsCompleted = entries.length % u32Bound ∧
    ∃ e ∈ st.entriesSinceCheckpoint, e.stepIndex + 1 = entries.length
  checkpoint : BackedResponse env taskID entries st.checkpoint

section Loop

variable {env : Environment} {entries : List Wal.Entry} {s : RuntimeState} {ctx : StepContext}
  {st : LoopState} {step : RuntimeTaskStep}

/-- A checkpoint over the collected entries and the whole log is backed. -/
theorem LoopBacked.backed {taskID : Uuid} {cp : CheckpointPayload}
    (h : LoopBacked env taskID entries st) (hentries : cp.walEntries = st.entriesSinceCheckpoint)
    (hwatermark : cp.watermark = st.stepsCompleted - 1 ∨ cp.watermark + 1 = entries.length)
    (hdigest : cp.resumeToken.checkpointDigest = digestOf env.sha256 entries) :
    Backed env.sha256 entries cp := by
  intro hne hconsistent
  rw [hentries] at hne
  obtain ⟨hsteps, hcompleted, last, hlast, hlength⟩ := h.steps hne
  have hle : last.stepIndex ≤ cp.watermark :=
    (taskCheckpointWatermarkConsistent_iff.mp hconsistent).1 last (hentries ▸ hlast)
  have hbound : last.stepIndex < u32Bound := by
    obtain ⟨entry, -, -, rfl⟩ := h.reported last hlast
    exact entry.stepIndex.toNat_lt
  have hend : cp.watermark + 1 = entries.length := by
    obtain hwatermark | hwatermark := hwatermark
    · -- were the counter wrapped around, the watermark would lie before the last entry
      by_cases hwrap : entries.length = u32Bound
      · rw [hwrap, Nat.mod_self] at hcompleted
        have hpos : 1 < u32Bound := by decide
        omega
      · have hmod : entries.length % u32Bound = entries.length := Nat.mod_eq_of_lt (by omega)
        omega
    · exact hwatermark
  rw [hend, List.take_length, hentries]
  exact ⟨hsteps, hdigest, h.reported⟩

variable (hat : At env ctx.req.taskID entries s)
  (hloop : LoopBacked env ctx.req.taskID entries st)
include hat hloop

theorem buildCheckpoint_meets {n : Nat} {metadata : Option String}
    (hn : n = st.stepsCompleted - 1 ∨ n + 1 = entries.length) :
    Keeps env ctx.req.taskID (buildCheckpoint ctx n st.entriesSinceCheckpoint metadata)
      (fun built s' => At env ctx.req.taskID entries s' ∧
        ∀ payload, built = .ok payload → Backed env.sha256 entries payload) s := by
  apply meets_read rfl hat.sound
  intro answer hanswer
  cases answer with
  | error err => exact ⟨hat, nofun⟩
  | ok digest =>
      refine ⟨hat, ?_⟩
      rintro _ ⟨⟩
      apply hloop.backed rfl hn
      simp only [performLocal, Option.ite_none_right_eq_some] at hanswer
      rw [hanswer.1, RuntimeState.committedState, Wal.committedState_eq, digestOf, ← hat.entries]

theorem respondFailed_meets {reason : String} {details : TaskFailureDetails} :
    Keeps env ctx.req.taskID (respondFailed ctx st reason details)
      (Answered env ctx.req.taskID) s :=
  respond_meets hat hloop.checkpoint

theorem respondStepFailed_meets {reason : String} {details : TaskFailureDetails} :
    Keeps env ctx.req.taskID (respondStepFailed ctx st step reason details)
      (Answered env ctx.req.taskID) s := by
  apply meets_read rfl hat.sound
  intro answer _
  cases answer with
  | error err => exact respondFailed_meets hat hloop
  | ok artifacts => exact respond_meets hat hloop.checkpoint

theorem respondCheckpointed_meets :
    Keeps env ctx.req.taskID (respondCheckpointed ctx st) (Answered env ctx.req.taskID) s := by
  apply (buildCheckpoint_meets hat hloop (Or.inl rfl)).bind
  rintro built s₁ ⟨hat₁, hbuilt⟩
  cases built with
  | error err => exact answered_error hat₁.sound _ _
  | ok payload =>
      apply respond_meets hat₁
      rintro _ ⟨⟩ _
      exact hbuilt payload rfl

/-- Before a step the loop either stops with an answer or goes on unchanged. -/
theorem beforeStep_meets :
    Keeps env ctx.req.taskID (beforeStep ctx step st)
      (fun stopped s' =>
        match stopped with
        | some response => Answered env ctx.req.taskID response s'
        | none => At env ctx.req.taskID entries s') s := by
  apply meets_read rfl hat.sound
  intro enabled _
  simp only [Prog.bind_ret]
  split
  · exact (respondFailed_meets hat hloop).bind fun _ _ h => h
  · apply meets_read rfl hat.sound
    intro failure _
    cases failure with
    | some details => exact (respondStepFailed_meets hat hloop).bind fun _ _ h => h
    | none =>
        apply meets_read rfl hat.sound
        intro canceled _
        simp only [Prog.bind_ret]
        split
        · exact (respondFailed_meets hat hloop).bind fun _ _ h => h
        · apply meets_read rfl hat.sound
          intro exceeded _
          simp only [Prog.bind_ret]
          split
          · exact (respondCheckpointed_meets hat hloop).bind fun _ _ h => h
          · exact hat

end Loop

/-! ## Committing a step -/

section Commit

variable {env : Environment} {taskID : Uuid} {entries : List Wal.Entry} {s s' : RuntimeState}
  {entry : Wal.Entry} {intent reported : WalEntry} {outputDigest : String}

/-- An intent does not change the committed entries. -/
theorem At.writeIntent (hat : At env taskID entries s) (hfree : s.log.get entry.key = none)
    (hstatus : entry.status = .intent) :
    At env taskID entries { s with log := s.log.put entry } := by
  have hsame : Wal.committedEntries (s.log.put entry) taskID = Wal.committedEntries s.log taskID := by
    apply Wal.committedEntries_put_other
    · simp [hfree]
    · simp [hstatus]
  refine ⟨hsame.trans hat.entries, hat.sound.extend ?_ fun cp _ hcp => Or.inl hcp⟩
  rw [hsame]

/-- A commit in order appends one entry. -/
theorem At.writeCommitted (hat : At env intent.taskID entries s)
    (hcommit : s.writeCommitted intent outputDigest reported = some s')
    (hget : s.log.get (intent.taskID, intent.entryID) = some entry)
    (horder : entries.map (fun entry => entry.stepIndex.toNat) = List.range reported.stepIndex) :
    ∃ committed : Wal.Entry, reported = committed.report ∧ committed.Portable ∧
      committed.stepIndex = entry.stepIndex ∧
      At env intent.taskID (entries ++ [committed]) s' := by
  obtain ⟨old, digest, timestampMs, signature, hold, hsigned, rfl, rfl⟩ :=
    writeCommitted_eq_some hcommit
  obtain rfl : entry = old := Option.some.inj (hget.symm.trans hold)
  set committed := entry.commit digest timestampMs signature with hcommitted
  have hkey : entry.key = (intent.taskID, intent.entryID) := Table.key_of_get hget
  have htask : committed.taskID = intent.taskID := congrArg Prod.fst hkey
  have hbefore : ∀ e ∈ entries, e.stepIndex.toNat < entry.stepIndex.toNat := by
    intro e he
    have hrange : e.stepIndex.toNat ∈ List.range entry.stepIndex.toNat := by
      have hmap := List.mem_map_of_mem (f := fun entry : Wal.Entry => entry.stepIndex.toNat) he
      rwa [horder] at hmap
    exact List.mem_range.mp hrange
  have hput : Wal.committedEntries (s.log.put committed) intent.taskID = entries ++ [committed] := by
    rw [← hat.entries, ← htask]
    apply Wal.committedEntries_put _ rfl
    · intro e he
      rw [UInt32.lt_iff_toNat_lt]
      apply hbefore
      rwa [← hat.entries, ← htask]
    · intro old hold hstatus
      -- a committed entry for this step would be one of the earlier ones
      obtain rfl : entry = old := Option.some.inj (hget.symm.trans (hkey ▸ hold))
      have hmem : entry ∈ entries := by
        rw [← hat.entries]
        exact Wal.mem_committedEntries.mpr ⟨Table.mem_of_get hget, htask, hstatus⟩
      exact (hbefore entry hmem).false
  refine ⟨_, rfl, ⟨rfl, rfl, ?_⟩, rfl, hput, hat.sound.extend ?_ fun cp _ hcp => Or.inl hcp⟩
  · rintro _ ⟨⟩
    simp [hsigned]
  · rw [hput, hat.entries]
    exact List.prefix_append _ _

theorem stepsTo_append (committed : Wal.Entry)
    (horder : entries.map (fun entry => entry.stepIndex.toNat) =
      List.range committed.stepIndex.toNat) :
    StepsTo (entries ++ [committed]) (entries ++ [committed]).length ∧
      (entries ++ [committed]).length = committed.stepIndex.toNat + 1 := by
  have hlength : entries.length = committed.stepIndex.toNat := by
    simpa using congrArg List.length horder
  refine ⟨?_, by simp [hlength]⟩
  rw [StepsTo, List.take_length, List.map_append, horder, List.length_append, hlength,
    List.length_singleton, List.range_succ, List.map_singleton]

variable {ctx : StepContext} {st : LoopState} {step : RuntimeTaskStep}

/-- After a step is committed its entry ends the log. -/
def AfterCommit (env : Environment) (taskID : Uuid) (step : RuntimeTaskStep)
    (result : Except RuntimeResponse LoopState) (s : RuntimeState) : Prop :=
  match result with
  | .error response => Answered env taskID response s
  | .ok st => ∃ entries, At env taskID entries s ∧ LoopBacked env taskID entries st ∧
      entries.length = step.stepIndex + 1

theorem commitStep_meets {result : Igris.StepExecutionResult} (hat : At env intent.taskID entries s)
    (hloop : LoopBacked env intent.taskID entries st)
    (hget : s.log.get (intent.taskID, intent.entryID) = some entry)
    (hstep : entry.stepIndex.toNat = step.stepIndex) :
    Keeps env intent.taskID (commitStep step st intent result)
      (AfterCommit env intent.taskID step) s := by
  apply meets_read rfl hat.sound
  intro artifacts _
  cases artifacts with
  | error err => exact answered_error hat.sound _ _
  | ok artifacts =>
      apply meets_read rfl hat.sound
      intro missing _
      simp only [Prog.bind_ret]
      split
      · exact answered_error hat.sound _ _
      · intro answer s₁ hcommit hok
        cases answer with
        | error err =>
            cases hcommit
            exact ⟨hat.sound, answered_error hat.sound _ _⟩
        | ok reported =>
            rw [performLocal_walWriteCommitted] at hcommit
            have horder : entries.map (fun entry => entry.stepIndex.toNat) =
                List.range reported.stepIndex := by
              rw [← hat.entries]
              exact hok
            obtain ⟨committed, rfl, hportable, hindex, hat₁⟩ := hat.writeCommitted hcommit hget horder
            obtain ⟨hsteps, hlength⟩ := stepsTo_append committed horder
            have hprefix : entries <+: entries ++ [committed] := List.prefix_append _ _
            have hnumber : committed.stepIndex.toNat = step.stepIndex := by rw [hindex, hstep]
            refine ⟨hat₁.sound, _, hat₁, ⟨?_, ?_, ?_⟩, by rw [hlength, hnumber]⟩
            · intro e he
              simp only [List.mem_append, List.mem_singleton] at he
              obtain he | rfl := he
              · exact (hloop.reported e he).mono hprefix
              · exact ⟨committed, by simp, hportable, rfl⟩
            · intro _
              refine ⟨hsteps, by rw [hlength, hnumber], committed.report, by simp, ?_⟩
              rw [hlength]
              rfl
            · intro cp hcp htask
              exact (hloop.checkpoint cp hcp htask).mono hprefix

/-- Executing a step leaves the tables alone, if no tree writes to the log. -/
theorem executeStep_still {req : RuntimeTaskRequest} {answer : Except String Igris.StepExecutionResult}
    (h : performLocal env (.executeStep req step) answer s = some s')
    (hok : Orderly env s (.executeStep req step) answer) : s' = s := by
  simp only [performLocal] at h
  split at h <;> rename_i hkind
  · have hticks : env.ticks req s.log = [] := hok hkind
    simp only [RuntimeState.writeTicks, hticks, List.foldl_nil, Option.some.injEq] at h
    exact h.symm
  · exact (Option.some.inj h).symm

theorem executeAndCommit_meets (hat : At env ctx.req.taskID entries s)
    (hloop : LoopBacked env ctx.req.taskID entries st) :
    Keeps env ctx.req.taskID (executeAndCommit ctx step st)
      (AfterCommit env ctx.req.taskID step) s := by
  intro answer s₁ hintent _
  cases answer with
  | error err =>
      cases hintent
      exact ⟨hat.sound, answered_error hat.sound _ _⟩
  | ok intent =>
      rw [performLocal_walWriteIntent] at hintent
      obtain ⟨entry, hfree, hstatus, htask, -, hstep, rfl, rfl⟩ := writeIntent_eq_some hintent
      have hat₁ := hat.writeIntent hfree hstatus
      refine ⟨hat₁.sound, ?_⟩
      intro result s₂ hexecute hok
      obtain rfl := executeStep_still hexecute hok
      refine ⟨hat₁.sound, ?_⟩
      cases result with
      | error err => exact (respondStepFailed_meets hat₁ hloop).bind fun _ _ h => h
      | ok result =>
          apply meets_read rfl hat₁.sound
          intro canceled _
          simp only [Prog.bind_ret]
          split
          · exact (respondFailed_meets hat₁ hloop).bind fun _ _ h => h
          · split
            · have hloop₁ : LoopBacked env ctx.req.taskID entries
                  { st with checkpointMetadata := some result.metadata } :=
                ⟨hloop.reported, hloop.steps, hloop.checkpoint⟩
              exact (respondCheckpointed_meets hat₁ hloop₁).bind fun _ _ h => h
            · have hget : (s.log.put entry).get (entry.report.taskID, entry.report.entryID) =
                  some entry := (Table.get_put _ _ _).trans (if_pos rfl)
              have hreport : entry.report.taskID = ctx.req.taskID := htask
              rw [← hreport] at hat₁ hloop ⊢
              exact commitStep_meets hat₁ hloop hget hstep

end Commit

/-! ## The whole execution -/

section Execution

variable {env : Environment} {entries : List Wal.Entry} {s s' : RuntimeState} {runtimeID : String}
  {req : RuntimeTaskRequest} {ctx : StepContext} {st : LoopState} {step : RuntimeTaskStep}

theorem afterStep_meets (hat : At env ctx.req.taskID entries s)
    (hloop : LoopBacked env ctx.req.taskID entries st)
    (hlength : entries.length = step.stepIndex + 1) :
    Keeps env ctx.req.taskID (afterStep ctx step st)
      (fun continued s' =>
        match continued with
        | .error response => Answered env ctx.req.taskID response s'
        | .ok st₁ => At env ctx.req.taskID entries s' ∧
            LoopBacked env ctx.req.taskID entries st₁) s := by
  unfold afterStep
  split
  · apply (buildCheckpoint_meets hat hloop (Or.inr hlength.symm)).bind
    rintro built s₁ ⟨hat₁, hbuilt⟩
    cases built with
    | error err => exact answered_error hat₁.sound _ _
    | ok payload =>
        have hpayload : BackedResponse env ctx.req.taskID entries (some payload) := by
          rintro _ ⟨⟩ _
          exact hbuilt payload rfl
        dsimp only
        split
        · apply (sendRuntimeCallback_meets hat₁ ?_).bind
          · intro sent s₂ hat₂
            cases sent with
            | error err => exact answered_error hat₂.sound _ _
            | ok _ => exact ⟨hat₂, ⟨nofun, fun hne => absurd rfl hne, hpayload⟩⟩
          · rintro _ ⟨⟩ htask
            exact hpayload payload rfl htask
        · apply (persistRecord_meets hat₁ hpayload).bind
          intro _ s₂ hat₂
          exact hat₂.answered hpayload
  · split
    · apply (buildCheckpoint_meets hat hloop (Or.inr hlength.symm)).bind
      rintro built s₁ ⟨hat₁, hbuilt⟩
      cases built with
      | error err => exact ⟨hat₁, hloop⟩
      | ok payload =>
          refine ⟨hat₁, hloop.reported, hloop.steps, ?_⟩
          rintro _ ⟨⟩ _
          exact hbuilt payload rfl
    · exact ⟨hat, hloop⟩

theorem completeTask_meets (hat : At env ctx.req.taskID entries s)
    (hloop : LoopBacked env ctx.req.taskID entries st) :
    Keeps env ctx.req.taskID (completeTask ctx st) (Answered env ctx.req.taskID) s := by
  unfold completeTask
  split
  · exact respond_meets hat hloop.checkpoint
  · apply (buildCheckpoint_meets hat hloop (Or.inl rfl)).bind
    rintro built s₁ ⟨hat₁, hbuilt⟩
    cases built with
    | error err => exact answered_error hat₁.sound _ _
    | ok payload =>
        apply respond_meets hat₁
        rintro _ ⟨⟩ _
        exact hbuilt payload rfl

/-- By induction over the steps: the log grows with every round, so the committed
entries change while the invariant of the loop stays. -/
theorem runSteps_meets (steps : List RuntimeTaskStep) (hat : At env ctx.req.taskID entries s)
    (hloop : LoopBacked env ctx.req.taskID entries st) :
    Keeps env ctx.req.taskID (runSteps ctx steps st) (Answered env ctx.req.taskID) s := by
  induction steps generalizing s st entries with
  | nil => exact completeTask_meets hat hloop
  | cons step steps ih =>
      apply (beforeStep_meets hat hloop).bind
      intro stopped s₁ hstopped
      cases stopped with
      | some response => exact hstopped
      | none =>
          apply (executeAndCommit_meets hstopped hloop).bind
          intro executed s₂ hexecuted
          cases executed with
          | error response => exact hexecuted
          | ok st₁ =>
              obtain ⟨entries₁, hat₁, hloop₁, hlength⟩ := hexecuted
              apply (afterStep_meets hat₁ hloop₁ hlength).bind
              intro continued s₃ hcontinued
              cases continued with
              | error response => exact hcontinued
              | ok st₂ => exact ih hcontinued.1 hcontinued.2

theorem runBehaviorTree_meets (hat : At env req.taskID entries s) :
    Keeps env req.taskID (runBehaviorTree runtimeID req) (Answered env req.taskID) s := by
  apply meets_read rfl hat.sound
  intro missing _
  simp only [Prog.bind_ret]
  split
  · exact answered_error hat.sound _ _
  · intro answer s₁ hexecute hok
    obtain rfl : s₁ = s := by
      simp only [performLocal, RuntimeState.writeTicks, hok.1, List.foldl_nil,
        Option.some.injEq] at hexecute
      exact hexecute.symm
    refine ⟨hat.sound, ?_⟩
    cases answer with
    | error err =>
        simp only [Prog.bind_ret]
        unfold behaviorTreeError
        split
        · exact answered_error hat.sound _ _
        · refine Prog.Meets.bind (persistRecord_meets hat backedResponse_none) ?_
          intro _ s₂ hat₂
          refine Prog.Meets.bind (sendRuntimeCallback_meets hat₂ (by simp)) ?_
          intro sent s₃ hat₃
          cases sent with
          | error err => exact answered_error hat₃.sound _ _
          | ok _ => exact hat₃.answered backedResponse_none
    | ok bt =>
        have hnone : BackedResponse env req.taskID entries bt.checkpoint := by
          have hcheckpoint : bt.checkpoint = none := hok.2
          rw [hcheckpoint]
          exact backedResponse_none
        apply (persistRecord_meets hat hnone).bind
        intro _ s₂ hat₂
        apply (sendLifecycleCallbacks_meets hat₂ hnone).bind
        intro sent s₃ hat₃
        cases sent with
        | error err => exact answered_error hat₃.sound _ _
        | ok _ => exact hat₃.answered hnone

theorem executeTask_meets (startStep : Nat) (hsound : Sound env req.taskID s) :
    Keeps env req.taskID (executeTask runtimeID req startStep) (Answered env req.taskID) s := by
  unfold executeTask
  split
  · exact runBehaviorTree_meets ⟨rfl, hsound⟩
  · rename_i nodes _
    have hat : At env (stepContext runtimeID req startStep
        (compileExecutionGraphToSteps nodes)).req.taskID _ s := ⟨rfl, hsound⟩
    exact runSteps_meets _ hat ⟨nofun, fun hne => absurd rfl hne, nofun⟩

/-! ## Finding the start step -/

/-- The search for the start step keeps all checkpoints backed and returns none. -/
def StartFound (env : Environment) (taskID : Uuid) (found : Except RuntimeResponse Nat)
    (s : RuntimeState) : Prop :=
  match found with
  | .error response => Answered env taskID response s
  | .ok _ => Sound env taskID s

theorem checkpointMismatch_meets (hsound : Sound env req.taskID s) :
    Keeps env req.taskID (checkpointMismatch req) (StartFound env req.taskID) s := by
  apply meets_read rfl hsound
  intro state _
  cases state <;> exact answered_error hsound _ _

/-- Entries are imported only into a log without committed ones. -/
theorem Sound.import (hsound : Sound env req.taskID s)
    (hempty : Wal.committedEntries s.log req.taskID = []) {log : Wal.Log} :
    Sound env req.taskID { s with log := log } := by
  apply hsound.extend
  · rw [hempty]
    exact List.nil_prefix
  · exact fun cp _ hcp => Or.inl hcp

theorem walImportEntries_sound {cps : List WalEntry} {answer : Except String Unit}
    (hsound : Sound env req.taskID s) (hempty : Wal.committedEntries s.log req.taskID = [])
    (h : performLocal env (.walImportEntries req.taskID cps) answer s = some s') :
    Sound env req.taskID s' := by
  cases answer with
  | error err =>
      simp only [performLocal, RuntimeState.importPartly, Option.some.injEq] at h
      subst h
      split
      · exact hsound
      · exact hsound.import hempty
  | ok _ =>
      rw [performLocal_walImportEntries] at h
      unfold RuntimeState.importEntries at h
      split at h
      · cases h
      · split at h
        · cases h
          exact hsound.import hempty
        · cases h

theorem resumeFromCheckpoint_meets (token : ResumeToken) (cp : CheckpointPayload)
    (hsound : Sound env req.taskID s) (hempty : Wal.committedEntries s.log req.taskID = []) :
    Keeps env req.taskID (resumeFromCheckpoint req token cp) (StartFound env req.taskID) s := by
  unfold resumeFromCheckpoint
  split
  · exact answered_error hsound _ _
  · apply meets_read rfl hsound
    intro validated _
    cases validated with
    | error err => exact answered_error hsound _ _
    | ok _ =>
        intro imported s₁ himport _
        have hsound₁ := walImportEntries_sound hsound hempty himport
        refine ⟨hsound₁, ?_⟩
        cases imported with
        | error err => exact answered_error hsound₁ _ _
        | ok _ =>
            apply meets_read rfl hsound₁
            intro seeded _
            cases seeded with
            | error err => exact answered_error hsound₁ _ _
            | ok pair =>
                simp only [Prog.bind_ret]
                split
                · exact hsound₁
                · exact checkpointMismatch_meets hsound₁

theorem verifiedStart_meets (hsound : Sound env req.taskID s) :
    Keeps env req.taskID (verifiedStart req) (StartFound env req.taskID) s := by
  unfold verifiedStart
  split
  · exact hsound
  · apply meets_read rfl hsound
    intro state hstate
    cases state with
    | error err => exact answered_error hsound _ _
    | ok pair =>
        simp only [performLocal, Option.ite_none_right_eq_some] at hstate
        simp only [Prog.bind_ret]
        split
        · exact hsound
        · split
          · rename_i hnone _
            apply resumeFromCheckpoint_meets _ _ hsound
            have hlast : (s.committedState env req.taskID).1 = none := by rw [← hstate.1, hnone]
            simp only [RuntimeState.committedState, Wal.committedState_eq,
              Option.map_eq_none_iff] at hlast
            exact Wal.lastCommittedStep_eq_none_iff.mp hlast
          · exact checkpointMismatch_meets hsound

/-- A recorded response holds no checkpoint that is not backed. -/
theorem recordedResponse_answered {tenantID key : String} {hashed : HashedRequest}
    {taskID : Uuid} {response : RuntimeResponse} (hsound : Sound env taskID s)
    (h : performLocal env (.submissionRecord tenantID key hashed) (some response) s = some s) :
    Answered env taskID response s := by
  simp only [performLocal, reduceCtorEq, false_or, Option.ite_none_right_eq_some,
    RuntimeState.recordedResponse] at h
  obtain ⟨record, hget, hresponse⟩ := Option.map_eq_some_iff.mp h.1.symm
  refine ⟨hsound, ?_⟩
  intro cp hcp htask
  split at hresponse
  · subst hresponse
    cases hcp
  · subst hresponse
    exact hsound cp htask (Or.inr ⟨record, Table.mem_of_get hget, hcp⟩)

theorem handleTaskSubmit_meets (runtimeID : String) (hsound : Sound env req.taskID s) :
    (handleTaskSubmit runtimeID req).Meets (performLocal env) (Orderly env) (Sound env req.taskID)
      (Answered env req.taskID) s := by
  unfold handleTaskSubmit
  split
  · exact answered_error hsound _ _
  · apply meets_read rfl hsound
    intro idle _
    simp only [Prog.bind_ret]
    split
    · exact answered_error hsound _ _
    · apply meets_read rfl hsound
      intro recorded hrecorded
      cases recorded with
      | some response => exact recordedResponse_answered hsound hrecorded
      | none =>
          simp only [Prog.bind_ret]
          unfold acceptRequest
          split
          · exact answered_error hsound _ _
          · apply meets_read rfl hsound
            intro rejected _
            simp only [Prog.bind_ret]
            split
            · exact answered_error hsound _ _
            · apply (verifiedStart_meets hsound).bind
              intro found s₁ hfound
              cases found with
              | error response => exact hfound
              | ok startStep => exact executeTask_meets startStep hfound

end Execution

end Executor
end Igris
