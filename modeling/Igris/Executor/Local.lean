import Igris.Executor.Execute
import Igris.Lib.Hoare
import Igris.Wal.Transfer

/-!
# A runtime with its own storage

For the coordinator the log and the submission records of a runtime answer arbitrarily.
Here they are answered from the runtime's own tables, by the functions of the log, so
that what an execution finds there depends on what earlier executions wrote.  The
program is the same.

Main results:

- Theorem {lit}`writeIntent_eq_some`, {lit}`writeCommitted_eq_some`: the entries that
  recording a step leaves in the log.
- Theorem {lit}`verifiedStart_startVerified`: the handler finds its start step as the log
  module does.
- Theorem {lit}`perform_of_performLocal`: the coordinator's view of a runtime allows
  whatever the runtime does with its tables.
-/

namespace Igris
namespace Executor

open Concurrency Relational

/-! ## Tables -/

/-- The response kept for a submission key. -/
structure IdempotentTaskRecord where
  submissionKey : String
  requestHash : String
  response : TaskSubmitResponse
deriving DecidableEq, Repr

def submissionKey (tenantID idempotencyKey : String) : String :=
  tenantID ++ ":" ++ idempotencyKey

/-- The tables of a runtime, and the checkpoints it has sent. -/
structure RuntimeState where
  log : Wal.Log
  submissions : Table String IdempotentTaskRecord IdempotentTaskRecord.submissionKey
  sent : List CheckpointPayload

/-- A runtime that has stored nothing yet. -/
def emptyRuntime : RuntimeState :=
  ⟨Table.empty, Table.empty, []⟩

/-- What the tables do not determine. -/
structure Environment where
  sha256 : List UInt8 → Wal.Digest
  /-- SHA-256 over the JSON form of the hashed members, in hexadecimal. -/
  hashRequest : HashedRequest → String
  /-- The entries that the ticks of a behavior tree leave in the log. -/
  ticks : RuntimeTaskRequest → Wal.Log → List Wal.Entry
  /-- The number of entries written before an import is cut short. -/
  importedBefore : List WalEntry → Wal.Log → Nat

namespace RuntimeState

variable (env : Environment)

/-- The answer to a request whose key is known. -/
def recordedResponse (s : RuntimeState) (tenantID idempotencyKey : String)
    (hashed : HashedRequest) : Option RuntimeResponse :=
  (s.submissions.get (submissionKey tenantID idempotencyKey)).map fun existing =>
    if existing.requestHash ≠ env.hashRequest hashed then .error 409 "idempotency_conflict"
    else .response existing.response

def record (s : RuntimeState) (tenantID idempotencyKey : String) (hashed : HashedRequest)
    (response : TaskSubmitResponse) : RuntimeState :=
  let record : IdempotentTaskRecord :=
    ⟨submissionKey tenantID idempotencyKey, env.hashRequest hashed, response⟩
  { s with submissions := s.submissions.put record }

/-- The last committed step and the digest in the form they are reported. -/
def committedState (s : RuntimeState) (taskID : Uuid) : Option Nat × String :=
  let (lastStep, digest) := Wal.committedState env.sha256 s.log taskID
  (lastStep.map UInt32.toNat, Text.hexEncode digest.1)

/-- The entries and the digest of a checkpoint from outside agree with the token. -/
def externalValid (token : ResumeToken) (cp : CheckpointPayload) : Bool :=
  match Wal.ResumeToken.ofJSON token, Wal.CheckpointPayload.ofJSON cp with
  | some requested, some checkpoint =>
      (Wal.validateExternalResumeCheckpoint env.sha256 cp.taskID requested checkpoint).isOk
  | _, _ => false

def importEntries (s : RuntimeState) (taskID : Uuid) (entries : List WalEntry) :
    Option RuntimeState :=
  match Wal.decodeEntries entries with
  | none => none
  | some decoded =>
      match Wal.importEntries taskID s.log decoded with
      | (log, .ok _) => some { s with log := log }
      | (_, .error _) => none

/-- An import that fails leaves the entries it had written. -/
def importPartly (s : RuntimeState) (taskID : Uuid) (entries : List WalEntry) : RuntimeState :=
  match Wal.decodeEntries (entries.take (env.importedBefore entries s.log)) with
  | none => s
  | some decoded => { s with log := (Wal.importEntries taskID s.log decoded).1 }

/-- The log after a new intent, if the reported entry is that intent. -/
def writeIntent (s : RuntimeState) (taskID : Uuid) (step : RuntimeTaskStep) (reported : WalEntry) :
    Option RuntimeState :=
  match Wal.Entry.ofJSON reported.marshalJSON with
  | none => none
  | some entry =>
      let (written, log) := Wal.writeIntent s.log taskID entry.runtimeID entry.entryID
        entry.timestampMs entry.stepIndex entry.stepType entry.inputDigest
      if written.report = reported ∧ entry.stepIndex.toNat = step.stepIndex ∧
          written.entryID ≠ Uuid.nil ∧ s.log.get written.key = none then
        some { s with log := log }
      else none

/-- The log after a commit, if the reported entry is the committed one. -/
def writeCommitted (s : RuntimeState) (intent : WalEntry) (outputDigest : String)
    (reported : WalEntry) : Option RuntimeState :=
  match Wal.Entry.ofJSON reported.marshalJSON with
  | some { outputDigest := some digest, signature := some signature, timestampMs := timestampMs, .. } =>
      match Wal.writeCommitted s.log intent.taskID intent.entryID digest timestampMs signature with
      | some (written, log) =>
          if written.report = reported ∧ Text.hexEncode digest.1 = outputDigest ∧
              signature.length = 64 then
            some { s with log := log }
          else none
      | none => none
  | _ => none

/-- Ticks are written under the task of the tree, never over another entry. -/
def writeTicks (s : RuntimeState) (req : RuntimeTaskRequest) : RuntimeState :=
  { s with log := (env.ticks req s.log).foldl (fun log entry =>
      let tick := { entry with taskID := req.taskID }
      if log.get tick.key = none then log.put tick else log) s.log }

end RuntimeState

/-! ## Semantics -/

/-- Perform an action of a runtime that received an answer.  Every access to the storage
may fail. -/
def performLocal (env : Environment) : Semantics Action Answer RuntimeState
  | .submissionRecord tenantID key hashed, (answer : Option RuntimeResponse), s =>
      -- a read that fails is taken for a missing record
      if answer = none ∨ answer = s.recordedResponse env tenantID key hashed then some s else none
  | .persistTaskRecord tenantID key hashed response, (answer : Except String Unit), s =>
      match answer with
      | .ok _ => some (s.record env tenantID key hashed response)
      | .error _ => some s
  | .walCommittedState taskID, (answer : Except String (Option Nat × String)), s =>
      match answer with
      | .ok state => if state = s.committedState env taskID then some s else none
      | .error _ => some s
  | .walValidateExternal token cp, (answer : Except String Unit), s =>
      match answer with
      | .ok _ => if RuntimeState.externalValid env token cp then some s else none
      | .error _ => if RuntimeState.externalValid env token cp then none else some s
  | .walImportEntries taskID entries, (answer : Except String Unit), s =>
      match answer with
      | .ok _ => s.importEntries taskID entries
      | .error _ => some (s.importPartly env taskID entries)
  | .walWriteIntent taskID step, (answer : Except String WalEntry), s =>
      match answer with
      | .ok reported => s.writeIntent taskID step reported
      | .error _ => some s
  | .walWriteCommitted intent outputDigest, (answer : Except String WalEntry), s =>
      match answer with
      | .ok reported => s.writeCommitted intent outputDigest reported
      | .error _ => some s
  | .walComputeDigest taskID, (answer : Except String String), s =>
      match answer with
      | .ok digest => if digest = (s.committedState env taskID).2 then some s else none
      | .error _ => some s
  | .executeStep req step, _, s =>
      if step.node.kind = .behaviorTree then some (s.writeTicks env req) else some s
  | .executeBehaviorTree req, _, s => some (s.writeTicks env req)
  | .sendCallback callback, _, s =>
      match callback.body with
      | .checkpoint cp => some { s with sent := s.sent ++ [cp] }
      | _ => some s
  | _, _, s => some s

/-! ## What the actions do to the tables -/

variable {a : Action}

section Writes

variable {env : Environment} {s s' : RuntimeState}

variable {taskID : Uuid} {step : RuntimeTaskStep} {reported intent : WalEntry}

@[simp]
theorem performLocal_walImportEntries {entries : List WalEntry} :
    performLocal env (.walImportEntries taskID entries) (.ok ()) s = s.importEntries taskID entries :=
  rfl

@[simp]
theorem performLocal_walWriteIntent :
    performLocal env (.walWriteIntent taskID step) (.ok reported) s =
      s.writeIntent taskID step reported :=
  rfl

@[simp]
theorem performLocal_walWriteCommitted {outputDigest : String} :
    performLocal env (.walWriteCommitted intent outputDigest) (.ok reported) s =
      s.writeCommitted intent outputDigest reported :=
  rfl

/-- Actions that leave the tables alone. -/
def onlyReads : Action → Bool
  | .test _ | .submissionRecord _ _ _ | .permissionFailureForStep _ | .walCommittedState _
  | .walValidateExternal _ _ | .walComputeDigest _ | .buildExecutionArtifacts _ => true
  | _ => false

theorem performLocal_onlyReads {answer : Answer a} (hread : onlyReads a = true)
    (h : performLocal env a answer s = some s') : s' = s := by
  cases a with
  | submissionRecord tenantID key hashed =>
      simp only [performLocal, Option.ite_none_right_eq_some, Option.some.injEq] at h
      exact h.2.symm
  | walCommittedState taskID | walComputeDigest taskID =>
      cases answer with
      | error err =>
          cases h
          rfl
      | ok value =>
          simp only [performLocal, Option.ite_none_right_eq_some, Option.some.injEq] at h
          exact h.2.symm
  | walValidateExternal token cp =>
      cases answer with
      | error err =>
          simp only [performLocal, Option.ite_none_left_eq_some, Option.some.injEq] at h
          exact h.2.symm
      | ok value =>
          simp only [performLocal, Option.ite_none_right_eq_some, Option.some.injEq] at h
          exact h.2.symm
  | test | permissionFailureForStep | buildExecutionArtifacts =>
      cases h
      rfl
  | _ => cases hread

/-- A new intent is under a free key and is reported as it stands in the log. -/
theorem writeIntent_eq_some (h : s.writeIntent taskID step reported = some s') :
    ∃ entry : Wal.Entry, s.log.get entry.key = none ∧ entry.status = .intent ∧
      entry.taskID = taskID ∧ entry.entryID ≠ Uuid.nil ∧ entry.stepIndex.toNat = step.stepIndex ∧
      reported = entry.report ∧ s' = { s with log := s.log.put entry } := by
  unfold RuntimeState.writeIntent at h
  split at h
  · cases h
  · dsimp only [Wal.writeIntent] at h
    split at h
    · rename_i hintent
      obtain ⟨hreport, hstep, hid, hfree⟩ := hintent
      cases h
      exact ⟨_, hfree, rfl, rfl, hid, hstep, hreport.symm, rfl⟩
    · cases h

/-- A new intent can be recorded and reported. -/
theorem writeIntent_report {runtimeID stepType : String} {entryID : Uuid} {timestampMs : UInt64}
    {stepIndex : UInt32} {inputDigest : Wal.Digest} (hstep : stepIndex.toNat = step.stepIndex)
    (hid : entryID ≠ Uuid.nil) (hfree : s.log.get (taskID, entryID) = none) :
    s.writeIntent taskID step (Wal.writeIntent s.log taskID runtimeID entryID timestampMs stepIndex
        stepType inputDigest).1.report =
      some { s with log := (Wal.writeIntent s.log taskID runtimeID entryID timestampMs stepIndex
        stepType inputDigest).2 } := by
  have hdecode : Wal.Entry.ofJSON (Wal.writeIntent s.log taskID runtimeID entryID timestampMs
      stepIndex stepType inputDigest).1.report.marshalJSON = _ :=
    Wal.Entry.ofJSON_report nofun nofun
  unfold RuntimeState.writeIntent
  rw [hdecode]
  exact if_pos ⟨rfl, hstep, hid, hfree⟩

/-- A commit can be recorded and reported. -/
theorem writeCommitted_report {old : Wal.Entry} {digest : Wal.Digest} {timestampMs : UInt64}
    {signature : List UInt8} (hget : s.log.get (intent.taskID, intent.entryID) = some old)
    (hsigned : signature.length = 64) :
    s.writeCommitted intent (Text.hexEncode digest.1)
        (old.commit digest timestampMs signature).report =
      some { s with log := s.log.put (old.commit digest timestampMs signature) } := by
  have hdecode : Wal.Entry.ofJSON (old.commit digest timestampMs signature).report.marshalJSON =
      some (old.commit digest timestampMs signature) := by
    apply Wal.Entry.ofJSON_report (fun _ hstatus => by cases hstatus)
    rintro _ ⟨⟩
    simp [hsigned]
  unfold RuntimeState.writeCommitted
  rw [hdecode]
  simp [Wal.Entry.commit, Wal.writeCommitted, hget, hsigned]

/-- A commit replaces the entry of the intent. -/
theorem writeCommitted_eq_some {outputDigest : String}
    (h : s.writeCommitted intent outputDigest reported = some s') :
    ∃ (old : Wal.Entry) (digest : Wal.Digest) (timestampMs : UInt64) (signature : List UInt8),
      s.log.get (intent.taskID, intent.entryID) = some old ∧ signature.length = 64 ∧
      reported = (old.commit digest timestampMs signature).report ∧
      s' = { s with log := s.log.put (old.commit digest timestampMs signature) } := by
  unfold RuntimeState.writeCommitted at h
  split at h
  · rename_i digest signature timestampMs hreported
    dsimp only [Wal.writeCommitted] at h
    cases hget : s.log.get (intent.taskID, intent.entryID) with
    | none => simp [hget] at h
    | some old =>
        simp only [hget, Option.map_some] at h
        split at h
        · rename_i hcommitted
          cases h
          exact ⟨old, _, _, _, rfl, hcommitted.2.2, hcommitted.1.symm, rfl⟩
        · cases h
  · cases h

/-- The actions a runtime performs. -/
def ofRuntime : Action → Bool
  | .test _ | .submissionRecord _ _ _ | .persistTaskRecord _ _ _ _ | .permissionFailureForStep _
  | .walCommittedState _ | .walValidateExternal _ _ | .walImportEntries _ _ | .walWriteIntent _ _
  | .walWriteCommitted _ _ | .walComputeDigest _ | .executeStep _ _ | .executeBehaviorTree _
  | .buildExecutionArtifacts _ | .sendCallback _ => true
  | _ => false

/-- The coordinator's view of a runtime allows an action on its tables, as long as it
commits only what it recorded. -/
theorem perform_of_performLocal {answer : Answer a} (hruntime : ofRuntime a = true)
    (hintent : ∀ intent outputDigest, a = .walWriteCommitted intent outputDigest →
      ∃ entry, s.log.get (intent.taskID, intent.entryID) = some entry ∧ intent = entry.report)
    (h : performLocal env a answer s = some s') (jsonb : TaskDefinition → TaskDefinition)
    (state : State) : perform jsonb a answer state = some state := by
  cases a with
  | walWriteIntent taskID step =>
      cases answer with
      | error err => rfl
      | ok reported =>
          rw [performLocal_walWriteIntent] at h
          obtain ⟨entry, -, -, htask, hid, hstep, rfl, -⟩ := writeIntent_eq_some h
          simp [perform, intentMatches, Wal.Entry.report, htask, hid, hstep]
  | walWriteCommitted intent outputDigest =>
      cases answer with
      | error err => rfl
      | ok reported =>
          rw [performLocal_walWriteCommitted] at h
          obtain ⟨old, digest, timestampMs, signature, hold, -, rfl, -⟩ := writeCommitted_eq_some h
          obtain ⟨entry, hentry, hreport⟩ := hintent intent outputDigest rfl
          obtain rfl : entry = old := Option.some.inj (hentry.symm.trans hold)
          have hcommitted : normalizeWalStatus "committed" = "committed" := by decide +kernel
          simp [perform, commitMatches, hreport, Wal.Entry.report, Wal.Entry.commit,
            WalEntry.committed, Wal.WalStatus.name, hcommitted]
  | _ => first | rfl | cases hruntime

end Writes

/-! ## The start step -/

section Start

variable {env : Environment} {s : RuntimeState} {req : RuntimeTaskRequest}
  {requested : Wal.ResumeToken}

variable {ok : RuntimeState → (a : Action) → Answer a → Prop}

/-- The rule for an action that leaves the tables alone. -/
theorem meets_read {α : Type} {I : RuntimeState → Prop} {post : α → RuntimeState → Prop}
    {next : Answer a → Program α} (hread : onlyReads a = true) (hs : I s)
    (hnext : ∀ answer, performLocal env a answer s = some s →
      (next answer).Meets (performLocal env) ok I post s) :
    (Prog.act a next).Meets (performLocal env) ok I post s := by
  intro answer s₁ hstep _
  obtain rfl := performLocal_onlyReads hread hstep
  exact ⟨hs, hnext answer hstep⟩

/-- A checkpoint of a request, as the runtime reads it. -/
def decodeCheckpoint (cp : CheckpointPayload) : Except String Wal.CheckpointPayload :=
  match Wal.CheckpointPayload.ofJSON cp with
  | some checkpoint => .ok checkpoint
  | none => .error "invalid resume checkpoint"

/-- Comparing a reported token with a reported log is comparing the token with the log. -/
theorem verifiedResumeStartStep_report (last : Option UInt32) (digest : Wal.Digest) :
    verifiedResumeStartStep requested.report (last.map UInt32.toNat) (Text.hexEncode digest.1) =
      (Wal.verifiedResumeStartStep requested last digest).map UInt32.toNat := by
  have hdigest : Text.hexEncode digest.1 = Text.hexEncode requested.checkpointDigest.1 ↔
      digest = requested.checkpointDigest := by
    rw [← Subtype.val_inj]
    exact ⟨fun h => Text.hexEncode_injective h, congrArg _⟩
  have hlast : (last.map UInt32.toNat).getD 0 = requested.lastCommittedStep.toNat ↔
      last.getD 0 = requested.lastCommittedStep := by
    rw [← UInt32.toNat_inj]
    cases last <;> rfl
  simp only [verifiedResumeStartStep, Wal.verifiedResumeStartStep, Wal.ResumeToken.report, ne_eq,
    hdigest, hlast]
  split
  · rfl
  · split
    · rfl
    · rw [Option.map_some, UInt32.toNat_add]
      rfl

/-- The start step was verified by the functions of the log. -/
def StartVerified (env : Environment) (req : RuntimeTaskRequest) (requested : Wal.ResumeToken)
    (log : Wal.Log) (found : Except RuntimeResponse Nat) (s : RuntimeState) : Prop :=
  ∀ n, found = .ok n → ∃ start, n = start.toNat ∧
    Wal.verifiedResumeStartStepFromLocalOrCheckpoint env.sha256 log req.taskID
      (req.resumeCheckpoint.map decodeCheckpoint) requested = (.ok (some start), s.log)

theorem checkpointMismatch_startVerified {log : Wal.Log} :
    (checkpointMismatch req).Meets (performLocal env) ok (fun _ => True)
      (StartVerified env req requested log) s := by
  apply meets_read rfl trivial
  intro state _
  cases state <;> exact nofun

/-- A checkpoint that was validated and imported verifies the start step. -/
theorem verified_of_import {s₁ : RuntimeState} {cp : CheckpointPayload} {start : UInt32}
    (hlocal : (Wal.committedState env.sha256 s.log cp.taskID).1 = none)
    (hnone : Wal.verifiedResumeStartStep requested
      (Wal.committedState env.sha256 s.log cp.taskID).1
      (Wal.committedState env.sha256 s.log cp.taskID).2 = none)
    (hvalid : RuntimeState.externalValid env requested.report cp = true)
    (himport : s.importEntries cp.taskID cp.walEntries = some s₁)
    (hstart : Wal.verifiedResumeStartStep requested
      (Wal.committedState env.sha256 s₁.log cp.taskID).1
      (Wal.committedState env.sha256 s₁.log cp.taskID).2 = some start) :
    Wal.verifiedResumeStartStepFromLocalOrCheckpoint env.sha256 s.log cp.taskID
      (some (decodeCheckpoint cp)) requested = (.ok (some start), s₁.log) := by
  unfold RuntimeState.externalValid at hvalid
  rw [Wal.ResumeToken.ofJSON_report] at hvalid
  cases hjson : Wal.CheckpointPayload.ofJSON cp with
  | none => simp [hjson] at hvalid
  | some checkpoint =>
      have hentries : Wal.decodeEntries cp.walEntries = some checkpoint.walEntries := by
        unfold Wal.CheckpointPayload.ofJSON at hjson
        split at hjson
        · rename_i token entries _ hentries
          cases hjson
          exact hentries
        · cases hjson
      have hvalidate : Wal.validateExternalResumeCheckpoint env.sha256 cp.taskID requested
          checkpoint = .ok () := by
        simp only [hjson] at hvalid
        cases hresult : Wal.validateExternalResumeCheckpoint env.sha256 cp.taskID requested
            checkpoint with
        | error err => simp [hresult, Except.isOk, Except.toBool] at hvalid
        | ok _ => rfl
      unfold RuntimeState.importEntries at himport
      simp only [hentries] at himport
      rw [hlocal] at hnone
      split at himport <;> rename_i himported
      · cases himport
        simp only [Wal.verifiedResumeStartStepFromLocalOrCheckpoint, hlocal, hnone,
          Option.isSome_none, Bool.false_eq_true, if_false, decodeCheckpoint, hjson, hvalidate,
          himported, hstart]
      · cases himport

theorem resumeFromCheckpoint_startVerified {cp : CheckpointPayload}
    (hcheckpoint : req.resumeCheckpoint = some cp)
    (hlocal : (Wal.committedState env.sha256 s.log req.taskID).1 = none)
    (hnone : Wal.verifiedResumeStartStep requested
      (Wal.committedState env.sha256 s.log req.taskID).1
      (Wal.committedState env.sha256 s.log req.taskID).2 = none) :
    (resumeFromCheckpoint req requested.report cp).Meets (performLocal env) ok (fun _ => True)
      (StartVerified env req requested s.log) s := by
  unfold resumeFromCheckpoint
  split
  · exact nofun
  · rename_i hmatches
    simp only [externalCheckpointMatches, Bool.not_eq_true', Bool.not_eq_false, Bool.and_eq_true,
      decide_eq_true_eq] at hmatches
    have htask : cp.taskID = req.taskID := hmatches.1.1.1.1.1
    apply meets_read rfl trivial
    intro validated hvalidated
    cases validated with
    | error err => exact nofun
    | ok _ =>
        simp only [performLocal, Option.ite_none_right_eq_some] at hvalidated
        intro imported s₁ himport _
        refine ⟨trivial, ?_⟩
        cases imported with
        | error err => exact nofun
        | ok _ =>
            apply meets_read rfl trivial
            intro seeded hseeded
            cases seeded with
            | error err => exact nofun
            | ok state =>
                simp only [performLocal, Option.ite_none_right_eq_some] at hseeded
                simp only [Prog.bind_ret]
                split <;> rename_i hstart
                · rintro n ⟨⟩
                  rw [hseeded.1, RuntimeState.committedState, verifiedResumeStartStep_report,
                    Option.map_eq_some_iff] at hstart
                  obtain ⟨start, hstart, rfl⟩ := hstart
                  refine ⟨start, rfl, ?_⟩
                  rw [hcheckpoint, ← htask]
                  rw [← htask] at hlocal hnone himport hstart
                  exact verified_of_import hlocal hnone hvalidated.1 himport hstart
                · exact checkpointMismatch_startVerified

/-- The search for the start step of a request is the one of the log module. -/
theorem verifiedStart_startVerified :
    (verifiedStart { req with resumeFrom := some requested.report }).Meets (performLocal env) ok
      (fun _ => True) (StartVerified env req requested s.log) s := by
  unfold verifiedStart
  apply meets_read rfl trivial
  intro state hstate
  cases state with
  | error err => exact nofun
  | ok state =>
      simp only [performLocal, Option.ite_none_right_eq_some] at hstate
      simp only [hstate.1, RuntimeState.committedState, Prog.bind_ret,
        verifiedResumeStartStep_report]
      cases hlocal : Wal.verifiedResumeStartStep requested
          (Wal.committedState env.sha256 s.log req.taskID).1
          (Wal.committedState env.sha256 s.log req.taskID).2 with
      | some start =>
          rintro n ⟨⟩
          exact ⟨start, rfl, Wal.verified_start_of_local hlocal⟩
      | none =>
          simp only [Option.map_none]
          split
          · rename_i hnone hcheckpoint
            rw [Option.map_eq_none_iff] at hnone
            exact resumeFromCheckpoint_startVerified hcheckpoint hnone hlocal
          · exact checkpointMismatch_startVerified

end Start

end Executor
end Igris
