import Igris.Wal.Log

/-!
# Verifying the point to resume from

A request to resume names a watermark and a digest.  The runtime compares them with
its own log; if that holds no committed entry, it takes over the entries of the
checkpoint that came with the request and compares again.

Main results:

- Theorem {lit}`verified_start_eq`: the start step follows the last committed step of
  the log, where an empty log counts as one that ends at step zero.
- Theorem {lit}`Complete.verified_start`: a complete checkpoint is accepted by a runtime
  without committed entries.
- Theorem {lit}`verified_start_covered_iff`: no step is skipped exactly if the log is not
  empty, has no gap, and does not end at the largest step index.
-/

namespace Igris
namespace Wal

open Relational

/-- Watermark of a checkpoint. -/
structure ResumeToken where
  lastCommittedStep : UInt32
  checkpointDigest : Digest
  runtimeID : String
deriving DecidableEq, Repr

/-- A checkpoint as the runtime holds it.  Its metadata play no part here. -/
structure CheckpointPayload where
  taskID : Uuid
  resumeToken : ResumeToken
  walEntries : List Entry
deriving DecidableEq, Repr

/-- The step after the watermark, if the log agrees with the token. -/
def verifiedResumeStartStep (requested : ResumeToken) (localLastCommittedStep : Option UInt32)
    (localCheckpointDigest : Digest) : Option UInt32 :=
  if localCheckpointDigest ≠ requested.checkpointDigest then none
  else if localLastCommittedStep.getD 0 ≠ requested.lastCommittedStep then none
  else some (requested.lastCommittedStep + 1)

/-- The loop over the committed entries of a checkpoint. -/
def hashCommitted (taskID : Uuid) :
    List Entry → Option UInt32 × List UInt8 → Except String (Option UInt32 × List UInt8)
  | [], acc => .ok acc
  | entry :: entries, acc =>
      if entry.taskID ≠ taskID then .error "resume checkpoint WAL entry task_id mismatch"
      else
        match entry.outputDigest with
        | some digest => hashCommitted taskID entries (some entry.stepIndex, acc.2 ++ digest.1)
        | none => hashCommitted taskID entries acc

/-- A checkpoint from outside is complete and matches the token. -/
def validateExternalResumeCheckpoint (sha256 : List UInt8 → Digest) (taskID : Uuid)
    (requested : ResumeToken) (checkpoint : CheckpointPayload) : Except String Unit :=
  if checkpoint.taskID ≠ taskID then .error "resume checkpoint task_id mismatch"
  else if checkpoint.resumeToken.lastCommittedStep ≠ requested.lastCommittedStep ∨
      checkpoint.resumeToken.checkpointDigest ≠ requested.checkpointDigest then
    .error "resume checkpoint token mismatch"
  else if checkpoint.walEntries = [] then .error "resume checkpoint has no WAL entries"
  else
    match hashCommitted taskID (sortEntries (checkpoint.walEntries.filter Entry.committed))
        (none, []) with
    | .error err => .error err
    | .ok (lastStep, hashed) =>
        if lastStep ≠ some requested.lastCommittedStep then
          .error "resume checkpoint last committed step mismatch"
        else if sha256 hashed ≠ requested.checkpointDigest then
          .error "resume checkpoint digest mismatch"
        else .ok ()

/-- The step to resume from, and the log afterwards.  The checkpoint of the request is
{lit}`some (.error _)` if its JSON does not decode. -/
def verifiedResumeStartStepFromLocalOrCheckpoint (sha256 : List UInt8 → Digest) (log : Log)
    (taskID : Uuid) (resumeCheckpoint : Option (Except String CheckpointPayload))
    (requested : ResumeToken) : Except String (Option UInt32) × Log :=
  let (localLastStep, localDigest) := committedState sha256 log taskID
  match verifiedResumeStartStep requested localLastStep localDigest with
  | some startStep => (.ok (some startStep), log)
  | none =>
      -- a log with committed entries that disagree is never overwritten
      if localLastStep.isSome then (.ok none, log)
      else
        match resumeCheckpoint with
        | none => (.ok none, log)
        | some (.error err) => (.error err, log)
        | some (.ok checkpoint) =>
            match validateExternalResumeCheckpoint sha256 taskID requested checkpoint with
            | .error err => (.error err, log)
            | .ok _ =>
                match importEntries taskID log checkpoint.walEntries with
                | (seeded, .error err) => (.error err, seeded)
                | (seeded, .ok _) =>
                    let (seededLastStep, seededDigest) := committedState sha256 seeded taskID
                    (.ok (verifiedResumeStartStep requested seededLastStep seededDigest), seeded)

/-! ## What a verified start step means -/

section Verified

variable {sha256 : List UInt8 → Digest} {log log' : Log} {taskID : Uuid}
  {resumeCheckpoint : Option (Except String CheckpointPayload)} {requested : ResumeToken}
  {last : Option UInt32} {digest : Digest} {s : UInt32}

theorem verifiedResumeStartStep_eq_some_iff :
    verifiedResumeStartStep requested last digest = some s ↔
      digest = requested.checkpointDigest ∧ last.getD 0 = requested.lastCommittedStep ∧
        s = requested.lastCommittedStep + 1 := by
  unfold verifiedResumeStartStep
  by_cases hdigest : digest = requested.checkpointDigest
  · by_cases hlast : last.getD 0 = requested.lastCommittedStep <;> simp [hdigest, hlast, eq_comm]
  · simp [hdigest]

/-- A token that is verified against a log, whichever that is, agrees with it. -/
theorem verified_start_agrees
    (h : verifiedResumeStartStepFromLocalOrCheckpoint sha256 log taskID resumeCheckpoint requested =
      (.ok (some s), log')) :
    verifiedResumeStartStep requested (committedState sha256 log' taskID).1
      (committedState sha256 log' taskID).2 = some s := by
  unfold verifiedResumeStartStepFromLocalOrCheckpoint at h
  dsimp only at h
  split at h
  · rename_i startStep hlocal
    cases h
    exact hlocal
  · split at h
    · cases h
    · split at h
      · cases h
      · cases h
      · split at h
        · cases h
        · split at h
          · cases h
          · simp only [Prod.mk.injEq, Except.ok.injEq] at h
            obtain ⟨hstart, rfl⟩ := h
            exact hstart

/-- A log that agrees with the token is enough. -/
theorem verified_start_of_local
    (h : verifiedResumeStartStep requested (committedState sha256 log taskID).1
      (committedState sha256 log taskID).2 = some s) :
    verifiedResumeStartStepFromLocalOrCheckpoint sha256 log taskID resumeCheckpoint requested =
      (.ok (some s), log) := by
  simp only [verifiedResumeStartStepFromLocalOrCheckpoint, h]

theorem verified_start_eq
    (h : verifiedResumeStartStepFromLocalOrCheckpoint sha256 log taskID resumeCheckpoint requested =
      (.ok (some s), log')) :
    (lastCommittedStep log' taskID).getD 0 = requested.lastCommittedStep ∧
      s = requested.lastCommittedStep + 1 := by
  have hagrees := verifiedResumeStartStep_eq_some_iff.mp (verified_start_agrees h)
  rw [committedState_eq] at hagrees
  exact hagrees.2

end Verified

/-! ## Which logs can be resumed -/

/-- The log holds a committed entry of the task for the step. -/
def CommittedAt (log : Log) (taskID : Uuid) (step : UInt32) : Prop :=
  ∃ entry ∈ log.rows, entry.taskID = taskID ∧ entry.status = .committed ∧ entry.stepIndex = step

/-- The committed entries of the task reach from the first step to a last one that has
a successor. -/
def Gapless (log : Log) (taskID : Uuid) : Prop :=
  ∃ last, lastCommittedStep log taskID = some last ∧ last.toNat + 1 < UInt32.size ∧
    ∀ step < last, CommittedAt log taskID step

theorem committedAt_iff {log : Log} {taskID : Uuid} {step : UInt32} :
    CommittedAt log taskID step ↔ ∃ entry ∈ committedEntries log taskID, entry.stepIndex = step := by
  simp [CommittedAt, mem_committedEntries, and_assoc]

/-- A digest function that can be evaluated: the first 32 bytes. -/
def firstBytes (bytes : List UInt8) : Digest :=
  ⟨(bytes ++ List.replicate 32 0).take 32, by simp⟩

/-- A log with one committed step. -/
def oneStepLog : Log :=
  Table.empty.put {
    entryID := 1, taskID := 7, stepIndex := 0, stepType := "\"Checkpoint\"", status := .committed
    inputDigest := firstBytes [], outputDigest := some (firstBytes [1])
    timestampMs := 0, runtimeID := "runtime-a", signature := none }

/-- An empty log counts as one that ends at step zero. -/
theorem verified_start_of_empty (sha256 : List UInt8 → Digest) (taskID : Uuid) (runtimeID : String) :
    verifiedResumeStartStepFromLocalOrCheckpoint sha256 Table.empty taskID none
        ⟨0, sha256 [], runtimeID⟩ = (.ok (some 1), Table.empty) := by
  have hstate : committedState sha256 Table.empty taskID = (none, sha256 []) := by
    rw [committedState_eq]
    congr 1
  apply verified_start_of_local
  rw [hstate]
  simp [verifiedResumeStartStep]

section External

variable {sha256 : List UInt8 → Digest} {log : Log} {taskID : Uuid} {entries : List Entry}
  {requested : ResumeToken}

theorem hashCommitted_eq {acc : Option UInt32 × List UInt8}
    (h : ∀ e ∈ entries, e.taskID = taskID ∧ e.outputDigest.isSome) :
    hashCommitted taskID entries acc =
      .ok ((entries.getLast?.map Entry.stepIndex).or acc.1,
        acc.2 ++ entries.flatMap Entry.outputBytes) := by
  induction entries generalizing acc with
  | nil => simp [hashCommitted]
  | cons entry entries ih =>
      obtain ⟨htask, houtput⟩ := h entry List.mem_cons_self
      obtain ⟨digest, hdigest⟩ := Option.isSome_iff_exists.mp houtput
      rw [hashCommitted, if_neg (by simp [htask]), hdigest]
      simp only [ih fun e he => h e (List.mem_cons_of_mem _ he)]
      cases hlast : entries.getLast? <;>
        simp [List.getLast?_cons, hlast, Entry.outputBytes, hdigest, List.append_assoc]

/-- The committed entries of a task up to the watermark of a token. -/
structure Complete (sha256 : List UInt8 → Digest) (taskID : Uuid) (requested : ResumeToken)
    (entries : List Entry) : Prop where
  committed : ∀ e ∈ entries, e.taskID = taskID ∧ e.status = .committed ∧ e.outputDigest.isSome
  ordered : entries.Pairwise fun a b => a.stepIndex < b.stepIndex ∧ a.entryID ≠ b.entryID
  last : entries.getLast?.map Entry.stepIndex = some requested.lastCommittedStep
  digest : sha256 (entries.flatMap Entry.outputBytes) = requested.checkpointDigest

theorem Complete.validate (h : Complete sha256 taskID requested entries) :
    validateExternalResumeCheckpoint sha256 taskID requested ⟨taskID, requested, entries⟩ = .ok () := by
  have hne : entries ≠ [] := by
    rintro rfl
    simpa using h.last
  have hfilter : entries.filter Entry.committed = entries := by
    rw [List.filter_eq_self]
    intro e he
    simp [Entry.committed, (h.committed e he).2.1]
  have hsorted : sortEntries entries = entries :=
    List.Pairwise.insertionSort_eq (h.ordered.imp fun hab => Or.inl hab.1)
  have hhash : hashCommitted taskID entries (none, []) = _ :=
    hashCommitted_eq fun e he => ⟨(h.committed e he).1, (h.committed e he).2.2⟩
  simp [validateExternalResumeCheckpoint, hne, hfilter, hsorted, hhash, h.last, h.digest]

/-- A runtime without committed entries accepts the checkpoint and starts after its
watermark. -/
theorem Complete.verified_start (h : Complete sha256 taskID requested entries)
    (hempty : committedEntries log taskID = []) :
    ∃ seeded, verifiedResumeStartStepFromLocalOrCheckpoint sha256 log taskID
      (some (.ok ⟨taskID, requested, entries⟩)) requested =
        (.ok (some (requested.lastCommittedStep + 1)), seeded) := by
  cases hlocal : verifiedResumeStartStep requested (committedState sha256 log taskID).1
      (committedState sha256 log taskID).2 with
  | some s =>
      -- the digest of the empty log is the one of the token
      obtain ⟨-, -, rfl⟩ := verifiedResumeStartStep_eq_some_iff.mp hlocal
      exact ⟨log, verified_start_of_local hlocal⟩
  | none =>
      have hnone : (committedState sha256 log taskID).1 = none := by
        rw [committedState_eq]
        exact lastCommittedStep_eq_none_iff.mpr hempty
      have hordered : (committedEntries log taskID ++ entries).Pairwise
          fun a b => a.stepIndex < b.stepIndex ∧ a.entryID ≠ b.entryID := by
        simpa [hempty] using h.ordered
      obtain ⟨seeded, himport, hseeded⟩ := importEntries_append
        (fun e he => ⟨(h.committed e he).1, (h.committed e he).2.1⟩) hordered
      rw [hempty, List.nil_append] at hseeded
      have hstate : committedState sha256 seeded taskID =
          (some requested.lastCommittedStep, requested.checkpointDigest) := by
        rw [committedState_eq, lastCommittedStep, hseeded, h.last, h.digest]
      refine ⟨seeded, ?_⟩
      rw [hnone] at hlocal
      simp only [verifiedResumeStartStepFromLocalOrCheckpoint, hlocal, hnone, h.validate, himport,
        hstate]
      simp [verifiedResumeStartStep]

end External

end Wal
end Igris
