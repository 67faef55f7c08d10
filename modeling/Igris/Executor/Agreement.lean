import Igris.Executor.Backed
import Igris.Store.History

/-!
# Agreement of log, checkpoints and recovery

A recovery recomputes the digest of a checkpoint on another runtime, over the entries
that the coordinator collected from all stored checkpoints.  It agrees with the one the
first runtime computed, since every checkpoint it sent is backed by its log.

Main results:

- Theorem {lit}`TaskRun.sound`: all checkpoints of a run are backed.
- Theorem {lit}`merged_complete`: what the coordinator merges is a complete checkpoint.
- Theorem {lit}`recovery_agrees`: whatever prefix of the stored checkpoints is merged,
  a runtime without committed entries accepts the result and resumes after its watermark.
-/

namespace Igris
namespace Executor

open Concurrency Relational Program

/-! ## Runs of a task on one runtime -/

/-- The answer of the runtime reaches the coordinator, with the checkpoint in it. -/
def RuntimeState.answer (s : RuntimeState) (result : Option RuntimeResponse) : RuntimeState :=
  { s with sent := s.sent ++ (result.bind returnedCheckpoint).toList }

/-- Requests for one task are executed one after the other; each may be cut off. -/
inductive TaskRun (env : Environment) (ok : RuntimeState → (a : Action) → Answer a → Prop)
    (runtimeID : String) (taskID : Uuid) : RuntimeState → Prop where
  | start (s : RuntimeState) (hnew : ∀ cp, s.Holds cp → cp.taskID ≠ taskID) :
      TaskRun env ok runtimeID taskID s
  | dispatch {s s' : RuntimeState} {result : Option RuntimeResponse} (req : RuntimeTaskRequest)
      (htask : req.taskID = taskID) (hrun : TaskRun env ok runtimeID taskID s)
      (hexec : RunsTo (performLocal env) ok (handleTaskSubmit runtimeID req) s result s') :
      TaskRun env ok runtimeID taskID (s'.answer result)
/-- In every run of a task whose steps are orderly, all checkpoints are backed. -/
theorem TaskRun.sound {env : Environment} {runtimeID : String} {taskID : Uuid} {s : RuntimeState}
    (h : TaskRun env (Orderly env) runtimeID taskID s) : Sound env taskID s := by
  induction h with
  | start s hnew => exact fun cp htask hcp => absurd htask (hnew cp hcp)
  | @dispatch s s' result req htask hrun hexec ih =>
      subst htask
      obtain ⟨hsound, hanswered⟩ := hexec.of_meets (handleTaskSubmit_meets runtimeID ih) ih
      intro cp hcp hholds
      obtain hsent | hrecord := hholds
      · simp only [RuntimeState.answer, List.mem_append, Option.mem_toList] at hsent
        obtain hsent | hreturned := hsent
        · exact hsound cp hcp (Or.inl hsent)
        · obtain ⟨response, hresponse, hreturned⟩ := Option.bind_eq_some_iff.mp hreturned
          exact (hanswered response hresponse).2 cp hreturned hcp
      · exact hsound cp hcp (Or.inr hrecord)

/-! ## Recovery from stored checkpoints -/

section Merge

variable {sha256 : List UInt8 → Wal.Digest} {entries : List Wal.Entry} {taskID : Uuid}

/-- The coordinator stores a backed checkpoint as it was sent. -/
theorem Backed.reload {cp : CheckpointPayload} (h : Backed sha256 entries cp)
    (husable : taskRecoveryCheckpointUsable taskID (some cp) = true) : cp.reload = cp := by
  have hconsistent := (taskRecoveryCheckpointUsable_iff.mp husable).2.1
  have hentries : cp.walEntries.map WalEntry.reload = cp.walEntries := by
    by_cases hne : cp.walEntries = []
    · simp [hne]
    · have hsame : ∀ e ∈ cp.walEntries, e.reload = id e := by
        intro e he
        obtain ⟨entry, -, -, rfl⟩ := (h hne hconsistent).2.2 e he
        exact entry.report_reload
      rw [List.map_congr_left hsame, List.map_id]
  unfold CheckpointPayload.reload
  rw [hentries]

/-- Entries with the steps of a numbered list that report members of it report it. -/
theorem eq_map_report {collected : List WalEntry} {n : Nat}
    (hcollected : collected.map WalEntry.stepIndex = List.range n)
    (hentries : entries.map (fun entry => entry.stepIndex.toNat) = List.range n)
    (hreported : ∀ e ∈ collected, Reported entries e) :
    collected = entries.map Wal.Entry.report ∧ ∀ entry ∈ entries, entry.Portable := by
  have hlength : collected.length = n := by simpa using congrArg List.length hcollected
  have hlength' : entries.length = n := by simpa using congrArg List.length hentries
  have hstep : ∀ (i : Nat) (hi : i < entries.length), entries[i].stepIndex.toNat = i := by
    intro i hi
    have hget := List.getElem_of_eq hentries (i := i) (by simpa using hi)
    simpa using hget
  have hindex : ∀ (i : Nat) (hi : i < collected.length) (hi' : i < entries.length),
      collected[i] = entries[i].report ∧ entries[i].Portable := by
    intro i hi hi'
    obtain ⟨entry, hmem, hportable, hreport⟩ := hreported _ (List.getElem_mem hi)
    obtain ⟨j, hj, rfl⟩ := List.getElem_of_mem hmem
    have hi'' : collected[i].stepIndex = i := by
      have hget := List.getElem_of_eq hcollected (i := i) (by simpa using hi)
      simpa using hget
    obtain rfl : j = i := by
      rw [hreport] at hi''
      exact (hstep j hj).symm.trans hi''
    exact ⟨hreport, hportable⟩
  constructor
  · apply List.ext_getElem
    · simp [hlength, hlength']
    · intro i hi hi'
      rw [List.getElem_map]
      exact (hindex i hi (by omega)).1
  · intro entry hmem
    obtain ⟨i, hi, rfl⟩ := List.getElem_of_mem hmem
    exact (hindex i (by omega) hi).2

end Merge

section Merged

variable {sha256 : List UInt8 → Wal.Digest} {log : Wal.Log} {taskID : Uuid}
  {cps : List CheckpointPayload} {cum : CheckpointPayload}

/-- The furthest of the merged checkpoints carries the entry of its watermark. -/
theorem latest_walEntries_ne_nil {latest : CheckpointPayload}
    (hdeltas : StoredDeltas taskID cps latest)
    (hmono : (cps.map CheckpointPayload.watermark).Pairwise (· < ·))
    (hcovered : ∃ e ∈ committedEntries cps, e.stepIndex = latest.watermark) :
    latest.walEntries ≠ [] := by
  obtain ⟨e, he, hstep⟩ := hcovered
  obtain ⟨cp, hcp, hentry⟩ := List.mem_flatMap.mp he
  have hmem := (List.mem_filter.mp hentry).1
  have hconsistent := (taskRecoveryCheckpointUsable_iff.mp (hdeltas.usable cp hcp)).2.1
  have hle := (taskCheckpointWatermarkConsistent_iff.mp hconsistent).1 e hmem
  have hmax := hdeltas.max cp hcp
  have hnodup : (cps.map CheckpointPayload.watermark).Nodup := hmono.imp Nat.ne_of_lt
  have hsame : cp = latest :=
    List.inj_on_of_nodup_map hnodup hcp hdeltas.mem (by omega)
  rw [← hsame]
  exact List.ne_nil_of_mem hmem

/-- The entries of a log up to a step, as a runtime needs them to resume after it. -/
theorem complete_take {requested : Wal.ResumeToken} {n : Nat}
    (hsteps : StepsTo (Wal.committedEntries log taskID) (n + 1))
    (houtput : ∀ e ∈ (Wal.committedEntries log taskID).take (n + 1), e.outputDigest.isSome)
    (hlast : requested.lastCommittedStep.toNat = n)
    (hdigest : sha256 (((Wal.committedEntries log taskID).take (n + 1)).flatMap
      Wal.Entry.outputBytes) = requested.checkpointDigest) :
    Wal.Complete sha256 taskID requested ((Wal.committedEntries log taskID).take (n + 1)) := by
  have hmem : ∀ e ∈ (Wal.committedEntries log taskID).take (n + 1),
      e ∈ log.rows ∧ e.taskID = taskID ∧ e.status = .committed := by
    intro e he
    exact Wal.mem_committedEntries.mp (List.mem_of_mem_take he)
  have hlt : ((Wal.committedEntries log taskID).take (n + 1)).Pairwise
      fun a b => a.stepIndex.toNat < b.stepIndex.toNat := by
    apply List.pairwise_map.mp
    rw [hsteps]
    exact List.pairwise_lt_range
  refine ⟨fun e he => ⟨(hmem e he).2.1, (hmem e he).2.2, houtput e he⟩, ?_, ?_, hdigest⟩
  · apply hlt.imp_of_mem
    intro a b ha hb hab
    refine ⟨UInt32.lt_iff_toNat_lt.mpr hab, ?_⟩
    intro hid
    have hkey : a.key = b.key := by rw [Wal.Entry.key, Wal.Entry.key, (hmem a ha).2.1,
      (hmem b hb).2.1, hid]
    rw [Wal.eq_of_key (hmem a ha).1 (hmem b hb).1 hkey] at hab
    exact hab.false
  · have hgetLast := congrArg List.getLast? hsteps
    rw [List.getLast?_map, List.range_succ, List.getLast?_concat] at hgetLast
    obtain ⟨last, hentry, hstep⟩ := Option.map_eq_some_iff.mp hgetLast
    rw [hentry, Option.map_some, Option.some.injEq]
    apply UInt32.toNat_inj.mp
    rw [hstep, hlast]

/-- What the coordinator merges from backed checkpoints decodes to a complete one. -/
theorem merged_complete (hbacked : ∀ cp ∈ cps, Backed sha256 (Wal.committedEntries log taskID) cp)
    (husable : ∀ cp ∈ cps, taskRecoveryCheckpointUsable taskID (some cp) = true)
    (hmono : (cps.map CheckpointPayload.watermark).Pairwise (· < ·))
    (hbound : ∀ cp ∈ cps, cp.watermark < Store.stepIndexBound)
    (hbuild : buildCumulativeRecoveryCheckpoint taskID (cps.map some) = .ok (some cum)) :
    ∃ token collected, Wal.ResumeToken.ofJSON cum.resumeToken = some token ∧
      Wal.CheckpointPayload.ofJSON cum = some ⟨taskID, token, collected⟩ ∧
      Wal.Complete sha256 taskID token collected ∧
      token.lastCommittedStep.toNat = cum.watermark ∧ cum.watermark < Store.stepIndexBound := by
  have hne : cps ≠ [] := by
    rintro rfl
    unfold buildCumulativeRecoveryCheckpoint at hbuild
    split at hbuild
    · cases hbuild
    · cases hbuild
  obtain ⟨latest, hdeltas, -⟩ := exists_storedDeltas hne husable
  obtain ⟨cum', hcum, htoken, hcollected, hsource, hcumUsable⟩ := hdeltas.result_ok hbuild
  cases hcum
  have hconsistent := (taskRecoveryCheckpointUsable_iff.mp (husable latest hdeltas.mem)).2.1
  have hcovered : ∃ e ∈ committedEntries cps, e.stepIndex = latest.watermark := by
    have hrange : latest.watermark ∈ cum.walEntries.map WalEntry.stepIndex := by
      rw [hcollected, List.mem_range]
      omega
    obtain ⟨e, he, hstep⟩ := List.mem_map.mp hrange
    exact ⟨e, (hsource e he).1, hstep⟩
  have hentries := latest_walEntries_ne_nil hdeltas hmono hcovered
  obtain ⟨hsteps, hdigest, -⟩ := hbacked latest hdeltas.mem hentries hconsistent
  set kept := (Wal.committedEntries log taskID).take (latest.watermark + 1) with hkept
  have hreported : ∀ e ∈ cum.walEntries, Reported kept e := by
    intro e he
    obtain ⟨cp, hcp, hentry⟩ := List.mem_flatMap.mp (hsource e he).1
    have hmem := (List.mem_filter.mp hentry).1
    have hcpConsistent := (taskRecoveryCheckpointUsable_iff.mp (husable cp hcp)).2.1
    have hcpReported := (hbacked cp hcp (List.ne_nil_of_mem hmem) hcpConsistent).2.2 e hmem
    apply hcpReported.mono
    exact List.take_prefix_take_left (by have := hdeltas.max cp hcp; omega)
  obtain ⟨hreport, hportable⟩ := eq_map_report hcollected hsteps hreported
  have hwatermark := hbound latest hdeltas.mem
  have hsize : latest.watermark < UInt32.size := by
    unfold Store.stepIndexBound at hwatermark
    unfold UInt32.size
    omega
  have hjson : Wal.ResumeToken.ofJSON cum.resumeToken =
      some ⟨UInt32.ofNat latest.watermark, sha256 (kept.flatMap Wal.Entry.outputBytes),
        latest.resumeToken.runtimeID⟩ := by
    have hfields : latest.resumeToken = ⟨latest.watermark,
        Text.hexEncode (sha256 (kept.flatMap Wal.Entry.outputBytes)).1,
        latest.resumeToken.runtimeID⟩ := by
      rw [← digestOf, ← hdigest]
    rw [htoken, hfields]
    exact Wal.ResumeToken.ofJSON_hexEncode hsize
  have hlast : (UInt32.ofNat latest.watermark).toNat = latest.watermark :=
    UInt32.toNat_ofNat_of_lt' hsize
  have hsame : cum.watermark = latest.watermark := by
    rw [CheckpointPayload.watermark, htoken]
  refine ⟨_, kept, hjson, ?_, complete_take hsteps ?_ hlast rfl, ?_, ?_⟩
  · rw [Wal.CheckpointPayload.ofJSON, hjson, hreport, Wal.decodeEntries_report hportable,
      (taskRecoveryCheckpointUsable_iff.mp hcumUsable).1]
  · exact fun e he => (hportable e he).output
  · rw [hsame]
    exact hlast
  · rw [hsame]
    exact hwatermark

end Merged

/-- In every run of a task on a runtime whose steps are orderly, if the coordinator
merges any prefix of what it stored of the checkpoints the runtime sent, then a runtime
without committed entries accepts the result and resumes at the watermark plus one. -/
theorem recovery_agrees (env : Environment) (runtimeID : String) (taskID : Uuid) (s : RuntimeState)
    (hrun : TaskRun env (Orderly env) runtimeID taskID s)
    (jsonb : TaskDefinition → TaskDefinition) (τ : List StoreEvent) (store : Store)
    (hstore : StoreRun jsonb .empty τ store) (hsent : ∀ cp ∈ acceptedFor τ taskID, cp ∈ s.sent)
    (n : Nat) (cum : CheckpointPayload)
    (hbuild : buildCumulativeRecoveryCheckpoint taskID
      (((store.checkpointsOf taskID).take n).map some) = .ok (some cum))
    (log : Wal.Log) (hempty : Wal.committedEntries log taskID = []) :
    ∃ token checkpoint start seeded, Wal.ResumeToken.ofJSON cum.resumeToken = some token ∧
      Wal.CheckpointPayload.ofJSON cum = some checkpoint ∧
      Wal.validateExternalResumeCheckpoint env.sha256 taskID token checkpoint = .ok () ∧
      Wal.verifiedResumeStartStepFromLocalOrCheckpoint env.sha256 log taskID
        (some (.ok checkpoint)) token = (.ok (some start), seeded) ∧
      start.toNat = cum.watermark + 1 := by
  have hinv := hstore.checkpointInvariant
  have hsound := hrun.sound
  have husable := hinv.usable taskID
  have hbacked : ∀ cp ∈ acceptedFor τ taskID,
      Backed env.sha256 (Wal.committedEntries s.log taskID) cp := by
    intro cp hcp
    exact hsound cp (taskRecoveryCheckpointUsable_iff.mp (husable cp hcp)).1 (Or.inl (hsent cp hcp))
  have hstored : (store.checkpointsOf taskID).take n = (acceptedFor τ taskID).take n := by
    have hreload : ∀ cp ∈ acceptedFor τ taskID, cp.reload = id cp := fun cp hcp =>
      (hbacked cp hcp).reload (husable cp hcp)
    rw [hinv.history, List.map_congr_left hreload, List.map_id]
  rw [hstored] at hbuild
  have hmono : (((acceptedFor τ taskID).take n).map CheckpointPayload.watermark).Pairwise (· < ·) :=
    (hinv.increasing taskID).sublist ((List.take_sublist n _).map _)
  obtain ⟨token, collected, htoken, hcheckpoint, hcomplete, hlast, hbound⟩ := merged_complete
    (fun cp hcp => hbacked cp (List.mem_of_mem_take hcp))
    (fun cp hcp => husable cp (List.mem_of_mem_take hcp)) hmono
    (fun cp hcp => hstore.accepted_bounded (List.mem_of_mem_take hcp)) hbuild
  obtain ⟨seeded, hstart⟩ := hcomplete.verified_start hempty
  refine ⟨token, _, _, seeded, htoken, hcheckpoint, hcomplete.validate, hstart, ?_⟩
  unfold Store.stepIndexBound at hbound
  rw [UInt32.toNat_add, hlast]
  exact Nat.mod_eq_of_lt (by simp; omega)

/-! ## Two dispatches of one task -/

/-- Dispatch a request again and again, each time with the answers of a table. -/
def dispatchAll (ok : RuntimeState → (a : Action) → Answer a → Prop)
    [∀ s a answer, Decidable (ok s a answer)] (runtimeID : String) (req : RuntimeTaskRequest) :
    List ((a : Action) → RuntimeState → Option (Answer a × RuntimeState)) → RuntimeState →
      Option RuntimeState
  | [], s => some s
  | respond :: rest, s =>
      match (handleTaskSubmit runtimeID req).runUnder ok respond s with
      | some (result, s') => dispatchAll ok runtimeID req rest (s'.answer (some result))
      | none => none

theorem taskRun_of_dispatchAll {env : Environment}
    {ok : RuntimeState → (a : Action) → Answer a → Prop} [∀ s a answer, Decidable (ok s a answer)]
    {runtimeID : String} {req : RuntimeTaskRequest}
    {responds : List ((a : Action) → RuntimeState → Option (Answer a × RuntimeState))}
    (hresponds : ∀ respond ∈ responds, ∀ a s answer s', respond a s = some (answer, s') →
      performLocal env a answer s = some s')
    {s s' : RuntimeState} (hrun : TaskRun env ok runtimeID req.taskID s)
    (h : dispatchAll ok runtimeID req responds s = some s') :
    TaskRun env ok runtimeID req.taskID s' := by
  induction responds generalizing s with
  | nil =>
      cases h
      exact hrun
  | cons respond rest ih =>
      simp only [dispatchAll] at h
      split at h
      · rename_i result s₁ hexec
        have hfirst := runsTo_of_runUnder (hresponds respond List.mem_cons_self) hexec
        exact ih (fun r hr => hresponds r (List.mem_cons_of_mem _ hr))
          (hrun.dispatch req rfl hfirst) h
      · cases h

/-- A digest function that can be evaluated: it counts the bytes. -/
def countBytes (bytes : List UInt8) : Wal.Digest :=
  ⟨List.replicate 32 (UInt8.ofNat bytes.length), List.length_replicate⟩

def countingEnvironment : Environment where
  sha256 := countBytes
  hashRequest := fun hashed => hashed.tenantID
  ticks := fun _ _ => []
  importedBefore := fun _ _ => 0

/-- A task with one step. -/
def singleStepRequest : RuntimeTaskRequest where
  taskID := 7
  tenantID := "acme"
  endpoint := "http://rt-a"
  taskDefinition := {
    text := ""
    taskType := .executionGraph
    graphNodes := [⟨.tool, "send", none, "", "", {}, ""⟩] }
  idempotencyKey := "order-1"
  resumeFrom := none
  resumeCheckpoint := none

/-- The storage works, but the digest may be unreadable. -/
def storing (digestReadable : Bool) : (a : Action) → RuntimeState → Option (Answer a × RuntimeState)
  | .test _, s => some (false, s)
  | .submissionRecord _ _ _, s => some (none, s)
  | .persistTaskRecord tenantID key hashed response, s =>
      some (.ok (), s.record countingEnvironment tenantID key hashed response)
  | .permissionFailureForStep _, s => some (none, s)
  | .walWriteIntent taskID step, s =>
      let entryID := BitVec.ofNat 128 (s.log.rows.length + 1)
      let stepIndex := UInt32.ofNat step.stepIndex
      let (intent, log) := Wal.writeIntent s.log taskID "rt-a" entryID 0 stepIndex "\"Tool\""
        (countBytes [])
      if stepIndex.toNat = step.stepIndex ∧ entryID ≠ Uuid.nil ∧
          s.log.get (taskID, entryID) = none then
        some (.ok intent.report, { s with log := log })
      else none
  | .walWriteCommitted intent outputDigest, s =>
      if outputDigest = Text.hexEncode (countBytes [1]).1 then
        (s.log.get (intent.taskID, intent.entryID)).map fun entry =>
          let committed := entry.commit (countBytes [1]) 0 (List.replicate 64 0)
          (.ok committed.report, { s with log := s.log.put committed })
      else none
  | .walComputeDigest taskID, s =>
      if digestReadable then some (.ok (s.committedState countingEnvironment taskID).2, s)
      else some (.error "storage error", s)
  | .executeStep _ step, s =>
      if step.node.kind = .behaviorTree then none
      else some (.ok { outputDigest := Text.hexEncode (countBytes [1]).1 }, s)
  | .buildExecutionArtifacts _, s => some (.ok (none, none), s)
  | .sendCallback callback, s =>
      match callback.body with
      | .checkpoint cp => some (⟨true, .ok ()⟩, { s with sent := s.sent ++ [cp] })
      | _ => some (⟨true, .ok ()⟩, s)
  | _, _ => none

theorem performLocal_storing {digestReadable : Bool} {a : Action} {answer : Answer a}
    {s s' : RuntimeState} (h : storing digestReadable a s = some (answer, s')) :
    performLocal countingEnvironment a answer s = some s' := by
  cases a with
  | walWriteIntent taskID step =>
      simp only [storing, Option.ite_none_right_eq_some, Option.some.injEq, Prod.mk.injEq] at h
      obtain ⟨⟨hstep, hid, hfree⟩, rfl, rfl⟩ := h
      rw [performLocal_walWriteIntent]
      exact writeIntent_report hstep hid hfree
  | walWriteCommitted intent outputDigest =>
      simp only [storing, Option.ite_none_right_eq_some, Option.map_eq_some_iff,
        Prod.mk.injEq] at h
      obtain ⟨rfl, entry, hget, rfl, rfl⟩ := h
      rw [performLocal_walWriteCommitted]
      exact writeCommitted_report hget List.length_replicate
  | walComputeDigest taskID =>
      simp only [storing] at h
      split at h
      · cases h
        simp [performLocal]
      · cases h
        rfl
  | executeStep req step =>
      simp only [storing, Option.ite_none_left_eq_some, Option.some.injEq, Prod.mk.injEq] at h
      obtain ⟨hkind, rfl, rfl⟩ := h
      simp [performLocal, hkind]
  | sendCallback callback =>
      simp only [storing] at h
      split at h <;> rename_i hbody <;> cases h <;> simp [performLocal, hbody]
  | test | submissionRecord | persistTaskRecord | permissionFailureForStep |
    buildExecutionArtifacts =>
      cases h
      simp [performLocal]
  | _ => cases h

/-- The only step, committed under an identifier. -/
def stepEntry (entryID : Uuid) : Wal.Entry :=
  (Wal.writeIntent Table.empty 7 "rt-a" entryID 0 0 "\"Tool\"" (countBytes [])).1.commit
    (countBytes [1]) 0 (List.replicate 64 0)

/-- A checkpoint after the only step. -/
def stepCheckpoint (entryID : Uuid) (digest : Wal.Digest) : CheckpointPayload where
  taskID := 7
  resumeToken := ⟨0, Text.hexEncode digest.1, "rt-a"⟩
  walEntries := [(stepEntry entryID).report]
  metadata := some ""

/-- The coordinator saves what the runtime sent. -/
def saveSent (sent : List CheckpointPayload) : List StoreEvent × Store :=
  executeAll id .empty ([.createTask sampleTask none, .markDispatched 7 "rt-a" "http://rt-a"] ++
    sent.map .saveCheckpoint)

theorem storeRun_saveSent (sent : List CheckpointPayload) :
    StoreRun id .empty (saveSent sent).1 (saveSent sent).2 :=
  storeRun_executeAll id .empty _

theorem checkpointsOf_saveSent {entryID : Uuid} {digest : Wal.Digest}
    {sent : List CheckpointPayload}
    (h : acceptedFor (saveSent sent).1 7 = [stepCheckpoint entryID digest]) :
    (saveSent sent).2.checkpointsOf 7 = [stepCheckpoint entryID digest] := by
  rw [(storeRun_saveSent sent).checkpointInvariant.history, h]
  simp [CheckpointPayload.reload, stepCheckpoint, Wal.Entry.report_reload]

/-- A runtime that holds nothing is where a run may start. -/
theorem taskRun_emptyRuntime (env : Environment)
    (ok : RuntimeState → (a : Action) → Answer a → Prop) (runtimeID : String) (taskID : Uuid) :
    TaskRun env ok runtimeID taskID emptyRuntime := by
  apply TaskRun.start
  intro cp hcp
  simp [RuntimeState.Holds, emptyRuntime, Table.empty] at hcp

/-- One dispatch of the task, stored and recovered on an empty runtime. -/
theorem recovery_agrees_after_one_dispatch :
    ∃ s cum token checkpoint start seeded,
      TaskRun countingEnvironment (Orderly countingEnvironment) "rt-a" 7 s ∧
      cum ∈ s.sent ∧ cum.watermark = 0 ∧
      Wal.validateExternalResumeCheckpoint countBytes 7 token checkpoint = .ok () ∧
      Wal.verifiedResumeStartStepFromLocalOrCheckpoint countBytes emptyRuntime.log 7
        (some (.ok checkpoint)) token = (.ok (some start), seeded) ∧ start.toNat = 1 := by
  let cp := stepCheckpoint 1 (countBytes (List.replicate 32 0))
  have hdispatch : (dispatchAll (Orderly countingEnvironment) "rt-a" singleStepRequest
      [storing true] emptyRuntime).map RuntimeState.sent = some [cp, cp] := by
    decide +kernel
  obtain ⟨s, hs, hsent⟩ := Option.map_eq_some_iff.mp hdispatch
  have hrun : TaskRun countingEnvironment (Orderly countingEnvironment) "rt-a" 7 s := by
    apply taskRun_of_dispatchAll _ (taskRun_emptyRuntime _ _ _ _) hs
    simp only [List.mem_singleton, forall_eq]
    exact fun a s answer s' => performLocal_storing
  have haccepted : acceptedFor (saveSent [cp, cp]).1 7 = [cp] := by decide +kernel
  have hstored : (saveSent [cp, cp]).2.checkpointsOf 7 = [cp] := checkpointsOf_saveSent haccepted
  have hbuild : buildCumulativeRecoveryCheckpoint 7
      ((((saveSent [cp, cp]).2.checkpointsOf 7).take 1).map some) = .ok (some cp) := by
    rw [hstored]
    decide +kernel
  obtain ⟨token, checkpoint, start, seeded, -, -, hvalid, hstart, hnext⟩ :=
    recovery_agrees countingEnvironment "rt-a" 7 s hrun id _ _ (storeRun_saveSent [cp, cp])
      (by rw [haccepted, hsent]; simp) 1 cp hbuild emptyRuntime.log (by decide)
  exact ⟨s, cp, token, checkpoint, start, seeded, hrun, by simp [hsent], rfl, hvalid, hstart, hnext⟩

/-- The task is dispatched twice.  The first execution commits the step but cannot read
the digest for its checkpoint; the second one commits the step again, and the digest it
sends covers both entries.  The merged checkpoint has one of them and is refused. -/
theorem repeated_dispatch_is_refused :
    ∃ s τ store cum token checkpoint,
      TaskRun countingEnvironment (fun _ _ _ => True) "rt-a" 7 s ∧
      StoreRun id .empty τ store ∧ (∀ cp ∈ acceptedFor τ 7, cp ∈ s.sent) ∧
      buildCumulativeRecoveryCheckpoint 7 ((store.checkpointsOf 7).map some) = .ok (some cum) ∧
      Wal.ResumeToken.ofJSON cum.resumeToken = some token ∧
      Wal.CheckpointPayload.ofJSON cum = some checkpoint ∧
      Wal.validateExternalResumeCheckpoint countBytes 7 token checkpoint =
        .error "resume checkpoint digest mismatch" := by
  let digest := countBytes (List.replicate 64 0)
  let cp := stepCheckpoint 2 digest
  have hdispatch : (dispatchAll (fun _ _ _ => True) "rt-a" singleStepRequest
      [storing false, storing true] emptyRuntime).map RuntimeState.sent = some [cp, cp] := by
    decide +kernel
  obtain ⟨s, hs, hsent⟩ := Option.map_eq_some_iff.mp hdispatch
  have hrun : TaskRun countingEnvironment (fun _ _ _ => True) "rt-a" 7 s := by
    apply taskRun_of_dispatchAll _ (taskRun_emptyRuntime _ _ _ _) hs
    simp only [List.mem_cons, List.not_mem_nil, or_false, forall_eq_or_imp, forall_eq]
    exact ⟨fun a s answer s' => performLocal_storing, fun a s answer s' => performLocal_storing⟩
  have haccepted : acceptedFor (saveSent [cp, cp]).1 7 = [cp] := by decide +kernel
  have hstored : (saveSent [cp, cp]).2.checkpointsOf 7 = [cp] := checkpointsOf_saveSent haccepted
  have htoken : Wal.ResumeToken.ofJSON cp.resumeToken = some ⟨0, digest, "rt-a"⟩ :=
    Wal.ResumeToken.ofJSON_hexEncode (by decide)
  have hportable : ∀ entry ∈ [stepEntry 2], entry.Portable := by
    simp only [List.mem_singleton, forall_eq]
    exact ⟨rfl, rfl, by rintro _ ⟨⟩; simp⟩
  have hwal : cp.walEntries = [stepEntry 2].map Wal.Entry.report := rfl
  refine ⟨s, _, _, cp, _, ⟨7, ⟨0, digest, "rt-a"⟩, [stepEntry 2]⟩, hrun,
    storeRun_saveSent [cp, cp], ?_, ?_, htoken, ?_, by decide +kernel⟩
  · rw [haccepted, hsent]
    simp
  · rw [hstored]
    decide +kernel
  · rw [Wal.CheckpointPayload.ofJSON, htoken, hwal, Wal.decodeEntries_report hportable]
    rfl

end Executor
end Igris
