import Igris.Wal.Resume

/-!
# Importing a checkpoint

A runtime without entries of a task validates the checkpoint that came with a request and
stores its entries one by one.  The validation reads the list of entries, the comparison
after the import reads the log, which holds one entry for each identifier.

Main results:

- Theorem {lit}`import_exact_iff`: which accepted checkpoints verify after the import.
- Theorem {lit}`failed_resume_iff`: a failed attempt leaves the log as it was exactly if what
  it stored was there before.
-/

namespace Igris
namespace Wal

open Relational

/-! ## Storage that fails -/

/-- Import entries into storage that takes a number of writes and fails at the next one. -/
def importEntriesUntil (taskID : Uuid) : Log → List Entry → Nat → Log × Except String Unit
  | log, [], _ => (log, .ok ())
  | log, entry :: entries, writes =>
      if entry.taskID ≠ taskID then
        (log, .error ("checkpoint entry task_id " ++ entry.taskID.string ++ " does not match " ++
          taskID.string))
      else
        match writes with
        | 0 => (log, .error "storage error")
        | writes + 1 => importEntriesUntil taskID (log.put entry) entries writes

/-- The step to resume from and the log afterwards, with storage that takes a number of writes. -/
def resumeUntil (sha256 : List UInt8 → Digest) (log : Log) (taskID : Uuid)
    (resumeCheckpoint : Option (Except String CheckpointPayload)) (requested : ResumeToken)
    (writes : Nat) : Except String (Option UInt32) × Log :=
  let (localLastStep, localDigest) := committedState sha256 log taskID
  match verifiedResumeStartStep requested localLastStep localDigest with
  | some startStep => (.ok (some startStep), log)
  | none =>
      if localLastStep.isSome then (.ok none, log)
      else
        match resumeCheckpoint with
        | none => (.ok none, log)
        | some (.error err) => (.error err, log)
        | some (.ok checkpoint) =>
            match validateExternalResumeCheckpoint sha256 taskID requested checkpoint with
            | .error err => (.error err, log)
            | .ok _ =>
                match importEntriesUntil taskID log checkpoint.walEntries writes with
                | (seeded, .error err) => (.error err, seeded)
                | (seeded, .ok _) =>
                    let (seededLastStep, seededDigest) := committedState sha256 seeded taskID
                    (.ok (verifiedResumeStartStep requested seededLastStep seededDigest), seeded)

/-- The entries that an import stores before it ends. -/
def stored (taskID : Uuid) (entries : List Entry) (writes : Nat) : List Entry :=
  (entries.takeWhile fun entry => decide (entry.taskID = taskID)).take writes

variable {sha256 : List UInt8 → Digest} {log : Log} {taskID : Uuid} {requested : ResumeToken}
  {entries : List Entry} {writes : Nat}

theorem importEntriesUntil_of_le (h : entries.length ≤ writes) :
    importEntriesUntil taskID log entries writes = importEntries taskID log entries := by
  induction entries generalizing log writes with
  | nil => rfl
  | cons entry entries ih =>
      obtain ⟨writes, rfl⟩ : ∃ n, writes = n + 1 := ⟨writes - 1, by simp at h; omega⟩
      rw [importEntriesUntil, importEntries]
      split
      · rfl
      · exact ih (by simpa using h)

/-- With storage that does not fail, this is the attempt of the runtime. -/
theorem resumeUntil_of_le {checkpoint : CheckpointPayload}
    (h : checkpoint.walEntries.length ≤ writes) :
    resumeUntil sha256 log taskID (some (.ok checkpoint)) requested writes =
      verifiedResumeStartStepFromLocalOrCheckpoint sha256 log taskID (some (.ok checkpoint))
        requested := by
  rw [resumeUntil, verifiedResumeStartStepFromLocalOrCheckpoint]
  simp only [importEntriesUntil_of_le h] <;> rfl

theorem importEntriesUntil_log (log : Log) (entries : List Entry) (writes : Nat) :
    (importEntriesUntil taskID log entries writes).1 =
      (stored taskID entries writes).foldl Table.put log := by
  induction entries generalizing log writes with
  | nil => simp [importEntriesUntil, stored]
  | cons entry entries ih =>
      by_cases htask : entry.taskID = taskID
      · cases writes with
        | zero => simp [importEntriesUntil, stored, htask]
        | succ writes => simpa [importEntriesUntil, stored, htask] using ih _ _
      · simp [importEntriesUntil, stored, htask]

theorem taskID_of_mem_stored {entry : Entry} (h : entry ∈ stored taskID entries writes) :
    entry.taskID = taskID := by
  simpa using List.all_eq_true.mp List.all_takeWhile entry (List.mem_of_mem_take h)

/-- Entries of a task leave the entries of other tasks alone. -/
theorem get_foldl_put_other (h : ∀ entry ∈ entries, entry.taskID = taskID) {key : Uuid × Uuid}
    (hkey : key.1 ≠ taskID) : (entries.foldl Table.put log).get key = log.get key := by
  rw [Table.get_foldl_put, List.find?_eq_none.mpr, Option.none_or]
  intro entry hentry hfound
  rw [← of_decide_eq_true hfound] at hkey
  exact hkey (h entry (List.mem_reverse.mp hentry))

/-- What an attempt has done to the log. -/
theorem resumeUntil_log (resumeCheckpoint : Option (Except String CheckpointPayload)) :
    ((resumeUntil sha256 log taskID resumeCheckpoint requested writes).2 = log ∧
        ∀ err, (resumeUntil sha256 log taskID resumeCheckpoint requested writes).1 = .error err →
          ∀ checkpoint, resumeCheckpoint = some (.ok checkpoint) →
            validateExternalResumeCheckpoint sha256 taskID requested checkpoint ≠ .ok ()) ∨
      ∃ checkpoint, resumeCheckpoint = some (.ok checkpoint) ∧
        validateExternalResumeCheckpoint sha256 taskID requested checkpoint = .ok () ∧
        (resumeUntil sha256 log taskID resumeCheckpoint requested writes).2 =
          (stored taskID checkpoint.walEntries writes).foldl Table.put log := by
  unfold resumeUntil
  dsimp only
  split
  · exact .inl ⟨rfl, nofun⟩
  split
  · exact .inl ⟨rfl, nofun⟩
  cases resumeCheckpoint with
  | none => exact .inl ⟨rfl, nofun⟩
  | some decoded =>
      cases decoded with
      | error err => exact .inl ⟨rfl, fun _ _ => nofun⟩
      | ok checkpoint =>
          cases hvalid : validateExternalResumeCheckpoint sha256 taskID requested checkpoint with
          | error err =>
              refine .inl ⟨by simp [hvalid], ?_⟩
              rintro _ - _ ⟨⟩ hok
              rw [hvalid] at hok
              cases hok
          | ok _ =>
              refine .inr ⟨checkpoint, rfl, hvalid, ?_⟩
              rw [← importEntriesUntil_log]
              simp only [hvalid]
              split <;> rename_i himport <;> rw [himport]

/-- An attempt writes no entry of another task.  If it fails, it leaves the log as it was exactly
if the checkpoint was refused, or what was stored under each key was there before. -/
theorem failed_resume_iff (sha256 : List UInt8 → Digest) (log : Log) (taskID : Uuid)
    (resumeCheckpoint : Option (Except String CheckpointPayload)) (requested : ResumeToken)
    (writes : Nat) :
    (∀ key : Uuid × Uuid, key.1 ≠ taskID →
      (resumeUntil sha256 log taskID resumeCheckpoint requested writes).2.get key = log.get key) ∧
    ∀ err, (resumeUntil sha256 log taskID resumeCheckpoint requested writes).1 = .error err →
      ((∀ key, (resumeUntil sha256 log taskID resumeCheckpoint requested writes).2.get key =
          log.get key) ↔
        ∀ checkpoint, resumeCheckpoint = some (.ok checkpoint) →
          validateExternalResumeCheckpoint sha256 taskID requested checkpoint = .ok () →
          ∀ key entry, ((stored taskID checkpoint.walEntries writes).reverse.find?
            fun entry => decide (entry.key = key)) = some entry → log.get key = some entry) := by
  obtain ⟨hlog, hrefused⟩ | ⟨checkpoint, rfl, hvalid, hlog⟩ := resumeUntil_log resumeCheckpoint
  · rw [hlog]
    refine ⟨fun _ _ => rfl, fun err herr => iff_of_true (fun _ => rfl) ?_⟩
    intro checkpoint hcheckpoint hvalid
    exact absurd hvalid (hrefused err herr checkpoint hcheckpoint)
  · rw [hlog]
    refine ⟨fun key hkey => get_foldl_put_other (fun _ => taskID_of_mem_stored) hkey, ?_⟩
    simp only [Table.get_foldl_put]
    intro _ _
    constructor
    · rintro hsame _ ⟨⟩ - key entry hfound
      rw [← hsame key, hfound, Option.some_or]
    · intro hthere key
      cases hfound : (stored taskID checkpoint.walEntries writes).reverse.find?
          fun entry => decide (entry.key = key) with
      | none => rw [Option.none_or]
      | some entry => rw [Option.some_or, hthere checkpoint rfl hvalid key entry hfound]

/-! ## Accepted checkpoints -/

theorem importEntries_eq_ok_iff {seeded : Log} :
    importEntries taskID log entries = (seeded, .ok ()) ↔
      (∀ entry ∈ entries, entry.taskID = taskID) ∧ seeded = entries.foldl Table.put log := by
  induction entries generalizing log with
  | nil => simp [importEntries, eq_comm]
  | cons entry entries ih =>
      rw [importEntries]
      by_cases htask : entry.taskID = taskID
      · simp [htask, ih]
      · simp [htask]

/-- An accepted checkpoint has an entry with an output at the step of the token. -/
theorem exists_of_hashCommitted {acc : Option UInt32 × List UInt8} {step : UInt32}
    {hashed : List UInt8} (h : hashCommitted taskID entries acc = .ok (some step, hashed)) :
    acc.1 = some step ∨ ∃ entry ∈ entries, entry.stepIndex = step := by
  induction entries generalizing acc with
  | nil =>
      cases h
      exact .inl rfl
  | cons entry entries ih =>
      rw [hashCommitted] at h
      split at h
      · cases h
      split at h
      all_goals
        obtain hacc | ⟨later, hlater, hstep⟩ := ih h
      · exact .inr ⟨entry, List.mem_cons_self, Option.some.inj hacc⟩
      · exact .inr ⟨later, List.mem_cons_of_mem _ hlater, hstep⟩
      · exact .inl hacc
      · exact .inr ⟨later, List.mem_cons_of_mem _ hlater, hstep⟩

theorem exists_of_validate {checkpoint : CheckpointPayload}
    (h : validateExternalResumeCheckpoint sha256 taskID requested checkpoint = .ok ()) :
    ∃ entry ∈ checkpoint.walEntries, entry.status = .committed ∧
      entry.stepIndex = requested.lastCommittedStep := by
  unfold validateExternalResumeCheckpoint at h
  split_ifs at h
  split at h
  · cases h
  · rename_i lastStep hashed hhash
    split_ifs at h with hlast
    rw [not_not] at hlast
    subst hlast
    obtain hnone | ⟨entry, hentry, hstep⟩ := exists_of_hashCommitted hhash
    · cases hnone
    · rw [sortEntries, List.mem_insertionSort, List.mem_filter] at hentry
      exact ⟨entry, hentry.1, of_decide_eq_true hentry.2, hstep⟩

/-- The entries of a checkpoint that are taken over as they were validated: they are of the task
and have identifiers of their own, those that are repeated do not change the digest, no
committed one lies beyond the token, and the token is not at the largest step. -/
structure Importable (sha256 : List UInt8 → Digest) (taskID : Uuid) (requested : ResumeToken)
    (entries : List Entry) : Prop where
  task : ∀ entry ∈ entries, entry.taskID = taskID
  identified : ∀ a ∈ entries, ∀ b ∈ entries, a.entryID = b.entryID → a = b
  digest : sha256 ((sortEntries (entries.dedup.filter Entry.committed)).flatMap
    Entry.outputBytes) = requested.checkpointDigest
  bounded : ∀ entry ∈ entries, entry.status = .committed →
    entry.stepIndex ≤ requested.lastCommittedStep
  successor : requested.lastCommittedStep.toNat + 1 < UInt32.size

theorem committedEntries_eq_sortEntries {seeded : Log}
    (h : ∀ entry, entry ∈ seeded.rows ∧ entry.taskID = taskID ↔ entry ∈ entries) :
    committedEntries seeded taskID = sortEntries (entries.dedup.filter Entry.committed) := by
  have hperm := List.perm_insertionSort Entry.le (entries.dedup.filter Entry.committed)
  apply committedEntries_eq_of_mem (sortEntries_pairwise _)
  · exact hperm.nodup_iff.mpr ((List.nodup_dedup entries).filter _)
  · intro entry
    rw [mem_committedEntries, sortEntries, List.mem_insertionSort, List.mem_filter,
      List.mem_dedup, ← h entry, and_assoc]
    simp [Entry.committed]

/-- The log after the import holds the entries of the checkpoint. -/
theorem Importable.mem_rows (h : Importable sha256 taskID requested entries)
    (hempty : ∀ entry ∈ log.rows, entry.taskID ≠ taskID) (entry : Entry) :
    entry ∈ (entries.foldl Table.put log).rows ∧ entry.taskID = taskID ↔ entry ∈ entries := by
  rw [Table.mem_rows_iff, Table.get_foldl_put]
  constructor
  · rintro ⟨hget, htask⟩
    obtain hfound | ⟨-, hold⟩ := Option.or_eq_some_iff.mp hget
    · exact List.mem_reverse.mp (List.mem_of_find?_eq_some hfound)
    · exact absurd htask (hempty entry (Table.mem_of_get hold))
  · intro hentry
    refine ⟨?_, h.task entry hentry⟩
    cases hfound : entries.reverse.find? fun other => decide (other.key = entry.key) with
    | none =>
        have hother := List.find?_eq_none.mp hfound entry (List.mem_reverse.mpr hentry)
        simp at hother
    | some other =>
        have hkey : other.key = entry.key := by simpa using List.find?_some hfound
        have hother := List.mem_reverse.mp (List.mem_of_find?_eq_some hfound)
        rw [Option.some_or, h.identified other hother entry hentry (Prod.mk.inj hkey).2]

/-- A runtime that holds no entry of the task verifies the token after the import, and then holds
exactly the entries of the checkpoint, exactly if they are taken over as they were validated. -/
theorem import_exact_iff (sha256 : List UInt8 → Digest) (log : Log) (taskID : Uuid)
    (requested : ResumeToken) (checkpoint : CheckpointPayload)
    (hempty : ∀ entry ∈ log.rows, entry.taskID ≠ taskID)
    (hvalid : validateExternalResumeCheckpoint sha256 taskID requested checkpoint = .ok ()) :
    (∃ seeded start, importEntries taskID log checkpoint.walEntries = (seeded, .ok ()) ∧
      verifiedResumeStartStep requested (committedState sha256 seeded taskID).1
        (committedState sha256 seeded taskID).2 = some start ∧
      start.toNat = requested.lastCommittedStep.toNat + 1 ∧
      (∀ entry, entry ∈ seeded.rows ∧ entry.taskID = taskID ↔ entry ∈ checkpoint.walEntries) ∧
      ∀ key : Uuid × Uuid, key.1 ≠ taskID → seeded.get key = log.get key) ↔
    Importable sha256 taskID requested checkpoint.walEntries := by
  obtain ⟨top, htop, hcommitted, hstep⟩ := exists_of_validate hvalid
  simp only [verifiedResumeStartStep_eq_some_iff, committedState_eq]
  constructor
  · rintro ⟨seeded, start, himport, ⟨hdigest, hlast, rfl⟩, hnext, hmem, -⟩
    have hrow : ∀ entry ∈ checkpoint.walEntries, entry.status = .committed →
        entry ∈ committedEntries seeded taskID := by
      intro entry hentry hstatus
      obtain ⟨hrow, htask⟩ := (hmem entry).mpr hentry
      exact mem_committedEntries.mpr ⟨hrow, htask, hstatus⟩
    refine ⟨(importEntries_eq_ok_iff.mp himport).1, ?_, ?_, ?_, ?_⟩
    · intro a ha b hb hid
      obtain ⟨harow, hatask⟩ := (hmem a).mpr ha
      obtain ⟨hbrow, hbtask⟩ := (hmem b).mpr hb
      exact eq_of_key harow hbrow (by rw [Entry.key, Entry.key, hatask, hbtask, hid])
    · rw [← committedEntries_eq_sortEntries hmem, hdigest]
    · intro entry hentry hstatus
      cases hsome : lastCommittedStep seeded taskID with
      | none =>
          have hmem := hrow entry hentry hstatus
          simp [lastCommittedStep_eq_none_iff.mp hsome] at hmem
      | some last =>
          rw [hsome, Option.getD_some] at hlast
          exact hlast ▸ (lastCommittedStep_eq_some_iff.mp hsome).2 entry (hrow entry hentry hstatus)
    · rw [← hnext]
      exact UInt32.toNat_lt _
  · intro h
    have hmem := h.mem_rows hempty
    have hentries := committedEntries_eq_sortEntries hmem
    have hlast : lastCommittedStep (checkpoint.walEntries.foldl Table.put log) taskID =
        some requested.lastCommittedStep := by
      rw [lastCommittedStep_eq_some_iff]
      refine ⟨⟨top, ?_, hstep⟩, ?_⟩
      · obtain ⟨hrow, htask⟩ := (hmem top).mpr htop
        exact mem_committedEntries.mpr ⟨hrow, htask, hcommitted⟩
      · intro entry hentry
        obtain ⟨hrow, htask, hstatus⟩ := mem_committedEntries.mp hentry
        exact h.bounded entry ((hmem entry).mp ⟨hrow, htask⟩) hstatus
    refine ⟨_, _, importEntries_eq_ok_iff.mpr ⟨h.task, rfl⟩, ⟨?_, ?_, rfl⟩, ?_, hmem,
      fun key hkey => get_foldl_put_other h.task hkey⟩
    · rw [hentries, h.digest]
    · rw [hlast, Option.getD_some]
    · rw [UInt32.toNat_add]
      exact Nat.mod_eq_of_lt h.successor

/-- A committed entry of one task. -/
def sampleEntry (entryID : Uuid) (step : UInt32) (output : Option Digest) : Entry :=
  ⟨entryID, 7, step, "\"Checkpoint\"", .committed, firstBytes [], output, 0, "runtime-a", none⟩

def sampleToken : ResumeToken := ⟨0, firstBytes [1], "runtime-a"⟩

/-- The first step with its output, and further entries. -/
def sampleCheckpoint (further : List Entry) : CheckpointPayload :=
  ⟨7, sampleToken, sampleEntry 1 0 (some (firstBytes [1])) :: further⟩

/-- A checkpoint of one step is taken over. -/
theorem one_step_imported :
    ∃ seeded start, importEntries 7 Table.empty (sampleCheckpoint []).walEntries =
        (seeded, .ok ()) ∧
      verifiedResumeStartStep sampleToken (committedState firstBytes seeded 7).1
        (committedState firstBytes seeded 7).2 = some start ∧ start.toNat = 1 := by
  have himportable : Importable firstBytes 7 sampleToken (sampleCheckpoint []).walEntries := by
    refine ⟨by simp [sampleCheckpoint, sampleEntry], by simp [sampleCheckpoint],
      by decide +kernel, ?_, by decide⟩
    simp [sampleCheckpoint, sampleEntry, sampleToken]
  obtain ⟨seeded, start, himport, hverify, hstart, -⟩ := (import_exact_iff firstBytes Table.empty 7
    sampleToken (sampleCheckpoint []) (by simp [Table.empty]) (by decide +kernel)).mpr himportable
  exact ⟨seeded, start, himport, hverify, hstart⟩

/-- A committed entry without an output is validated as if it were not there, but its step counts
in the log. -/
theorem step_without_output_not_verified :
    validateExternalResumeCheckpoint firstBytes 7 sampleToken
        (sampleCheckpoint [sampleEntry 2 1 none]) = .ok () ∧
      (importEntries 7 Table.empty (sampleCheckpoint [sampleEntry 2 1 none]).walEntries).2 =
        .ok () ∧
      (verifiedResumeStartStepFromLocalOrCheckpoint firstBytes Table.empty 7
        (some (.ok (sampleCheckpoint [sampleEntry 2 1 none]))) sampleToken).1 = .ok none := by
  decide +kernel

/-- Storage that fails at once leaves nothing behind. -/
theorem first_write_failed_unchanged :
    (resumeUntil firstBytes Table.empty 7 (some (.ok (sampleCheckpoint []))) sampleToken 0).1 =
        .error "storage error" ∧
      ∀ key, (resumeUntil firstBytes Table.empty 7 (some (.ok (sampleCheckpoint []))) sampleToken
        0).2.get key = (Table.empty : Log).get key := by
  have hfailed : (resumeUntil firstBytes Table.empty 7 (some (.ok (sampleCheckpoint [])))
      sampleToken 0).1 = .error "storage error" := by
    decide +kernel
  refine ⟨hfailed, ((failed_resume_iff firstBytes Table.empty 7 _ sampleToken 0).2 "storage error"
    hfailed).mpr ?_⟩
  intro checkpoint _ _ key entry hfound
  simp [stored] at hfound

/-- Storage that fails at the second write leaves the first entry. -/
theorem second_write_failed_leaves_entry :
    (resumeUntil firstBytes Table.empty 7 (some (.ok (sampleCheckpoint [sampleEntry 2 1 none])))
        sampleToken 1).1 = .error "storage error" ∧
      (resumeUntil firstBytes Table.empty 7 (some (.ok (sampleCheckpoint
        [sampleEntry 2 1 none]))) sampleToken 1).2.get (7, 1) ≠
        (Table.empty : Log).get (7, 1) := by
  decide +kernel

end Wal
end Igris
