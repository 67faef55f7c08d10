import Igris.Executor.Steps
import Igris.Wal.Resume

/-!
# The log of a graph with behavior trees

The loop over the steps of a graph and the behavior trees that it runs write to the same
log of the task.  The loop numbers its entries by the step of the graph, a tree numbers
its entries by its own ticks, from one on.

Main results:

- Theorem {lit}`step_effect`: which entry an event commits, and which step it completes.
- Theorem {lit}`integrity_iff`: the committed entries are those of the completed steps all
  along a run exactly if every tick that is committed has the number of a step that is
  already completed, and every step is committed under its position.
-/

namespace Igris
namespace Executor
namespace TreeLog

open Wal (Log Entry Digest CommittedAt)

/-! ## Executions -/

/-- An intent as it is written. -/
structure Intent where
  entryID : Uuid
  timestampMs : UInt64
  stepType : String
  inputDigest : Digest
deriving DecidableEq, Repr

/-- What a commit adds to an entry. -/
structure Commit where
  outputDigest : Digest
  timestampMs : UInt64
  signature : List UInt8
deriving DecidableEq, Repr

/-- What an execution does to the log.  A write that fails and ends the execution is none of
them. -/
inductive Event where
  /-- A request starts the loop.  An execution before it has ended, maybe with its process. -/
  | start (resumeFrom : Option Wal.ResumeToken)
  /-- The loop goes on to its next step. -/
  | writeIntent (intent : Intent)
  /-- The tree of the current step begins a tick; its intent may fail to be written. -/
  | tick (intent : Option Intent)
  | tickCommitted (commit : Commit)
  | writeCommitted (commit : Commit)
  | writeFailed (reason : String) (timestampMs : UInt64)
deriving DecidableEq, Repr

/-- The log and the variables of an execution. -/
structure State where
  log : Log
  /-- The current step and those after it, with their positions in the graph. -/
  steps : List (RuntimeTaskStep × Nat)
  /-- The entry of the current step, once it is executed. -/
  opened : Option Uuid
  tickCount : Nat
  /-- The entry of the current tick. -/
  openTick : Option Uuid
  /-- The positions of the steps that have completed. -/
  completed : List Nat

/-- A state in which nothing is executed. -/
def State.idle (log : Log) (completed : List Nat) : State :=
  ⟨log, [], none, 0, none, completed⟩

section Model

variable (sha256 : List UInt8 → Digest) (taskID : Uuid) (runtimeID : String)
  (nodes : List GraphNode)

def startStep (log : Log) : Option Wal.ResumeToken → Option UInt32
  | none => some 0
  | some token =>
      let (lastStep, digest) := Wal.committedState sha256 log taskID
      Wal.verifiedResumeStartStep token lastStep digest

def putIntent (log : Log) (stepIndex : UInt32) (intent : Intent) : Log :=
  (Wal.writeIntent log taskID runtimeID intent.entryID intent.timestampMs stepIndex
    intent.stepType intent.inputDigest).2

def putCommitted (log : Log) (entryID : Uuid) (commit : Commit) : Option Log :=
  (Wal.writeCommitted log taskID entryID commit.outputDigest commit.timestampMs
    commit.signature).map Prod.snd

def putFailed (log : Log) (entryID : Uuid) (reason : String) (timestampMs : UInt64) :
    Option Log :=
  (log.get (taskID, entryID)).map fun entry =>
    log.put { entry with status := .failed reason, timestampMs := timestampMs }

/-- One event.  Identifiers of entries are new. -/
def step (s : State) : Event → Option State
  | .start resumeFrom =>
      (startStep sha256 taskID s.log resumeFrom).map fun first =>
        { State.idle s.log s.completed with
          steps := (compileExecutionGraphToSteps nodes).zipIdx.filter fun p =>
            decide (first.toNat ≤ p.1.stepIndex) }
  | .writeIntent intent =>
      match s.opened, s.steps with
      | none, (current, _) :: _ =>
          if s.log.get (taskID, intent.entryID) = none then
            some { s with
              log := putIntent taskID runtimeID s.log (UInt32.ofNat current.stepIndex) intent
              opened := some intent.entryID
              tickCount := 0
              openTick := none }
          else none
      | _, _ => none
  | .tick intent =>
      match s.opened, s.steps, intent with
      | some _, (current, _) :: _, none =>
          if current.node.kind = .behaviorTree then
            some { s with tickCount := s.tickCount + 1, openTick := none }
          else none
      | some _, (current, _) :: _, some intent =>
          if current.node.kind = .behaviorTree ∧ s.log.get (taskID, intent.entryID) = none then
            some { s with
              log := putIntent taskID runtimeID s.log (UInt32.ofNat (s.tickCount + 1)) intent
              tickCount := s.tickCount + 1
              openTick := some intent.entryID }
          else none
      | _, _, _ => none
  | .tickCommitted commit =>
      s.openTick.bind fun entryID =>
        (putCommitted taskID s.log entryID commit).map fun log =>
          { s with log := log, openTick := none }
  | .writeCommitted commit =>
      match s.opened, s.steps with
      | some entryID, (_, position) :: rest =>
          (putCommitted taskID s.log entryID commit).map fun log =>
            { State.idle log (position :: s.completed) with steps := rest }
      | _, _ => none
  | .writeFailed reason timestampMs =>
      s.opened.bind fun entryID =>
        (putFailed taskID s.log entryID reason timestampMs).map fun log =>
          State.idle log s.completed

/-- The state after some events. -/
def run (s : State) (events : List Event) : Option State :=
  events.foldlM (step sha256 taskID runtimeID nodes) s

end Model

/-! ## Writes -/

variable {commit : Commit} {event : Event} {events : List Event}

section Writes

variable {taskID : Uuid} {runtimeID : String} {log log' : Log} {entryID : Uuid} {index i : UInt32}

/-- The entry is in the log under the given step, and not committed. -/
def Pending (taskID : Uuid) (log : Log) (entryID : Uuid) (index : UInt32) : Prop :=
  ∃ entry, log.get (taskID, entryID) = some entry ∧ entry.status ≠ .committed ∧
    entry.stepIndex = index

/-- A write of another entry. -/
theorem Pending.put (h : Pending taskID log entryID index) {other : Entry}
    (hother : other.key ≠ (taskID, entryID)) : Pending taskID (log.put other) entryID index := by
  obtain ⟨entry, hget, hstatus, hindex⟩ := h
  refine ⟨entry, ?_, hstatus, hindex⟩
  rw [Relational.Table.get_put, if_neg hother.symm, hget]

theorem committedAt_put_other {entry : Entry}
    (hold : ∀ old, log.get entry.key = some old → old.status ≠ .committed)
    (hentry : entry.status ≠ .committed) :
    CommittedAt (log.put entry) taskID i ↔ CommittedAt log taskID i := by
  rw [Wal.committedAt_iff, Wal.committedAt_iff, Wal.committedEntries_put_other hold hentry]

theorem committedAt_putIntent {intent : Intent}
    (hnew : log.get (taskID, intent.entryID) = none) :
    CommittedAt (putIntent taskID runtimeID log index intent) taskID i ↔
      CommittedAt log taskID i := by
  apply committedAt_put_other
  · intro old hget
    cases hnew.symm.trans hget
  · simp

theorem pending_putIntent (intent : Intent) :
    Pending taskID (putIntent taskID runtimeID log index intent) intent.entryID index :=
  ⟨_, by rw [putIntent, Wal.writeIntent, Relational.Table.get_put]; exact if_pos rfl, by simp, rfl⟩

/-- The entry before and after its commit. -/
theorem putCommitted_eq_some (hpending : Pending taskID log entryID index)
    (h : putCommitted taskID log entryID commit = some log') :
    ∃ entry : Entry, entry.key = (taskID, entryID) ∧ entry.status = .committed ∧
      entry.stepIndex = index ∧ log' = log.put entry := by
  obtain ⟨entry, hget, -, hindex⟩ := hpending
  have hkey : entry.key = (taskID, entryID) := Relational.Table.key_of_get hget
  refine ⟨entry.commit commit.outputDigest commit.timestampMs commit.signature, hkey, rfl, hindex, ?_⟩
  simpa [putCommitted, Wal.writeCommitted, hget] using h.symm

theorem committedAt_putCommitted (hpending : Pending taskID log entryID index)
    (h : putCommitted taskID log entryID commit = some log') :
    CommittedAt log' taskID i ↔ CommittedAt log taskID i ∨ i = index := by
  obtain ⟨entry, hkey, hstatus, hindex, rfl⟩ := putCommitted_eq_some hpending h
  obtain ⟨old, hget, hold, -⟩ := hpending
  have htask : entry.taskID = taskID := congrArg Prod.fst hkey
  simp only [CommittedAt, Relational.Table.mem_put]
  constructor
  · rintro ⟨row, rfl | ⟨hrow, -⟩, hrest⟩
    · exact Or.inr (hrest.2.2.symm.trans hindex)
    · exact Or.inl ⟨row, hrow, hrest⟩
  · rintro (⟨row, hrow, hrest⟩ | rfl)
    · -- the row it replaces is not committed
      refine ⟨row, Or.inr ⟨hrow, fun hrowkey => hold ?_⟩, hrest⟩
      have hsame : row = old := by
        have hfound := Relational.Table.get_of_mem hrow
        rw [hrowkey, hkey, hget] at hfound
        exact (Option.some.inj hfound).symm
      rw [← hsame, hrest.2.1]
    · exact ⟨entry, Or.inl rfl, htask, hstatus, hindex⟩

theorem committedAt_putFailed {reason : String} {timestampMs : UInt64}
    (hpending : Pending taskID log entryID index)
    (h : putFailed taskID log entryID reason timestampMs = some log') :
    CommittedAt log' taskID i ↔ CommittedAt log taskID i := by
  obtain ⟨entry, hget, hstatus, -⟩ := hpending
  have hkey : entry.key = (taskID, entryID) := Relational.Table.key_of_get hget
  have hlog : log' = log.put { entry with status := .failed reason, timestampMs := timestampMs } := by
    simpa [putFailed, hget] using h.symm
  rw [hlog]
  apply committedAt_put_other
  · intro old hold
    have hsame : old = entry := Option.some.inj (hold.symm.trans (hkey ▸ hget))
    rw [hsame]
    exact hstatus
  · simp

end Writes

/-! ## One event -/

/-- The step index of the entry that an event commits. -/
def State.commits (s : State) : Event → Option UInt32
  | .tickCommitted _ => some (UInt32.ofNat s.tickCount)
  | .writeCommitted _ => s.steps.head?.map fun current => UInt32.ofNat current.1.stepIndex
  | _ => none

/-- The position of the step that an event completes. -/
def State.completes (s : State) : Event → Option Nat
  | .writeCommitted _ => s.steps.head?.map Prod.snd
  | _ => none

/-- The entries of the current step and of its current tick are in the log. -/
structure Tracked (taskID : Uuid) (s : State) : Prop where
  opened : ∀ entryID, s.opened = some entryID → ∃ current, s.steps.head? = some current ∧
    Pending taskID s.log entryID (UInt32.ofNat current.1.stepIndex)
  openTick : ∀ entryID, s.openTick = some entryID →
    Pending taskID s.log entryID (UInt32.ofNat s.tickCount)
  distinct : ∀ entryID, s.openTick = some entryID → s.opened ≠ some entryID

theorem Tracked.idle (taskID : Uuid) (log : Log) (steps : List (RuntimeTaskStep × Nat))
    (completed : List Nat) : Tracked taskID { State.idle log completed with steps := steps } where
  opened := by simp [State.idle]
  openTick := by simp [State.idle]
  distinct := by simp [State.idle]

/-- What an event adds to the committed entries and to the completed steps. -/
structure Effect (taskID : Uuid) (s : State) (event : Event) (s' : State) : Prop where
  tracked : Tracked taskID s'
  committed : ∀ i, CommittedAt s'.log taskID i ↔ CommittedAt s.log taskID i ∨ s.commits event = some i
  completed : s'.completed = (s.completes event).toList ++ s.completed

variable {sha256 : List UInt8 → Digest} {taskID : Uuid} {runtimeID : String}
  {nodes : List GraphNode} {s s' : State}

theorem effect_tick {intent : Option Intent} (htracked : Tracked taskID s)
    (h : step sha256 taskID runtimeID nodes s (.tick intent) = some s') :
    Effect taskID s (.tick intent) s' := by
  simp only [step] at h
  split at h
  · rename_i entryID current position rest hopened hsteps
    split at h <;> cases h
    exact ⟨⟨htracked.opened, by simp, by simp⟩, by simp [State.commits], rfl⟩
  · rename_i entryID current position rest intent hopened hsteps
    split at h <;> cases h
    rename_i hguard
    have hother : entryID ≠ intent.entryID := by
      rintro rfl
      obtain ⟨_, _, entry, hget, -⟩ := htracked.opened _ hopened
      simp [hguard.2] at hget
    refine ⟨⟨?_, ?_, ?_⟩, fun i => ?_, rfl⟩
    · intro id hid
      have hsame : entryID = id := Option.some.inj (hopened.symm.trans hid)
      obtain ⟨first, hfirst, hpending⟩ := htracked.opened id hid
      refine ⟨first, hfirst, hpending.put ?_⟩
      rw [← hsame]
      exact fun hkey => hother (congrArg Prod.snd hkey).symm
    · intro id hid
      cases hid
      exact pending_putIntent intent
    · intro id hid
      cases hid
      rw [hopened]
      simpa using hother
    · rw [committedAt_putIntent hguard.2]
      simp [State.commits]
  · cases h

theorem effect_tickCommitted (htracked : Tracked taskID s)
    (h : step sha256 taskID runtimeID nodes s (.tickCommitted commit) = some s') :
    Effect taskID s (.tickCommitted commit) s' := by
  simp only [step, Option.bind_eq_some_iff, Option.map_eq_some_iff] at h
  obtain ⟨tickID, htick, log, hlog, rfl⟩ := h
  have hpending := htracked.openTick tickID htick
  refine ⟨⟨?_, by simp, by simp⟩, fun i => ?_, rfl⟩
  · intro entryID hopened
    obtain ⟨entry, hkey, -, -, rfl⟩ := putCommitted_eq_some hpending hlog
    obtain ⟨current, hcurrent, hstep⟩ := htracked.opened entryID hopened
    refine ⟨current, hcurrent, hstep.put ?_⟩
    rw [hkey]
    intro hsame
    cases hsame
    exact htracked.distinct tickID htick hopened
  · rw [committedAt_putCommitted hpending hlog]
    simp [State.commits, eq_comm]

theorem effect_writeCommitted (htracked : Tracked taskID s)
    (h : step sha256 taskID runtimeID nodes s (.writeCommitted commit) = some s') :
    Effect taskID s (.writeCommitted commit) s' := by
  simp only [step] at h
  split at h
  · rename_i entryID current position rest hopened hsteps
    obtain ⟨log, hlog, rfl⟩ := Option.map_eq_some_iff.mp h
    obtain ⟨first, hfirst, hpending⟩ := htracked.opened entryID hopened
    have hsame : first = (current, position) := by simpa [hsteps] using hfirst.symm
    refine ⟨Tracked.idle _ _ _ _, fun i => ?_, by simp [State.completes, State.idle, hsteps]⟩
    rw [State.idle, committedAt_putCommitted hpending hlog]
    simp [State.commits, hsteps, hsame, eq_comm]
  · cases h

/-- The committed entries and the completed steps after an event. -/
theorem step_effect (htracked : Tracked taskID s)
    (h : step sha256 taskID runtimeID nodes s event = some s') : Effect taskID s event s' := by
  cases event with
  | start resumeFrom =>
      obtain ⟨first, -, rfl⟩ := Option.map_eq_some_iff.mp h
      exact ⟨Tracked.idle _ _ _ _, by simp [State.commits, State.idle], rfl⟩
  | writeIntent intent =>
      simp only [step] at h
      split at h
      · rename_i current position rest hopened hsteps
        split at h <;> cases h
        rename_i hnew
        refine ⟨⟨?_, by simp, by simp⟩, fun i => ?_, rfl⟩
        · intro entryID hentry
          cases hentry
          exact ⟨(current, position), by rw [hsteps]; rfl, pending_putIntent intent⟩
        · rw [committedAt_putIntent hnew]
          simp [State.commits]
      · cases h
  | tick intent => exact effect_tick htracked h
  | tickCommitted commit => exact effect_tickCommitted htracked h
  | writeCommitted commit => exact effect_writeCommitted htracked h
  | writeFailed reason timestampMs =>
      simp only [step, Option.bind_eq_some_iff, Option.map_eq_some_iff] at h
      obtain ⟨entryID, hopened, log, hlog, rfl⟩ := h
      refine ⟨Tracked.idle _ _ _ _, fun i => ?_, rfl⟩
      obtain ⟨current, -, hpending⟩ := htracked.opened entryID hopened
      rw [State.idle, committedAt_putFailed hpending hlog]
      simp [State.commits]

/-! ## Integrity -/

/-- The committed entries are those of the completed steps, and so are the watermark and the step
at which a verified token resumes. -/
structure Integrity (sha256 : List UInt8 → Digest) (taskID : Uuid) (s : State) : Prop where
  committed : ∀ i : Nat, (∃ index, CommittedAt s.log taskID index ∧ index.toNat = i) ↔ i ∈ s.completed
  watermark : (Wal.committedState sha256 s.log taskID).1.map UInt32.toNat = s.completed.max?
  resume : ∀ token first, startStep sha256 taskID s.log (some token) = some first →
    first.toNat = (s.completed.max?.getD 0 + 1) % UInt32.size

/-- The watermark is the largest committed step. -/
theorem integrity_of_committed
    (h : ∀ i : Nat, (∃ index, CommittedAt s.log taskID index ∧ index.toNat = i) ↔ i ∈ s.completed) :
    Integrity sha256 taskID s := by
  have hwatermark : (Wal.committedState sha256 s.log taskID).1.map UInt32.toNat =
      s.completed.max? := by
    rw [Wal.committedState_eq]
    cases hlast : Wal.lastCommittedStep s.log taskID with
    | none =>
        have hnone : s.completed = [] := by
          apply List.eq_nil_iff_forall_not_mem.mpr
          intro i hi
          obtain ⟨index, hindex, -⟩ := (h i).mpr hi
          rw [Wal.committedAt_iff, Wal.lastCommittedStep_eq_none_iff.mp hlast] at hindex
          simp at hindex
        simp [hnone]
    | some last =>
        obtain ⟨hmem, hmax⟩ := Wal.lastCommittedStep_eq_some_iff.mp hlast
        refine (List.max?_eq_some_iff.mpr ⟨?_, ?_⟩).symm
        · exact (h last.toNat).mp ⟨last, Wal.committedAt_iff.mpr hmem, rfl⟩
        · intro i hi
          obtain ⟨index, hindex, rfl⟩ := (h i).mpr hi
          obtain ⟨entry, hentry, rfl⟩ := Wal.committedAt_iff.mp hindex
          exact UInt32.le_iff_toNat_le.mp (hmax entry hentry)
  refine ⟨h, hwatermark, ?_⟩
  intro token first hfirst
  have hverified : Wal.verifiedResumeStartStep token (Wal.committedState sha256 s.log taskID).1
      (Wal.committedState sha256 s.log taskID).2 = some first := hfirst
  obtain ⟨-, hlast, rfl⟩ := Wal.verifiedResumeStartStep_eq_some_iff.mp hverified
  rw [← hwatermark, ← hlast]
  cases (Wal.committedState sha256 s.log taskID).1 <;> simp [UInt32.toNat_add]

/-- The event commits a step that is completed with it or was completed before, and completes a
step that is committed. -/
structure Keeps (s : State) (event : Event) : Prop where
  commits : ∀ index, s.commits event = some index →
    index.toNat ∈ s.completed ∨ s.completes event = some index.toNat
  completes : ∀ position, s.completes event = some position →
    position ∈ s.completed ∨ (s.commits event).map UInt32.toNat = some position

theorem Effect.integrity_eq_iff (heffect : Effect taskID s event s')
    (h : Integrity sha256 taskID s) : Integrity sha256 taskID s' ↔ Keeps s event := by
  have hmem : ∀ i, i ∈ s'.completed ↔ s.completes event = some i ∨ i ∈ s.completed := by
    intro i
    rw [heffect.completed, List.mem_append, Option.mem_toList]
  constructor
  · intro hafter
    refine ⟨fun index hindex => ?_, fun position hposition => ?_⟩
    · have hcommitted := (hafter.committed index.toNat).mp
        ⟨index, (heffect.committed index).mpr (Or.inr hindex), rfl⟩
      exact ((hmem _).mp hcommitted).symm
    · obtain ⟨index, hindex, rfl⟩ := (hafter.committed position).mpr ((hmem _).mpr (Or.inl hposition))
      rcases (heffect.committed index).mp hindex with hbefore | hnow
      · exact Or.inl ((h.committed _).mp ⟨index, hbefore, rfl⟩)
      · exact Or.inr (by rw [hnow, Option.map_some])
  · intro hkeeps
    apply integrity_of_committed
    intro i
    rw [hmem]
    constructor
    · rintro ⟨index, hindex, rfl⟩
      rcases (heffect.committed index).mp hindex with hbefore | hnow
      · exact Or.inr ((h.committed _).mp ⟨index, hbefore, rfl⟩)
      · exact (hkeeps.commits index hnow).symm
    · intro hi
      have hcases : i ∈ s.completed ∨ (s.commits event).map UInt32.toNat = some i :=
        hi.elim (hkeeps.completes i) Or.inl
      rcases hcases with hbefore | hnow
      · obtain ⟨index, hindex, rfl⟩ := (h.committed i).mpr hbefore
        exact ⟨index, (heffect.committed index).mpr (Or.inl hindex), rfl⟩
      · obtain ⟨index, hindex, rfl⟩ := Option.map_eq_some_iff.mp hnow
        exact ⟨index, (heffect.committed index).mpr (Or.inr hindex), rfl⟩

/-! ## Runs -/

/-- Every event of a run keeps the committed entries and the completed steps together. -/
def EveryKeeps (sha256 : List UInt8 → Digest) (taskID : Uuid) (runtimeID : String)
    (nodes : List GraphNode) (s : State) (events : List Event) : Prop :=
  ∀ before event m, before ++ [event] <+: events →
    run sha256 taskID runtimeID nodes s before = some m → Keeps m event

theorem run_cons :
    run sha256 taskID runtimeID nodes s (event :: events) =
      (step sha256 taskID runtimeID nodes s event).bind fun m =>
        run sha256 taskID runtimeID nodes m events := by
  rw [run, List.foldlM_cons]
  rfl

/-- The first event and the rest of a run. -/
theorem everyKeeps_cons (h : step sha256 taskID runtimeID nodes s event = some s') :
    EveryKeeps sha256 taskID runtimeID nodes s (event :: events) ↔
      Keeps s event ∧ EveryKeeps sha256 taskID runtimeID nodes s' events := by
  constructor
  · intro hkeeps
    refine ⟨hkeeps [] event s (by simp) rfl, fun before next m hbefore hrun => ?_⟩
    apply hkeeps (event :: before) next m
    · simpa using hbefore
    · rw [run_cons, h, Option.bind_some, hrun]
  · rintro ⟨hfirst, hrest⟩ before next m hbefore hrun
    cases before with
    | nil =>
        cases hrun
        have hnext : next = event := by simpa using hbefore
        rwa [hnext]
    | cons other before =>
        simp only [List.cons_append, List.cons_prefix_cons] at hbefore
        obtain ⟨rfl, hbefore⟩ := hbefore
        rw [run_cons, h, Option.bind_some] at hrun
        exact hrest before next m hbefore hrun

theorem integrity_of_tracked (htracked : Tracked taskID s) (h : Integrity sha256 taskID s)
    (hrun : (run sha256 taskID runtimeID nodes s events).isSome) :
    (∀ before m, before <+: events → run sha256 taskID runtimeID nodes s before = some m →
        Integrity sha256 taskID m) ↔
      EveryKeeps sha256 taskID runtimeID nodes s events := by
  induction events generalizing s with
  | nil =>
      refine ⟨fun _ before event m hbefore => ?_, fun _ before m hbefore hm => ?_⟩
      · simp at hbefore
      · rw [List.prefix_nil.mp hbefore] at hm
        cases hm
        exact h
  | cons event events ih =>
      rw [run_cons] at hrun
      cases hstep : step sha256 taskID runtimeID nodes s event with
      | none => simp [hstep] at hrun
      | some s' =>
          have heffect := step_effect htracked hstep
          rw [hstep, Option.bind_some] at hrun
          rw [everyKeeps_cons hstep, ← heffect.integrity_eq_iff h]
          constructor
          · intro hall
            have hnext : Integrity sha256 taskID s' :=
              hall [event] s' (by simp) (by rw [run_cons, hstep]; rfl)
            refine ⟨hnext, (ih heffect.tracked hnext hrun).mp fun before m hbefore hm => ?_⟩
            apply hall (event :: before) m
            · simpa using hbefore
            · rw [run_cons, hstep, Option.bind_some, hm]
          · rintro ⟨hnext, hrest⟩ before m hbefore hm
            cases before with
            | nil =>
                cases hm
                exact h
            | cons other before =>
                obtain ⟨rfl, hshorter⟩ := List.cons_prefix_cons.mp hbefore
                rw [run_cons, hstep, Option.bind_some] at hm
                exact (ih heffect.tracked hnext hrun).mpr hrest before m hshorter hm

/-- From a log whose committed entries are those of the completed steps: in every state of a run
they are, and watermark and start step count completed steps only, exactly if every commit in
the run is one of a completed step under its position. -/
theorem integrity_iff (sha256 : List UInt8 → Digest) (taskID : Uuid) (runtimeID : String)
    (nodes : List GraphNode) (log : Log) (completed : List Nat) (events : List Event)
    (h : Integrity sha256 taskID (State.idle log completed))
    (hrun : (run sha256 taskID runtimeID nodes (State.idle log completed) events).isSome) :
    (∀ before m, before <+: events →
        run sha256 taskID runtimeID nodes (State.idle log completed) before = some m →
          Integrity sha256 taskID m) ↔
      EveryKeeps sha256 taskID runtimeID nodes (State.idle log completed) events :=
  integrity_of_tracked (Tracked.idle taskID log [] completed) h hrun

/-! ## A tree in front -/

/-- A graph of a tree and a tool call. -/
def treeThenTool : List GraphNode :=
  [{ kind := .behaviorTree, nodeID := "tree", text := "" },
    { kind := .tool, nodeID := "tool", text := "" }]

/-- The tree ticks once and the first step completes; then the process ends. -/
def oneTick : List Event :=
  [.start none, .writeIntent ⟨1, 0, "", Wal.firstBytes []⟩,
    .tick (some ⟨2, 0, "", Wal.firstBytes []⟩), .tickCommitted ⟨Wal.firstBytes [1], 0, []⟩,
    .writeCommitted ⟨Wal.firstBytes [2], 0, []⟩]

theorem run_oneTick :
    (run Wal.firstBytes 7 "runtime-a" treeThenTool (State.idle Relational.Table.empty []) oneTick).map
        (fun m => (m.completed, (Wal.committedState Wal.firstBytes m.log 7).1,
          startStep Wal.firstBytes 7 m.log (some ⟨1, Wal.firstBytes [2], "runtime-a"⟩))) =
      some ([0], some 1, some 2) := by
  decide +kernel

theorem not_integrity_oneTick {m : State}
    (h : run Wal.firstBytes 7 "runtime-a" treeThenTool (State.idle Relational.Table.empty [])
      oneTick = some m) : ¬Integrity Wal.firstBytes 7 m := by
  intro hintegrity
  have hresult := run_oneTick
  simp only [h, Option.map_some, Option.some.injEq, Prod.mk.injEq] at hresult
  have hwatermark := hintegrity.watermark
  rw [hresult.1, hresult.2.1] at hwatermark
  revert hwatermark
  decide

theorem integrity_empty (sha256 : List UInt8 → Digest) (taskID : Uuid) :
    Integrity sha256 taskID (State.idle Relational.Table.empty []) := by
  apply integrity_of_committed
  intro i
  simp [State.idle, CommittedAt, Relational.Table.empty]

/-- The log after one tick of a tree at the first position: the watermark is step one and the
task resumes at step two, but only step zero has completed. -/
theorem tick_taken_for_next_step :
    ∃ m, run Wal.firstBytes 7 "runtime-a" treeThenTool (State.idle Relational.Table.empty [])
        oneTick = some m ∧ m.completed = [0] ∧
      (Wal.committedState Wal.firstBytes m.log 7).1 = some 1 ∧
      startStep Wal.firstBytes 7 m.log (some ⟨1, Wal.firstBytes [2], "runtime-a"⟩) = some 2 ∧
      ¬Integrity Wal.firstBytes 7 m := by
  obtain ⟨m, hrun, hresult⟩ := Option.map_eq_some_iff.mp run_oneTick
  simp only [Prod.mk.injEq] at hresult
  exact ⟨m, hrun, hresult.1, hresult.2.1, hresult.2.2, not_integrity_oneTick hrun⟩

/-- The tick has the number of a step that is not completed. -/
theorem oneTick_not_everyKeeps :
    Integrity Wal.firstBytes 7 (State.idle Relational.Table.empty []) ∧
      ¬EveryKeeps Wal.firstBytes 7 "runtime-a" treeThenTool (State.idle Relational.Table.empty [])
        oneTick := by
  refine ⟨integrity_empty _ _, fun hkeeps => ?_⟩
  obtain ⟨m, hrun, -⟩ := Option.map_eq_some_iff.mp run_oneTick
  have hall := (integrity_iff Wal.firstBytes 7 "runtime-a" treeThenTool Relational.Table.empty []
    oneTick (integrity_empty _ _) (by rw [hrun]; rfl)).mpr hkeeps
  exact not_integrity_oneTick hrun (hall oneTick m (List.prefix_refl _) hrun)

end TreeLog
end Executor
end Igris
