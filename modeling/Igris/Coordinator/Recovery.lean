import Igris.System.Schedule

/-!
# What a recovery pass leaves behind

A pass first moves every task of a silent runtime to recovering, and then takes
care of one task after the other.  A later pass looks for dispatched and
checkpointed tasks only, so a task that the pass leaves in recovering stays there.

Main results:

- Theorem {lit}`recoverTask_resolves_iff`: the round of one task ends its recovering
  status exactly when none of the reads it needs and no status write was refused.
- Theorem {lit}`recoverRuntime_resolves_iff`: the same for a whole pass.
- Theorem {lit}`recovery_strands_task`: a refused read strands the task.
-/

namespace Igris
namespace Coordinator

open Concurrency

/-- The task is in status recovering. -/
def IsRecovering (id : Uuid) (s : State) : Prop :=
  ∃ t, s.store.task id = some t ∧ t.status = .recovering

/-! ## What the pass learns about a task -/

def taskRead (id : Uuid) : Performed Action Answer → Option (Except ReadError TaskRecord)
  | ⟨.getTask id' _, answer⟩ => if id' = id then some answer else none
  | _ => none

def governanceRead (id : Uuid) : Performed Action Answer → Option (Except String Unit)
  | ⟨.call (.hydrateTaskPermissionEnvelope id'), answer⟩ => if id' = id then some answer else none
  | _ => none

def checkpointRead (id : Uuid) :
    Performed Action Answer → Option (Except ReadError (List CheckpointPayload))
  | ⟨.getAllCheckpoints id', answer⟩ => if id' = id then some answer else none
  | _ => none

/-- The answer to a statement that ends the recovering status of the task. -/
def statusWrite (id : Uuid) : Performed Action Answer → Option StoreAnswer
  | ⟨.store (.markFailedWithDetails id' _ _), answer⟩ => if id' = id then some answer else none
  | ⟨.store (.markDispatched id' _ _), answer⟩ => if id' = id then some answer else none
  | _ => none

/-- The first write of the status was not refused. -/
def Written (id : Uuid) (done : List (Performed Action Answer)) : Prop :=
  done.findSome? (statusWrite id) ≠ some (.error .database)

/-- The reads that the round of the task needs succeeded, and so did its first write
of the status.  The checkpoints are needed unless the task cannot be resumed
anyway. -/
structure Resolves (id : Uuid) (t : TaskRecord) (done : List (Performed Action Answer)) :
    Prop where
  read : ∃ task, done.findSome? (taskRead id) = some (.ok task)
  governance : done.findSome? (governanceRead id) = some (.ok ())
  checkpoints : taskSupportsRecoveryResume t = true →
    ∃ checkpoints, done.findSome? (checkpointRead id) = some (.ok checkpoints)
  written : Written id done

/-- What a pass learned about the task so far. -/
@[ext]
structure Learned where
  read : Option (Except ReadError TaskRecord) := none
  governance : Option (Except String Unit) := none
  checkpoints : Option (Except ReadError (List CheckpointPayload)) := none
  write : Option StoreAnswer := none

def Learned.note (id : Uuid) (l : Learned) (d : Performed Action Answer) : Learned where
  read := Prog.noteFirst (taskRead id) l.read d
  governance := Prog.noteFirst (governanceRead id) l.governance d
  checkpoints := Prog.noteFirst (checkpointRead id) l.checkpoints d
  write := Prog.noteFirst (statusWrite id) l.write d

/-- What was learned lets the round end the recovering status. -/
structure Learned.Resolves (t : TaskRecord) (l : Learned) : Prop where
  read : ∃ task, l.read = some (.ok task)
  governance : l.governance = some (.ok ())
  checkpoints : taskSupportsRecoveryResume t = true → ∃ cps, l.checkpoints = some (.ok cps)
  written : l.write ≠ some (.error .database)

variable {t : TaskRecord} {l : Learned}

theorem resolves_foldl {id : Uuid} {done : List (Performed Action Answer)} :
    (done.foldl (Learned.note id) {}).Resolves t ↔ Resolves id t done := by
  have hnoted : done.foldl (Learned.note id) {} = ⟨done.findSome? (taskRead id),
      done.findSome? (governanceRead id), done.findSome? (checkpointRead id),
      done.findSome? (statusWrite id)⟩ := by
    ext1
    · exact (List.foldl_hom Learned.read fun _ _ => rfl).symm.trans (Prog.foldl_noteFirst _ _ _)
    · exact (List.foldl_hom Learned.governance fun _ _ => rfl).symm.trans (Prog.foldl_noteFirst _ _ _)
    · exact (List.foldl_hom Learned.checkpoints fun _ _ => rfl).symm.trans (Prog.foldl_noteFirst _ _ _)
    · exact (List.foldl_hom Learned.write fun _ _ => rfl).symm.trans (Prog.foldl_noteFirst _ _ _)
  rw [hnoted]
  exact ⟨fun h => ⟨h.1, h.2, h.3, h.4⟩, fun h => ⟨h.1, h.2, h.3, h.4⟩⟩

/-- The reads of the round were answered so. -/
structure Learned.Read (task : TaskRecord) (cps : Except ReadError (List CheckpointPayload))
    (l : Learned) : Prop where
  read : l.read = some (.ok task)
  governance : l.governance = some (.ok ())
  checkpoints : l.checkpoints = some cps

/-- The first answers count. -/
theorem Learned.Read.note {id : Uuid} {task : TaskRecord}
    {cps : Except ReadError (List CheckpointPayload)} (h : l.Read task cps)
    (d : Performed Action Answer) : (l.note id d).Read task cps := by
  constructor <;> simp [Learned.note, h.read, h.governance, h.checkpoints]

/-- Every execution of the program ends so, with what is learned about the task. -/
def Ascertains {α : Type} (jsonb : TaskDefinition → TaskDefinition) (id : Uuid)
    (post : α → State → Learned → Prop) (p : Program α) (s : State) (l : Learned) : Prop :=
  p.Follows (perform jsonb) (Learned.note id) (fun _ _ => True) post s l

section Writes

variable {jsonb : TaskDefinition → TaskDefinition} {s s' : State} {id : Uuid}

/-- The statement ends the recovering status of the task. -/
inductive EndsRecovering (id : Uuid) : StoreOp → Prop where
  | fail (reason : String) (details : Option TaskFailureDetails) :
      EndsRecovering id (.markFailedWithDetails id reason details)
  | dispatch (runtimeID endpoint : String) :
      EndsRecovering id (.markDispatched id runtimeID endpoint)

variable {op : StoreOp} {a : Action} {ids : List Uuid}

theorem EndsRecovering.statusWrite (h : EndsRecovering id op) (answer : StoreAnswer) :
    statusWrite id ⟨.store op, answer⟩ = some answer := by
  cases h <;> simp [Coordinator.statusWrite]

/-- On a recovering task the statement takes effect unless the database refuses it. -/
theorem EndsRecovering.perform {answer : StoreAnswer} (h : EndsRecovering id op)
    (hs : IsRecovering id s) (hperform : Igris.perform jsonb (.store op) answer s = some s') :
    IsRecovering id s' ↔ answer = .error .database := by
  rcases hs with ⟨t, ht, hstatus⟩
  have hid := Store.taskID_of_task ht
  have hcond : op.rowUpdate.cond t = true := by
    cases h <;> exact hasStatus_iff.mpr ⟨hid, by simp [hstatus]⟩
  have htransition : op.apply jsonb s.store = s.store.transition op.rowUpdate := by
    cases h <;> rfl
  have hset : (op.rowUpdate.set t).status ≠ .recovering := by
    cases h <;> exact nofun
  rcases task_of_transition hperform htransition ht hcond with ⟨hanswer, hsame⟩ | ⟨ids, heffect, hrow⟩
  · exact iff_of_true ⟨t, hsame ▸ ht, hstatus⟩ hanswer
  · apply iff_of_false
    · rintro ⟨t', ht', hstatus'⟩
      rw [hrow, Option.some.injEq] at ht'
      exact absurd (ht' ▸ hstatus') hset
    · intro hanswer
      rw [hanswer] at heffect
      rcases heffect with heq | heq <;> cases heq

/-- No other action makes a task recovering. -/
theorem isRecovering_of_perform {answer : Answer a} (ha : marksRecovering a = false)
    (hperform : perform jsonb a answer s = some s') (hs' : IsRecovering id s') :
    IsRecovering id s := by
  rcases hs' with ⟨t', ht', hstatus⟩
  rcases perform_store_cases hperform with ⟨op, answer', heq, hop, -⟩ | ⟨-, hsame⟩
  · cases heq
    rcases op.perform_cases hop with ⟨err, -, -, hsame⟩ | ⟨ids, -, happly⟩
    · exact ⟨t', hsame ▸ ht', hstatus⟩
    · cases ht : s.store.task id with
      | none =>
          rcases StoreOp.task_apply_of_none happly ht with hnone | ⟨task, bound, -, -, -, hnew⟩
          · rw [hnone] at ht'
            cases ht'
          · rw [hnew, Option.some.injEq] at ht'
            subst ht'
            cases hstatus
      | some t =>
          refine ⟨t, ht, ?_⟩
          rw [StoreOp.task_apply happly ht, Option.some.injEq] at ht'
          subst ht'
          by_cases hcond : op.rowUpdate.cond t = true
          · rw [Update.run_of_cond hcond] at hstatus
            cases op with
            | createTask => cases hcond
            | markRecovering => cases ha
            | saveExecutionArtifacts => exact hstatus
            | _ => cases hstatus
          · rw [Update.run_of_not_cond hcond] at hstatus
            exact hstatus
  · exact ⟨t', hsame ▸ ht', hstatus⟩

/-! ## Programs that write the status -/

/-- Once the reads were answered, the program ends the recovering status of the task
unless its first write is refused. -/
def Settles (jsonb : TaskDefinition → TaskDefinition) (id : Uuid) (p : Program Unit) : Prop :=
  ∀ s l task cps, IsRecovering id s → l.write = none → l.Read task cps →
    Ascertains jsonb id (fun _ s' l' => (¬IsRecovering id s' ↔ l'.write ≠ some (.error .database)) ∧
      l'.Read task cps) p s l

theorem Settles.resolves {p : Program Unit} {cps : Except ReadError (List CheckpointPayload)}
    (h : Settles jsonb id p) (hs : IsRecovering id s) (hwrite : l.write = none)
    (hread : l.Read t cps)
    (hcps : taskSupportsRecoveryResume t = true → ∃ checkpoints, cps = .ok checkpoints) :
    Ascertains jsonb id (fun _ s' l' => ¬IsRecovering id s' ↔ l'.Resolves t) p s l := by
  refine (h s l t cps hs hwrite hread).weaken ?_
  rintro _ s' l' ⟨hended, hread'⟩
  refine hended.trans ⟨fun hwritten => ⟨⟨t, hread'.read⟩, hread'.governance, ?_, hwritten⟩,
    Learned.Resolves.written⟩
  simpa [hread'.checkpoints] using hcps

theorem settles_quiet {next : Answer a → Program Unit} (ha : a.quiet = true)
    (hnext : ∀ answer, Settles jsonb id (next answer)) : Settles jsonb id (.act a next) := by
  intro s l task cps hs hwrite hread
  refine follows_quiet ha fun answer _ => hnext answer s _ task cps hs ?_ (hread.note _)
  cases a <;> first | exact hwrite | cases ha

theorem settles_write {next : StoreAnswer → Program Unit} (hop : EndsRecovering id op)
    (hrefused : next (.error .database) = .ret ())
    (hnever : ∀ answer, (next answer).Never (marksRecovering · = true)) :
    Settles jsonb id (.act (.store op) next) := by
  intro s l task cps hs hwrite hread answer s₁ hstep _
  have hwritten : (l.note id ⟨.store op, answer⟩).write = some answer := by
    simp [Learned.note, Prog.noteFirst, hop.statusWrite, hwrite]
  have hafter := hop.perform hs hstep
  by_cases hanswer : answer = .error .database
  · subst hanswer
    rw [hrefused]
    exact ⟨by simpa [hwritten] using hafter, hread.note _⟩
  · refine ((hnever answer).follows (J := fun s l => ¬IsRecovering id s ∧ l.write = some answer ∧
      l.Read task cps) ⟨mt hafter.mp hanswer, hwritten, hread.note _⟩ ?_).weaken ?_
    · rintro a _ s₀ s₁ l₀ ha hstep ⟨hs₀, hwrite₀, hread₀⟩
      refine ⟨mt (isRecovering_of_perform (by simpa using ha) hstep) hs₀, ?_, hread₀.note _⟩
      simp [Learned.note, hwrite₀]
    · rintro _ s' l' ⟨⟨hended, hwrite', hread'⟩, -⟩
      exact ⟨iff_of_true hended (by simp [hwrite', hanswer]), hread'⟩

theorem failTask_settles (reason operation rejectionType message : String) :
    Settles jsonb id (failTask id reason operation rejectionType message) :=
  settles_write (.fail _ _) rfl fun _ => trivial

theorem handOff_settles (tenantID : String) (task : TaskRecord) (cp : Option CheckpointPayload) :
    Settles jsonb id (handOff id tenantID task cp) := by
  apply settles_quiet rfl
  intro selected
  cases selected with
  | error err => exact failTask_settles _ _ _ _
  | ok newRuntime =>
      apply settles_quiet rfl
      intro saved
      cases saved with
      | error message => exact failTask_settles _ _ _ _
      | ok _ =>
          simp only [Prog.bind_ret]
          split
          · exact failTask_settles _ _ _ _
          · apply settles_write (.dispatch _ _) rfl
            intro dispatched
            cases dispatched with
            | error err => trivial
            | ok ids => exact (redispatch_guarded _ _ _).widen fun _ h => h.not_marks

/-! ## The round of one task -/

theorem getCumulativeRecoveryCheckpoint_ascertains :
    Ascertains jsonb id (fun loaded s' l => s' = s ∧ ∃ checkpoints,
        l = { checkpoints := some checkpoints } ∧
        (loaded = .error .read ↔ ∀ cps, checkpoints ≠ .ok cps))
      (getCumulativeRecoveryCheckpoint id) s {} := by
  refine follows_quiet rfl fun checkpoints _ => ?_
  have hnote : ({} : Learned).note id ⟨.getAllCheckpoints id, checkpoints⟩ =
      { checkpoints := some checkpoints } := by
    simp [Learned.note, Prog.noteFirst, taskRead, governanceRead, checkpointRead, statusWrite]
  rw [hnote]
  cases checkpoints with
  | error err => exact ⟨rfl, _, rfl, by simp⟩
  | ok cps =>
      simp only [Prog.bind_ret]
      split <;> exact ⟨rfl, _, rfl, by simp⟩

theorem recoveryCheckpoint_eq_read
    {loaded : Except RecoveryCheckpointError (Option CheckpointPayload)} :
    recoveryCheckpoint id loaded t = .error .read ↔ loaded = .error .read := by
  unfold recoveryCheckpoint
  split
  · rfl
  · dsimp only
    split
    · simp
    · split <;> simp

/-- The round of a task ends its recovering status exactly when its reads and its
first write succeed. -/
theorem recoverTask_resolves_iff (ht : s.store.task id = some t)
    (hstatus : t.status = .recovering) :
    Ascertains jsonb id (fun _ s' l => ¬IsRecovering id s' ↔ l.Resolves t) (recoverTask id) s {} := by
  have hs : IsRecovering id s := ⟨t, ht, hstatus⟩
  refine getCumulativeRecoveryCheckpoint_ascertains.bind ?_
  rintro loaded _ _ ⟨rfl, checkpoints, rfl, hloaded⟩
  refine follows_quiet rfl fun tenant _ => follows_quiet rfl fun found hfound => ?_
  cases found with
  | error err =>
      refine iff_of_false (not_not.mpr hs) ?_
      rintro ⟨⟨task, hread⟩, -, -, -⟩
      simp [Learned.note, Prog.noteFirst, taskRead] at hread
  | ok task =>
      have hread := (perform_getTask hfound).1
      rw [ht, Option.some.injEq] at hread
      subst hread
      refine follows_quiet rfl fun hydrated _ => ?_
      cases hydrated with
      | error err =>
          refine iff_of_false (not_not.mpr hs) ?_
          rintro ⟨-, hgovernance, -, -⟩
          simp [Learned.note, Prog.noteFirst, governanceRead] at hgovernance
      | ok _ =>
          have hskip : taskRecoverySkipReason t = if taskSupportsRecoveryResume t then none
              else some "streaming_resume_unsupported" := by
            simp [taskRecoverySkipReason, hstatus, taskAllowsRecoveryRedispatch]
          simp only [Prog.bind_ret, hskip]
          refine (?_ : ∀ l : Learned, l.write = none → l.Read t checkpoints →
            Ascertains jsonb id _ _ _ l) _ (by simp [Learned.note, Prog.noteFirst, statusWrite])
            (by constructor <;>
              simp [Learned.note, Prog.noteFirst, taskRead, governanceRead, checkpointRead])
          intro l hwrite hread
          by_cases hsupports : taskSupportsRecoveryResume t = true
          · simp only [hsupports, if_true]
            have hfound : recoveryCheckpoint id loaded t ≠ .error .read →
                taskSupportsRecoveryResume t = true → ∃ cps, checkpoints = .ok cps := by
              intro hne _
              by_contra hno
              push Not at hno
              exact hne (recoveryCheckpoint_eq_read.mpr (hloaded.mpr hno))
            cases hcp : recoveryCheckpoint id loaded t with
            | error err =>
                rw [hcp] at hfound
                cases err with
                | read =>
                    refine iff_of_false (not_not.mpr hs) ?_
                    rintro ⟨-, -, hcps, -⟩
                    obtain ⟨cps, hcps⟩ := hcps hsupports
                    rw [hread.checkpoints, Option.some.injEq] at hcps
                    exact hloaded.mp (recoveryCheckpoint_eq_read.mp hcp) cps hcps
                | invalid err =>
                    exact (failTask_settles _ _ _ _).resolves hs hwrite hread (hfound (by simp))
            | ok cp =>
                rw [hcp] at hfound
                exact (handOff_settles _ _ _).resolves hs hwrite hread (hfound (by simp))
          · simp only [hsupports, Bool.false_eq_true, if_false]
            unfold handleRecoverySkip
            rw [if_pos ⟨rfl, hstatus⟩]
            exact (failTask_settles _ _ _ _).resolves hs hwrite hread fun h => absurd h hsupports

/-! ## Rounds of other tasks -/

theorem task_of_perform {answer : Answer a} (ha : concerns id a = false)
    (hperform : perform jsonb a answer s = some s') : s'.store.task id = s.store.task id := by
  rcases perform_store_cases hperform with ⟨op, answer', heq, hop, -⟩ | ⟨-, hsame⟩
  · cases heq
    have hcond : ∀ t, op.rowUpdate.cond t = true → t.taskID ≠ id := by
      intro t ht hid
      cases op with
      | markFailedWithDetails | markDispatched =>
          rw [(hasStatus_iff.mp ht).1] at hid
          exact absurd (decide_eq_true hid) (by simp only [concerns] at ha; simp [ha])
      | _ => cases ha
    rcases op.perform_cases hop with ⟨err, -, -, hsame⟩ | ⟨ids, -, happly⟩
    · rw [hsame]
    · cases ht : s.store.task id with
      | none =>
          rcases StoreOp.task_apply_of_none happly ht with hnone | ⟨task, bound, rfl, -⟩
          · exact hnone
          · cases ha
      | some t =>
          rw [StoreOp.task_apply happly ht, Update.run_of_not_cond]
          intro hmet
          exact hcond t hmet (Store.taskID_of_task ht)
  · rw [hsame]

/-- What is not about the task tells nothing about it. -/
theorem note_of_unconcerned {d : Performed Action Answer} (h : concerns id d.action = false) :
    l.note id d = l := by
  have hnone : taskRead id d = none ∧ governanceRead id d = none ∧ checkpointRead id d = none ∧
      statusWrite id d = none := by
    rcases d with ⟨a, answer⟩
    cases a with
    | store op => cases op <;> simp_all [concerns, taskRead, governanceRead, checkpointRead, statusWrite]
    | call service =>
        cases service <;> simp_all [concerns, taskRead, governanceRead, checkpointRead, statusWrite]
    | getTask | getAllCheckpoints =>
        simp_all [concerns, taskRead, governanceRead, checkpointRead, statusWrite]
    | _ => exact ⟨rfl, rfl, rfl, rfl⟩
  simp only [Learned.note, Prog.noteFirst, hnone]

variable {done : List (Performed Action Answer)}

/-- The round of another task is not about this one. -/
theorem recoverTask_unconcerned {other : Uuid} (hne : other ≠ id) :
    (recoverTask other).Never (concerns id · = true) :=
  recoverTask_guarded.widen fun _ h => h.unconcerned hne

/-! ## The whole pass -/

theorem recoverTasks_unconcerned (hid : id ∉ ids) :
    (recoverTasks ids).Never (concerns id · = true) := by
  induction ids with
  | nil => trivial
  | cons first rest ih =>
      rw [List.mem_cons, not_or] at hid
      exact (recoverTask_unconcerned (Ne.symm hid.1)).bind fun _ _ => ih hid.2

theorem recoverTasks_resolves_iff (hmem : id ∈ ids) (hnodup : ids.Nodup)
    (ht : s.store.task id = some t) (hstatus : t.status = .recovering) :
    Ascertains jsonb id (fun _ s' l => ¬IsRecovering id s' ↔ l.Resolves t) (recoverTasks ids) s
      {} := by
  induction ids generalizing s with
  | nil => cases hmem
  | cons first rest ih =>
      rw [List.nodup_cons] at hnodup
      by_cases hfirst : first = id
      · subst hfirst
        refine (recoverTask_resolves_iff ht hstatus).bind fun _ _ _ hround => ?_
        refine ((recoverTasks_unconcerned hnodup.1).follows
          (J := fun s l => ¬IsRecovering first s ↔ l.Resolves t) hround ?_).weaken fun _ _ _ h => h.1
        intro a answer s₀ s₁ l₀ ha hstep h₀
        rw [Bool.not_eq_true] at ha
        unfold IsRecovering at h₀ ⊢
        rwa [task_of_perform ha hstep, note_of_unconcerned ha]
      · have hmem' : id ∈ rest := (List.mem_cons.mp hmem).resolve_left (Ne.symm hfirst)
        refine ((recoverTask_unconcerned hfirst).follows
          (J := fun s l => s.store.task id = some t ∧ l = {}) ⟨ht, rfl⟩ ?_).bind ?_
        · rintro a answer s₀ s₁ l₀ ha hstep ⟨ht₀, rfl⟩
          rw [Bool.not_eq_true] at ha
          exact ⟨(task_of_perform ha hstep).trans ht₀, note_of_unconcerned ha⟩
        · rintro _ _ _ ⟨⟨ht₁, rfl⟩, -⟩
          exact ih hmem' hnodup.2 ht₁

/-- A status that a pass gives to a task. -/
def passStatus : TaskRecordStatus → Bool
  | .recovering | .dispatched | .failed => true
  | _ => false

/-- Within a pass a task is recovering, dispatched or failed. -/
theorem status_of_pass (hs : IsRecovering id s) :
    Ascertains jsonb id (fun _ s' _ => ∃ t', s'.store.task id = some t' ∧
      passStatus t'.status = true) (recoverTasks ids) s {} := by
  rcases hs with ⟨t, ht, hstatus⟩
  have hguarded : (recoverTasks ids).Guarded (fun _ _ => True) (RecoverIssues (fun _ _ => True) "") _ :=
    recoverTasks_guarded fun id hid => ⟨ids, trivial, hid⟩
  refine (hguarded.follows
    (J := fun s' _ => ∃ t', s'.store.task id = some t' ∧ passStatus t'.status = true)
    ⟨t, ht, by rw [hstatus]; rfl⟩ ?_).weaken fun _ _ _ h => h.1
  rintro a answer s₀ s₁ _ hissues hstep ⟨t₀, ht₀, hstatus₀⟩
  rcases perform_store_cases hstep with ⟨op, answer', heq, hop, -⟩ | ⟨-, hsame⟩
  · have hset : passStatus (op.rowUpdate.set t₀).status = true := by
      cases heq
      cases hissues with
      | quiet hquiet => cases hquiet
      | mark | fail | dispatch => rfl
    rcases op.perform_cases hop with ⟨err, -, -, hsame⟩ | ⟨ids, -, happly⟩
    · exact ⟨t₀, hsame ▸ ht₀, hstatus₀⟩
    · refine ⟨_, StoreOp.task_apply happly ht₀, ?_⟩
      unfold Update.run
      split
      · exact hset
      · exact hstatus₀
  · exact ⟨t₀, hsame ▸ ht₀, hstatus₀⟩

/-- A pass takes a task that it moved to recovering out of that status, to dispatched
or failed, exactly when it learned which tasks it moved, its reads for the task
succeeded and its first write for the task was not refused. -/
theorem recoverRuntime_resolves_iff {runtimeID : String} {answer : StoreAnswer}
    (hexec : Exec (perform jsonb) (recoverRuntime runtimeID) s
      (⟨.store (.markRecovering runtimeID), answer⟩ :: done) () s')
    (ht : s.store.task id = some t) (hmeets : (Update.markRecovering runtimeID).cond t = true)
    (hmoved : answer ≠ .error .database) :
    (∃ t', s'.store.task id = some t' ∧ (t'.status = .dispatched ∨ t'.status = .failed)) ↔
      (∃ ids, answer = .ok ids) ∧ Resolves id t done := by
  rcases exec_act_iff.mp hexec with ⟨answer', s₁, rest, hstep, hdone, hrest⟩
  cases hdone
  have hop := (perform_store hstep).1
  have hrow : s₁.store.task id = some { t with status := .recovering } := by
    rcases StoreOp.perform_cases hop with ⟨err, herr, hread, -⟩ | ⟨ids, -, happly⟩
    · rw [herr] at hop hmoved
      cases err with
      | database => exact absurd rfl hmoved
      | resultUnread => exact absurd rfl hread
      | _ => simp [StoreOp.perform, StoreOp.apply] at hop
    · rw [StoreOp.task_apply happly ht]
      exact congrArg some (Update.run_of_cond hmeets)
  cases answer with
  | error err =>
      -- nothing is done for the tasks that were moved
      rcases exec_ret_iff.mp hrest with ⟨rfl, -, rfl⟩
      constructor
      · rintro ⟨t', ht', hstatus⟩
        rw [hrow, Option.some.injEq] at ht'
        subst ht'
        rcases hstatus with hstatus | hstatus <;> cases hstatus
      · rintro ⟨⟨ids, hok⟩, -⟩
        cases hok
  | ok ids =>
      have happly := StoreOp.apply_of_perform_ok hop
      have hmem : id ∈ ids := StoreOp.mem_ids_of_cond happly ht hmeets
      have hpass := hrest.follows (recoverTasks_resolves_iff hmem (StoreOp.nodup_ids happly) hrow rfl)
        (Prog.admitted_true _ _)
      have hresolves : Resolves id t done ↔ ¬IsRecovering id s' :=
        (hpass.trans (resolves_foldl.trans
          ⟨fun h => ⟨h.1, h.2, h.3, h.4⟩, fun h => ⟨h.1, h.2, h.3, h.4⟩⟩)).symm
      rw [hresolves]
      rcases hrest.follows (status_of_pass ⟨_, hrow, rfl⟩) (Prog.admitted_true _ _) with
        ⟨t', ht', hstatus⟩
      constructor
      · rintro ⟨t'', ht'', hended⟩
        refine ⟨⟨ids, rfl⟩, ?_⟩
        rintro ⟨t₂, ht₂, hrecovering⟩
        rw [ht'', Option.some.injEq] at ht₂
        rw [ht₂, hrecovering] at hended
        rcases hended with hended | hended <;> cases hended
      · rintro ⟨-, hended⟩
        refine ⟨t', ht', ?_⟩
        cases hst : t'.status with
        | recovering => exact absurd ⟨t', ht', hst⟩ hended
        | dispatched => exact Or.inl rfl
        | failed => exact Or.inr rfl
        | _ =>
            rw [hst] at hstatus
            cases hstatus

end Writes

/-! ## A refused read -/

/-- The task of the silent runtime. -/
def silentTask : TaskRecord where
  taskID := 7
  tenantID := "acme"
  status := .dispatched
  runtimeID := some "runtime-a"
  taskDefinition := { text := "", taskType := .agentWorkflow }
  idempotencyKey := "order-1"

def silentState : State where
  store := { Store.empty with
    tasks := Relational.Table.empty.insert silentTask rfl
    tenantKeys := List.nodup_singleton _ }
  posted := []

/-- Everything works but the reading of tasks. -/
def taskReadRefused : (a : Action) → State → Option (Answer a)
  | .getTask _ _, _ => some (.error .database)
  | a, s => smoothly ⟨"runtime-b", "https://b"⟩ a s

/-- The pass moves the task to recovering and then cannot read it.  The task stays in
recovering, where no pass finds it. -/
theorem recovery_strands_task :
    silentState.store.task 7 = some silentTask ∧
      (Update.markRecovering "runtime-a").cond silentTask = true ∧
      ∃ done s', Exec (perform id) (recoverRuntime "runtime-a") silentState done () s' ∧
        ∃ t', s'.store.task 7 = some t' ∧ t'.status = .recovering ∧
          ∀ runtimeID, (Update.markRecovering runtimeID).cond t' = false := by
  have hrun : ((recoverRuntime "runtime-a").run (perform id) taskReadRefused silentState).any
      (fun out => (out.2.2.store.task 7).any fun t => decide (t.status = .recovering)) = true := by
    decide +kernel
  rcases exists_exec_of_run hrun with ⟨done, _, s', hexec, hcheck⟩
  simp only [Option.any_eq_true, decide_eq_true_eq] at hcheck
  rcases hcheck with ⟨t', ht', hstatus⟩
  refine ⟨rfl, by decide, done, s', hexec, t', ht', hstatus, ?_⟩
  intro runtimeID
  simp [Update.markRecovering, hstatus]

/-- The pass learned which tasks it moved. -/
def learnedTasks : List (Performed Action Answer) → Bool
  | ⟨.store (.markRecovering _), .ok _⟩ :: _ => true
  | _ => false

/-- The same pass with all reads answered: it fails the task, which has no checkpoint. -/
theorem recoverRuntime_resolves_silentTask :
    ∃ ids done s', Exec (perform id) (recoverRuntime "runtime-a") silentState
        (⟨.store (.markRecovering "runtime-a"), .ok ids⟩ :: done) () s' ∧
      (∃ t', s'.store.task 7 = some t' ∧ t'.status = .failed) ∧ Resolves 7 silentTask done := by
  have hrun : ((recoverRuntime "runtime-a").run (perform id)
      (smoothly ⟨"runtime-b", "https://b"⟩) silentState).any (fun out => learnedTasks out.1 &&
        (out.2.2.store.task 7).any fun t => decide (t.status = .failed)) = true := by
    decide +kernel
  rcases exists_exec_of_run hrun with ⟨done, _, s', hexec, hcheck⟩
  simp only [Bool.and_eq_true, Option.any_eq_true, decide_eq_true_eq] at hcheck
  rcases hcheck with ⟨hlearned, t', ht', hstatus⟩
  rcases exec_act_iff.mp hexec with ⟨answer, s₁, rest, hstep, rfl, -⟩
  cases answer with
  | error err => cases hlearned
  | ok ids =>
      have hresolves := (recoverRuntime_resolves_iff hexec (t := silentTask) rfl (by decide)
        (by simp)).mp ⟨t', ht', Or.inr hstatus⟩
      exact ⟨ids, rest, s', hexec, ⟨t', ht', hstatus⟩, hresolves.2⟩

end Coordinator
end Igris
