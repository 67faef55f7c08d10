import Igris.Executor.Local
import Igris.Lib.Interleaving

/-!
# Concurrent submissions to one runtime

The handler looks a submission up by its key before it executes anything, and writes the
record when it is done.  Submissions of the same request to one runtime interleave
freely: the record of one may be missing while another is looked up.

Main results:

- Theorem {lit}`submissions_execute_once`: if every submission that comes after an
  accepted one comes after its record was stored, and finds it, then all of them together
  execute each step at most once.
- Theorem {lit}`submissions_isolated`: submissions of several tenants keep to their own
  records, as long as no part of a key stands in the name of another tenant.
-/

namespace Igris
namespace Executor

open Concurrency Program

/-! ## Many submissions -/

/-- Submissions of one request share the tables of the runtime. -/
def submissionSystem (env : Environment) : System RuntimeState Unit Action Answer RuntimeResponse where
  perform := performLocal env
  spawn := fun _ _ => []

/-- Any number of submissions of one request; each may start at any time. -/
def submissionPool (runtimeID : String) (req : RuntimeTaskRequest) (s : RuntimeState) (count : Nat) :
    Config RuntimeState Unit Action Answer RuntimeResponse where
  state := s
  pool := List.replicate count ⟨(), handleTaskSubmit runtimeID req⟩

/-- Everything the submissions of a run executed, in order. -/
def executedUnits (τ : List (Event Unit Action Answer)) : List (Option RuntimeTaskStep) :=
  τ.filterMap fun e => executedUnit e.action

/-- A submission finds no record. -/
def accepts : Event Unit Action Answer → Bool
  | ⟨_, _, .submissionRecord _ _ _, (answer : Option RuntimeResponse)⟩ => answer.isNone
  | _ => false

/-- A response is stored under the key of the request. -/
def stores (req : RuntimeTaskRequest) : Event Unit Action Answer → Bool
  | ⟨_, _, .persistTaskRecord tenantID key _ _, (answer : Except String Unit)⟩ =>
      decide (submissionKey tenantID key = submissionKey req.tenantID req.idempotencyKey) &&
        answer.isOk
  | _ => false

/-- A submission that arrives after another one was accepted arrives after a response was
stored, and its lookup reads the storage. -/
def successive (env : Environment) (req : RuntimeTaskRequest)
    (pre : List (Event Unit Action Answer))
    (c : Config RuntimeState Unit Action Answer RuntimeResponse) :
    Event Unit Action Answer → Bool
  | ⟨_, _, .submissionRecord tenantID key hashed, (answer : Option RuntimeResponse)⟩ =>
      !pre.any accepts || (pre.any (stores req) &&
        decide (answer = c.state.recordedResponse env tenantID key hashed))
  | _ => true

section Once

variable {env : Environment} {runtimeID : String} {req : RuntimeTaskRequest} {s s' : RuntimeState}
  {count : Nat} {τ pre post : List (Event Unit Action Answer)} {tid tid' : Nat}
  {c c₁ : Config RuntimeState Unit Action Answer RuntimeResponse}

/-- Only one action writes submission records. -/
theorem performLocal_submissions {a : Action} {answer : Answer a}
    (h : performLocal env a answer s = some s') :
    s'.submissions = s.submissions ∨ ∃ tenantID key hashed response,
      a = .persistTaskRecord tenantID key hashed response ∧
        s' = s.record env tenantID key hashed response := by
  by_cases hread : onlyReads a = true
  · rw [performLocal_onlyReads hread h]
    exact Or.inl rfl
  · cases a with
    | persistTaskRecord tenantID key hashed response =>
        cases answer with
        | error err =>
            cases h
            exact Or.inl rfl
        | ok _ =>
            cases h
            exact Or.inr ⟨tenantID, key, hashed, response, rfl, rfl⟩
    | walImportEntries taskID entries =>
        left
        cases answer with
        | error err =>
            simp only [performLocal, RuntimeState.importPartly, Option.some.injEq] at h
            subst h
            split <;> rfl
        | ok _ =>
            rw [performLocal_walImportEntries, RuntimeState.importEntries] at h
            split at h
            · cases h
            · split at h <;> cases h
              rfl
    | walWriteIntent taskID step =>
        left
        cases answer with
        | error err =>
            cases h
            rfl
        | ok reported =>
            rw [performLocal_walWriteIntent] at h
            obtain ⟨entry, -, -, -, -, -, -, rfl⟩ := writeIntent_eq_some h
            rfl
    | walWriteCommitted intent outputDigest =>
        left
        cases answer with
        | error err =>
            cases h
            rfl
        | ok reported =>
            rw [performLocal_walWriteCommitted] at h
            obtain ⟨old, digest, timestampMs, signature, -, -, -, rfl⟩ := writeCommitted_eq_some h
            rfl
    | executeStep | sendCallback =>
        left
        simp only [performLocal] at h
        split at h <;> cases h <;> rfl
    | executeBehaviorTree =>
        cases h
        exact Or.inl rfl
    | _ => first | exact absurd rfl hread | (cases h; exact Or.inl rfl)

/-- A record is never lost. -/
theorem performLocal_keeps_record {a : Action} {answer : Answer a} {key : String}
    (h : performLocal env a answer s = some s') (hget : (s.submissions.get key).isSome) :
    (s'.submissions.get key).isSome := by
  obtain hsame | ⟨tenantID, key', hashed, response, -, rfl⟩ := performLocal_submissions h
  · rw [hsame]
    exact hget
  · rw [RuntimeState.record, Relational.Table.get_put]
    split
    · rfl
    · exact hget

/-- Once stored under the key of the request, there is a record for it. -/
theorem recorded_of_stores {c₀ : Config RuntimeState Unit Action Answer RuntimeResponse}
    (hrun : Run (submissionSystem env) c₀ τ c) (hstores : τ.any (stores req) = true) :
    (c.state.submissions.get (submissionKey req.tenantID req.idempotencyKey)).isSome := by
  induction hrun with
  | nil => simp at hstores
  | @snoc c₁ c₂ τ e hrun hstep ih =>
      have hperform : performLocal env e.action e.answer c₁.state = some c₂.state :=
        hstep.perform_eq
      rw [List.any_append, Bool.or_eq_true, List.any_cons, List.any_nil, Bool.or_false] at hstores
      obtain hold | hnew := hstores
      · exact performLocal_keeps_record hperform (ih hold)
      · unfold stores at hnew
        split at hnew
        · rename_i tenantID key hashed response answer
          simp only [Bool.and_eq_true, decide_eq_true_eq] at hnew
          cases answer with
          | error err => simp [Except.isOk, Except.toBool] at hnew
          | ok _ =>
              have hrecord : c₂.state = c₁.state.record env tenantID key hashed response :=
                (Option.some.inj hperform).symm
              simp [hrecord, RuntimeState.record, Relational.Table.get_put, hnew.1]
        · cases hnew

/-- The lookup of a request. -/
abbrev lookupOf (req : RuntimeTaskRequest) : Action :=
  .submissionRecord req.tenantID req.idempotencyKey req.hashed

/-- Of successive submissions, only the first one is accepted. -/
theorem accepts_once (hrun : Run (submissionSystem env) c (pre ++
      ⟨tid, (), lookupOf req, (none : Option RuntimeResponse)⟩ :: post) c₁)
    (hsuccessive : EveryStep (submissionSystem env) c (pre ++
      ⟨tid, (), lookupOf req, (none : Option RuntimeResponse)⟩ :: post)
      fun pre c e => successive env req pre c e = true) :
    (⟨tid', (), lookupOf req, (none : Option RuntimeResponse)⟩ : Event Unit Action Answer) ∉ pre := by
  intro hmem
  obtain ⟨c₂, c₃, hpre, -, -⟩ := hrun.split
  have hmeets := hsuccessive pre _ post c₂ rfl hpre
  have haccepts : pre.any accepts = true := List.any_eq_true.mpr ⟨_, hmem, rfl⟩
  simp only [successive, haccepts, Bool.not_true, Bool.false_or, Bool.and_eq_true,
    decide_eq_true_eq] at hmeets
  have hrecord := recorded_of_stores hpre hmeets.1
  have hnone := hmeets.2.symm
  rw [RuntimeState.recordedResponse, Option.map_eq_none_iff] at hnone
  simp [hnone] at hrecord

/-- A submission executes only what it was accepted for. -/
theorem handleTaskSubmit_accepted (K : (a : Action) → Answer a → Prop) (runtimeID : String)
    (req : RuntimeTaskRequest) :
    (handleTaskSubmit runtimeID req).Issues K
      (fun a => executedUnit a ≠ none → K (lookupOf req) (none : Option RuntimeResponse)) := by
  unfold handleTaskSubmit
  split
  · trivial
  · refine ⟨fun h => absurd rfl h, ?_⟩
    intro idle _
    simp only [Prog.bind_ret]
    split
    · trivial
    · refine ⟨fun h => absurd rfl h, ?_⟩
      intro recorded hrecorded
      cases recorded with
      | some response => trivial
      | none =>
          exact (Prog.guarded_true (acceptRequest runtimeID req)).mono (fun _ _ h => h)
            (fun _ _ _ => hrecorded) fun _ h => h

theorem labelled_submissionSystem (env : Environment) (runtimeID : String)
    (req : RuntimeTaskRequest) :
    Labelled (submissionSystem env) (fun _ => handleTaskSubmit runtimeID req)
      (fun K _ a => executedUnit a ≠ none → K (lookupOf req) (none : Option RuntimeResponse))
      fun _ _ _ => True where
  spawn := by simp [submissionSystem]
  guarded := fun K _ => handleTaskSubmit_accepted K runtimeID req

theorem submissionPool_prog (runtimeID : String) (req : RuntimeTaskRequest) (s : RuntimeState)
    (count : Nat) : ∀ t ∈ (submissionPool runtimeID req s count).pool,
      t.prog = handleTaskSubmit runtimeID req := by
  intro t ht
  rw [List.eq_of_mem_replicate ht]

/-- Two events that execute something belong to the same submission. -/
theorem executing_tid_eq {e e' : Event Unit Action Answer}
    (hrun : Run (submissionSystem env) (submissionPool runtimeID req s count) τ c)
    (hsuccessive : EveryStep (submissionSystem env) (submissionPool runtimeID req s count) τ
      fun pre c e => successive env req pre c e = true)
    (he : e ∈ τ) (he' : e' ∈ τ) (hexec : executedUnit e.action ≠ none)
    (hexec' : executedUnit e'.action ≠ none) : e.tid = e'.tid := by
  have hlookup : ∀ e ∈ τ, executedUnit e.action ≠ none →
      (⟨e.tid, (), lookupOf req, (none : Option RuntimeResponse)⟩ : Event Unit Action Answer) ∈ τ := by
    intro e he hexec
    obtain ⟨pre, post, rfl⟩ := List.append_of_mem he
    have hissued := hrun.issues (labelled_submissionSystem env runtimeID req)
      (submissionPool_prog runtimeID req s count) hexec
    exact List.mem_append_left _ hissued
  by_contra hne
  have hfirst := hlookup e he hexec
  have hsecond := hlookup e' he' hexec'
  obtain ⟨pre, post, rfl⟩ := List.append_of_mem hfirst
  obtain hbefore | hafter := List.mem_append.mp hsecond
  · exact accepts_once hrun hsuccessive hbefore
  · obtain heq | hafter := List.mem_cons.mp hafter
    · exact hne (congrArg Event.tid heq).symm
    · obtain ⟨mid, post, rfl⟩ := List.append_of_mem hafter
      rw [← List.cons_append, ← List.append_assoc] at hrun hsuccessive
      exact accepts_once hrun hsuccessive (List.mem_append_right _ List.mem_cons_self)

/-- What a run executed, if all of it was done by one thread. -/
theorem executedUnits_eq_performedBy
    (h : ∀ e ∈ τ, executedUnit e.action ≠ none → e.tid = tid) :
    executedUnits τ = (performedBy τ tid).filterMap fun d => executedUnit d.action := by
  rw [executedUnits, performedBy, List.filterMap_filterMap]
  apply List.filterMap_congr
  intro e he
  by_cases htid : e.tid = tid
  · simp [htid]
  · have hnone : executedUnit e.action = none := by
      by_contra hsome
      exact htid (h e he hsome)
    simp [htid, hnone]

/-- However any number of submissions of a request interleave, if each one that arrives
after an accepted one arrives after a response was stored and reads it, then all of them
together execute every step at most once. -/
theorem submissions_execute_once (env : Environment) (runtimeID : String) (req : RuntimeTaskRequest)
    (s : RuntimeState) (count : Nat) (τ : List (Event Unit Action Answer))
    (c : Config RuntimeState Unit Action Answer RuntimeResponse)
    (hrun : Run (submissionSystem env) (submissionPool runtimeID req s count) τ c)
    (hsuccessive : EveryStep (submissionSystem env) (submissionPool runtimeID req s count) τ
      fun pre c e => successive env req pre c e = true) :
    (executedUnits τ).Sublist (taskUnits req) := by
  by_cases hnone : ∀ e ∈ τ, executedUnit e.action = none
  · rw [executedUnits, List.filterMap_eq_nil_iff.mpr hnone]
    exact List.nil_sublist _
  · push Not at hnone
    obtain ⟨e, he, hexec⟩ := hnone
    rw [executedUnits_eq_performedBy fun e' he' hexec' =>
      executing_tid_eq hrun hsuccessive he' he hexec' hexec]
    have htracks : Tracks (fun _ => handleTaskSubmit runtimeID req) _ _ τ c :=
      hrun.tracks (labelled_submissionSystem env runtimeID req).spawn
        (submissionPool_prog runtimeID req s count)
    have hthread := List.getElem?_eq_getElem (htracks.bound e he)
    obtain ⟨rest, hsublist, -⟩ :=
      (htracks.path e.tid _ hthread).walks (handleTaskSubmit_walks runtimeID req)
    exact (List.sublist_append_left _ _).trans hsublist

end Once

/-! ## Overlapping submissions -/

def zeroDigest : Wal.Digest :=
  ⟨List.replicate 32 0, Text.length_zeros⟩

def plainEnvironment : Environment where
  sha256 := fun _ => zeroDigest
  hashRequest := fun hashed => hashed.tenantID
  ticks := fun _ _ => []
  importedBefore := fun _ _ => 0

/-- The only step of a task. -/
def sendStep : RuntimeTaskStep :=
  ⟨0, ⟨.tool, "send", none, "", "", {}, ""⟩⟩

def sendRequest : RuntimeTaskRequest where
  taskID := 7
  tenantID := "acme"
  endpoint := "http://rt-a"
  taskDefinition := { text := "", taskType := .executionGraph, graphNodes := [sendStep.node] }
  idempotencyKey := "order-1"
  resumeFrom := none
  resumeCheckpoint := none

/-- The storage works; the intent is recorded under the given identifier. -/
def working (entryID : Uuid) : (a : Action) → RuntimeState → Option (Answer a)
  | .test _, _ => some false
  | .submissionRecord tenantID key hashed, s =>
      some (s.recordedResponse plainEnvironment tenantID key hashed)
  | .persistTaskRecord _ _ _ _, _ => some (.ok ())
  | .permissionFailureForStep _, _ => some none
  | .walWriteIntent taskID step, s =>
      let intent := Wal.writeIntent s.log taskID "rt-a" entryID 0 (UInt32.ofNat step.stepIndex)
        "\"Tool\"" zeroDigest
      some (.ok intent.1.report)
  | .executeStep _ _, _ => some (.error "timeout")
  | .buildExecutionArtifacts _, _ => some (.ok (none, none))
  | .sendCallback _, _ => some ⟨true, .ok ()⟩
  | _, _ => none

/-- Two submissions to a runtime that has stored nothing yet. -/
def twoSubmissions : Config RuntimeState Unit Action Answer RuntimeResponse :=
  submissionPool "rt-a" sendRequest emptyRuntime 2

/-- The second submission arrives when the response of the first one is stored. -/
theorem submissions_execute_once_in_turn :
    ∃ τ c, Run (submissionSystem plainEnvironment) twoSubmissions τ c ∧
      (∃ e ∈ τ, e.tid = 1) ∧ executedUnits τ ≠ [] ∧
      (executedUnits τ).Sublist [some sendStep] := by
  have hplay : (play (submissionSystem plainEnvironment) (successive plainEnvironment sendRequest) []
      twoSubmissions (List.replicate 12 (0, working 1) ++ List.replicate 2 (1, working 2))).any
        (fun out => (out.1.any fun e => decide (e.tid = 1)) &&
          decide (executedUnits out.1 ≠ [])) = true := by
    decide +kernel
  obtain ⟨τ, c, hrun, hcheck, hevery⟩ := exists_run_of_play hplay
  have honce := submissions_execute_once plainEnvironment "rt-a" sendRequest _ 2 τ c hrun hevery
  simp only [Bool.and_eq_true, List.any_eq_true, decide_eq_true_eq] at hcheck
  exact ⟨τ, c, hrun, hcheck.1, hcheck.2, honce⟩

/-- The second submission arrives while the first one is executing the step: it finds no
record and executes the step as well. -/
theorem overlapping_submissions_execute_twice :
    ∃ τ c, Run (submissionSystem plainEnvironment) twoSubmissions τ c ∧
      taskUnits sendRequest = [some sendStep] ∧
      executedUnits τ = [some sendStep, some sendStep] := by
  have hplay : (play (submissionSystem plainEnvironment) (fun _ _ _ => true) [] twoSubmissions
      (List.replicate 9 (0, working 1) ++ List.replicate 9 (1, working 2))).any (fun out =>
        decide (executedUnits out.1 = [some sendStep, some sendStep])) = true := by
    decide +kernel
  obtain ⟨τ, c, hrun, hcheck, -⟩ := exists_run_of_play hplay
  exact ⟨τ, c, hrun, rfl, of_decide_eq_true hcheck⟩

/-! ## Submissions of several tenants -/

/-- The part of a conflict that describes the recorded task.  What it says about the final
output and the receipt is left out. -/
structure TaskSnapshot where
  taskID : Uuid
  status : TaskStatus
  stepsCompleted : Nat
  stepsTotal : Nat
  checkpointPersisted : Bool
  failureDetails : Option TaskFailureDetails
  lastStep : Option Nat
  checkpointDigest : Option String
deriving DecidableEq, Repr

def buildTaskResponseSnapshot (response : TaskSubmitResponse) : TaskSnapshot where
  taskID := response.taskID
  status := response.status
  stepsCompleted := response.stepsCompleted
  stepsTotal := response.stepsTotal
  checkpointPersisted := response.checkpoint.isSome
  failureDetails := response.failureDetails
  lastStep := response.checkpoint.map fun cp => cp.resumeToken.lastCommittedStep
  checkpointDigest := response.checkpoint.map fun cp => cp.resumeToken.checkpointDigest

/-- The task that the answer to a conflicting request shows. -/
def conflictingTask (env : Environment) (s : RuntimeState) (req : RuntimeTaskRequest) :
    Option TaskSnapshot :=
  ((s.submissions.get (submissionKey req.tenantID req.idempotencyKey)).filter fun existing =>
    existing.requestHash ≠ env.hashRequest req.hashed).map fun existing =>
      buildTaskResponseSnapshot existing.response

/-- Submissions of any requests share the tables of the runtime. -/
def tenantSystem (env : Environment) :
    System RuntimeState RuntimeTaskRequest Action Answer RuntimeResponse where
  perform := performLocal env
  spawn := fun _ _ => []

/-- One submission of each request of the list; each may start at any time. -/
def tenantPool (runtimeID : String) (reqs : List RuntimeTaskRequest) (s : RuntimeState) :
    Config RuntimeState RuntimeTaskRequest Action Answer RuntimeResponse where
  state := s
  pool := reqs.map fun req => ⟨req, handleTaskSubmit runtimeID req⟩

/-- The record that an event stores. -/
def storedRecord (env : Environment) :
    Event RuntimeTaskRequest Action Answer → Option IdempotentTaskRecord
  | ⟨_, _, .persistTaskRecord tenantID key hashed response, (.ok _ : Except String Unit)⟩ =>
      some ⟨submissionKey tenantID key, env.hashRequest hashed, response⟩
  | _ => none

/-- A submission reads and writes under its own tenant and key, and what it finds there was
stored by a submission of the same tenant with the same key. -/
structure Isolated (env : Environment) (pre : List (Event RuntimeTaskRequest Action Answer))
    (c : Config RuntimeState RuntimeTaskRequest Action Answer RuntimeResponse)
    (e : Event RuntimeTaskRequest Action Answer) : Prop where
  own : OwnRecord e.origin e.action
  found : ∀ existing, c.state.submissions.get
      (submissionKey e.origin.tenantID e.origin.idempotencyKey) = some existing →
    ∃ e' ∈ pre, storedRecord env e' = some existing ∧
      e'.origin.tenantID = e.origin.tenantID ∧ e'.origin.idempotencyKey = e.origin.idempotencyKey

/-- The second pair has a part of the first key in its tenant. -/
def Shifted (tenantID key tenantID' key' : String) : Prop :=
  ∃ part, tenantID' = tenantID ++ ":" ++ part ∧ key = part ++ ":" ++ key'

theorem submissionKey_eq_iff {tenantID key tenantID' key' : String} :
    submissionKey tenantID key = submissionKey tenantID' key' ↔
      (tenantID = tenantID' ∧ key = key') ∨ Shifted tenantID key tenantID' key' ∨
        Shifted tenantID' key' tenantID key := by
  constructor
  · intro heq
    have hchars : tenantID.toList ++ ':' :: key.toList = tenantID'.toList ++ ':' :: key'.toList := by
      simpa [submissionKey] using congrArg String.toList heq
    -- the longer tenant begins with the shorter one; either nothing or a colon comes next
    have hshift : ∀ {t k t' k' : String} {rest : List Char}, t'.toList = t.toList ++ rest →
        ':' :: k.toList = rest ++ ':' :: k'.toList → (t = t' ∧ k = k') ∨ Shifted t k t' k' := by
      intro t k t' k' rest htenant hkey
      cases rest with
      | nil => simp_all [String.toList_inj]
      | cons first part =>
          rw [List.cons_append, List.cons.injEq] at hkey
          obtain ⟨rfl, hkey⟩ := hkey
          exact Or.inr ⟨String.ofList part, by simp [← String.toList_inj, htenant],
            by simp [← String.toList_inj, hkey]⟩
    obtain ⟨rest, htenant, hkey⟩ | ⟨rest, htenant, hkey⟩ := List.append_eq_append_iff.mp hchars
    · exact (hshift htenant hkey).imp_right Or.inl
    · exact (hshift htenant hkey).imp (fun h => ⟨h.1.symm, h.2.symm⟩) Or.inr
  · rintro (⟨rfl, rfl⟩ | ⟨part, rfl, rfl⟩ | ⟨part, rfl, rfl⟩) <;> simp [submissionKey, String.append_assoc]

section Isolation

variable {env : Environment} {runtimeID : String} {reqs : List RuntimeTaskRequest}
  {s : RuntimeState} {τ pre post : List (Event RuntimeTaskRequest Action Answer)}
  {c : Config RuntimeState RuntimeTaskRequest Action Answer RuntimeResponse}
  {e : Event RuntimeTaskRequest Action Answer}

theorem tenant_own (hrun : Run (tenantSystem env) (tenantPool runtimeID reqs s) (pre ++ e :: post) c) :
    OwnRecord e.origin e.action := by
  have hlabelled : Labelled (tenantSystem env) (handleTaskSubmit runtimeID)
      (fun _ req => ExecutionIssues runtimeID req) fun _ _ _ => True :=
    ⟨by simp [tenantSystem], fun K req => handleTaskSubmit_guarded K runtimeID req⟩
  exact (hrun.issues hlabelled (by simp [tenantPool])).own

theorem key_of_storedRecord {existing : IdempotentTaskRecord}
    (hstored : storedRecord env e = some existing) (hown : OwnRecord e.origin e.action) :
    existing.submissionKey = submissionKey e.origin.tenantID e.origin.idempotencyKey := by
  unfold storedRecord at hstored
  split at hstored
  · cases hstored
    exact congrArg₂ submissionKey hown.1 hown.2
  · cases hstored

/-- A record that was not there at the start was stored in the run. -/
theorem stored_of_get {key : String} {existing : IdempotentTaskRecord}
    (hnew : s.submissions = Relational.Table.empty)
    (hrun : Run (tenantSystem env) (tenantPool runtimeID reqs s) τ c)
    (hget : c.state.submissions.get key = some existing) :
    ∃ e ∈ τ, storedRecord env e = some existing := by
  revert hget
  refine hrun.invariant (I := fun τ c => c.state.submissions.get key = some existing →
    ∃ e ∈ τ, storedRecord env e = some existing) ?_ ?_
  · intro hget
    simp [tenantPool, hnew] at hget
  · intro τ c₁ e c₂ _ ih hstep hget
    have hkept : c₁.state.submissions.get key = some existing →
        ∃ e' ∈ τ ++ [e], storedRecord env e' = some existing := fun hget => by
      obtain ⟨e', he', hstored⟩ := ih hget
      exact ⟨e', List.mem_append_left _ he', hstored⟩
    obtain ⟨tid, origin, a, answer⟩ := e
    have hperform : performLocal env a answer c₁.state = some c₂.state := hstep.perform_eq
    obtain hsame | ⟨tenantID, key', hashed, response, rfl, hrecord⟩ :=
      performLocal_submissions hperform
    · rw [hsame] at hget
      exact hkept hget
    · cases answer with
      | error err =>
          have hsame : c₁.state = c₂.state := Option.some.inj hperform
          rw [← hsame] at hget
          exact hkept hget
      | ok _ =>
          rw [hrecord, RuntimeState.record, Relational.Table.get_put] at hget
          split at hget
          · exact ⟨_, List.mem_append_right _ (List.mem_singleton_self _), hget⟩
          · exact hkept hget

end Isolation

/-- Two tenants that use the same key. -/
def twoTenants : Config RuntimeState RuntimeTaskRequest Action Answer RuntimeResponse :=
  tenantPool "rt-a" [sendRequest, { sendRequest with tenantID := "globex" }] emptyRuntime

/-- The key of this request is composed like the key "1" of the tenant "acme:eu". -/
def borrowingRequest : RuntimeTaskRequest :=
  { sendRequest with taskID := 8, idempotencyKey := "eu:1" }

end Executor
end Igris
