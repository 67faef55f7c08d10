import Igris.System.Pool

/-!
# Concrete schedules

A schedule names the threads that act, one after the other, and how what lies
outside the model answers each of them.  Reads and statements of a smooth step are
answered from the tables.
-/

namespace Igris

open Concurrency

/-- Nothing fails; {lit}`runtime` is the runtime that gets selected. -/
def smoothly (runtime : RuntimeInfo) : (a : Action) → State → Option (Answer a)
  | .store op, s => some (op.apply id s.store).1
  | .getTask taskID tenantID, s => some (s.store.taskOfTenant taskID tenantID)
  | .getTaskByIdempotencyKey tenantID key, s => some (s.store.taskByIdempotencyKey tenantID key)
  | .getBoundActionRunByIdempotency tenantID key, s =>
      some (s.store.boundRunByIdempotency tenantID key)
  | .getAllCheckpoints taskID, s => some (.ok (s.store.allCheckpoints taskID))
  | .getTenantID taskID, s => some (s.store.tenantOf taskID)
  | .newUUID, _ => some (1 : BitVec 128)
  | .selectRuntime _ _, _ => some (.ok runtime)
  | .call _, _ => some (.ok ())
  | .rewrite _ definition, _ => some (.ok definition)
  | .go _, _ => some ()
  | .post _, s => some s.posted.length
  | .awaitResponse _, _ => some (.accepted { statusName := "completed" })
  | .test _, _ => some false
  | .submissionRecord _ _ _, _ => some none
  | .persistTaskRecord _ _ _ _, _ => some (.ok ())
  | .permissionFailureForStep _, _ => some none
  | .walCommittedState _, _ => some (.ok (none, ""))
  | .walValidateExternal _ _, _ => some (.ok ())
  | .walImportEntries _ _, _ => some (.ok ())
  | .walWriteIntent taskID step, _ => some (.ok {
      entryID := BitVec.ofNat 128 (step.stepIndex + 1), taskID := taskID,
      stepIndex := step.stepIndex, stepType := "", status := "Intent", inputDigest := "",
      outputDigest := none, timestampMs := 0, runtimeID := "", signature := none })
  | .walWriteCommitted intent outputDigest, _ =>
      some (.ok { intent with status := "Committed", outputDigest := some outputDigest })
  | .walComputeDigest _, _ => some (.ok "")
  | .executeStep _ _, _ => some (.ok { outputDigest := "" })
  | .executeBehaviorTree _, _ => some (.ok { status := .success })
  | .buildExecutionArtifacts _, _ => some (.ok (none, none))
  | .sendCallback _, _ => some ⟨true, .ok ()⟩

/-- Whatever can be refused is refused, and every answer is lost on its way. -/
def refused : (a : Action) → State → Option (Answer a)
  | .store _, _ => some (.error .database)
  | .getTask _ _, _ => some (.error .database)
  | .getTaskByIdempotencyKey _ _, _ => some (.error .database)
  | .getBoundActionRunByIdempotency _ _, _ => some (.error .database)
  | .getAllCheckpoints _, _ => some (.error .database)
  | .getTenantID _, _ => some (.error .database)
  | .selectRuntime _ _, _ => some (.error "no healthy runtime")
  | .call _, _ => some (.error "unavailable")
  | .awaitResponse _, _ => some .unreachable
  | .sendCallback _, _ => some ⟨false, .error "connection refused"⟩
  | _, _ => none

/-- No condition on the steps. -/
def anyStep : List SystemEvent → SystemConfig → SystemEvent → Bool :=
  fun _ _ _ => true

/-- A schedule that can be played is a run. -/
theorem exists_systemRun {store : Store} {calls : List Origin} {script : Script State Action Answer}
    {meets : List SystemEvent → SystemConfig → SystemEvent → Bool}
    {check : List SystemEvent × SystemConfig → Bool} (hcalls : calls.all Origin.external = true)
    (h : (play (system id id) meets [] (initial id store calls) script).any check = true) :
    ∃ τ c, SystemRun id id store calls τ c ∧ check (τ, c) = true ∧
      EveryStep (system id id) (initial id store calls) τ fun pre c₁ e => meets pre c₁ e = true := by
  rcases exists_run_of_play h with ⟨τ, c, hrun, hcheck, hevery⟩
  exact ⟨τ, c, ⟨List.all_eq_true.mp hcalls, hrun⟩, hcheck, hevery⟩

/-! ## Finding events in a trace -/

/-- An event of the list satisfies {lit}`last`, and none before it {lit}`barred`. -/
def reaches {α : Type} (barred last : α → Bool) : List α → Bool
  | [] => false
  | x :: xs => last x || (!barred x && reaches barred last xs)

theorem exists_of_reaches {α : Type} {barred last : α → Bool} {xs : List α}
    (h : reaches barred last xs = true) :
    ∃ q e s, xs = q ++ e :: s ∧ (∀ x ∈ q, barred x = false) ∧ last e = true := by
  induction xs with
  | nil => cases h
  | cons x xs ih =>
      simp only [reaches, Bool.or_eq_true, Bool.and_eq_true, Bool.not_eq_true'] at h
      rcases h with hlast | ⟨hbarred, hrest⟩
      · exact ⟨[], x, xs, rfl, by simp, hlast⟩
      · rcases ih hrest with ⟨q, e, s, rfl, hq, he⟩
        exact ⟨x :: q, e, s, rfl, List.forall_mem_cons.mpr ⟨hbarred, hq⟩, he⟩

/-- One event satisfies {lit}`first`, a later one {lit}`last`, and none between them
{lit}`barred`. -/
def follows {α : Type} (first barred last : α → Bool) : List α → Bool
  | [] => false
  | x :: xs => (first x && reaches barred last xs) || follows first barred last xs

theorem exists_of_follows {α : Type} {first barred last : α → Bool} {xs : List α}
    (h : follows first barred last xs = true) :
    ∃ p r q e s, xs = p ++ r :: (q ++ e :: s) ∧ first r = true ∧
      (∀ x ∈ q, barred x = false) ∧ last e = true := by
  induction xs with
  | nil => cases h
  | cons x xs ih =>
      simp only [follows, Bool.or_eq_true, Bool.and_eq_true] at h
      rcases h with ⟨hfirst, hrest⟩ | hrest
      · rcases exists_of_reaches hrest with ⟨q, e, s, rfl, hq, he⟩
        exact ⟨[], x, q, e, s, rfl, hfirst, hq, he⟩
      · rcases ih hrest with ⟨p, r, q, e, s, rfl, hr, hq, he⟩
        exact ⟨x :: p, r, q, e, s, rfl, hr, hq, he⟩

end Igris
