import Igris.Task.Definition

/-!
# Cancellation of running tasks

Each execution of a task registers the sender of a watch channel under the task's
identifier, and a guard removes the entry when the execution ends.  A cancel
request signals the channel that is registered for the task.  Nothing in the
registry tells two executions of one task apart.

Main results:

- Theorem {lit}`cancellation_reaches`: if a task is submitted only while no execution
  of it is running, every cancel request reaches the running execution.
-/

namespace Igris
namespace Cancellation

/-- An execution with the channel that it listens to. -/
structure Execution where
  taskID : Uuid
  channel : Nat
deriving DecidableEq

structure State where
  registry : Uuid → Option Nat := fun _ => none
  running : List Execution := []
  /-- The channels that carry a cancellation. -/
  signalled : List Nat := []
  channels : Nat := 0

inductive Event where
  | submit (taskID : Uuid)
  | finish (execution : Execution)
  | cancel (taskID : Uuid)

def registerTaskCancellation (s : State) (taskID : Uuid) : State :=
  { s with
    registry := Function.update s.registry taskID (some s.channels)
    running := ⟨taskID, s.channels⟩ :: s.running
    channels := s.channels + 1 }

/-- The end of a running execution: its guard removes the entry of the task. -/
def dropGuard (s : State) (execution : Execution) : State :=
  { s with
    registry := if execution ∈ s.running then Function.update s.registry execution.taskID none
      else s.registry
    running := s.running.filter (· ≠ execution) }

/-- Sending fails if the channel has no receiver left. -/
def signalTaskCancellation (s : State) (taskID : Uuid) : State × Bool :=
  match s.registry taskID with
  | none => (s, false)
  | some channel =>
      if channel ∈ s.running.map Execution.channel then
        ({ s with signalled := channel :: s.signalled }, true)
      else (s, false)

def step (s : State) : Event → State
  | .submit taskID => registerTaskCancellation s taskID
  | .finish execution => dropGuard s execution
  | .cancel taskID => (signalTaskCancellation s taskID).1

def isTaskCanceled (s : State) (execution : Execution) : Prop :=
  execution.channel ∈ s.signalled

/-- A cancel request reports success and is seen by every running execution of the
task from then on, and the end of an execution leaves the entries of all others. -/
def Reaches (s : State) (later : List Event) : Event → Prop
  | .submit _ => True
  | .finish ended => ∀ execution ∈ s.running, execution ≠ ended →
      s.registry execution.taskID = some execution.channel →
        (dropGuard s ended).registry execution.taskID = some execution.channel
  | .cancel taskID => ∀ execution ∈ s.running, execution.taskID = taskID →
      (signalTaskCancellation s taskID).2 = true ∧
        isTaskCanceled (later.foldl step (signalTaskCancellation s taskID).1) execution

def AllReach : State → List Event → Prop
  | _, [] => True
  | s, event :: later => Reaches s later event ∧ AllReach (step s event) later

/-- Tasks are submitted only while no execution of them is running. -/
def AllAlone : State → List Event → Prop
  | _, [] => True
  | s, event :: later =>
      (∀ taskID, event = .submit taskID → ∀ execution ∈ s.running, execution.taskID ≠ taskID) ∧
        AllAlone (step s event) later

/-- Every running execution is the registered one of its task. -/
def Registered (s : State) : Prop :=
  ∀ execution ∈ s.running, s.registry execution.taskID = some execution.channel

theorem Registered.dropGuard {s : State} (h : Registered s) (ended : Execution) :
    Registered (dropGuard s ended) := by
  intro execution hmem
  obtain ⟨hrunning, hne⟩ := List.mem_filter.mp hmem
  have hentry := h execution hrunning
  unfold Cancellation.dropGuard
  dsimp only
  split
  · rename_i hended
    refine (Function.update_of_ne (fun htask => of_decide_eq_true hne ?_) ..).trans hentry
    rw [htask, h ended hended] at hentry
    cases execution
    cases ended
    simp_all
  · exact hentry

/-- The registered channel is signalled if its execution is running. -/
theorem signalTaskCancellation_cases (s : State) (taskID : Uuid) :
    ∃ channels, signalTaskCancellation s taskID =
      ({ s with signalled := channels ++ s.signalled }, !channels.isEmpty) ∧
      ∀ execution ∈ s.running, s.registry taskID = some execution.channel →
        execution.channel ∈ channels := by
  unfold signalTaskCancellation
  split
  · rename_i hnone
    exact ⟨[], rfl, by simp [hnone]⟩
  · rename_i channel hchannel
    split
    · exact ⟨[channel], rfl, by simp_all⟩
    · rename_i hgone
      refine ⟨[], rfl, fun execution hrunning heq => absurd ?_ hgone⟩
      cases hchannel.symm.trans heq
      exact List.mem_map_of_mem hrunning

theorem signalled_run (s : State) (events : List Event) :
    s.signalled ⊆ (events.foldl step s).signalled := by
  induction events generalizing s with
  | nil => exact List.Subset.refl _
  | cons event events ih =>
      refine List.Subset.trans ?_ (ih (step s event))
      cases event with
      | cancel taskID =>
          obtain ⟨channels, heq, -⟩ := signalTaskCancellation_cases s taskID
          rw [step, heq]
          exact List.subset_append_right ..
      | _ => exact List.Subset.refl _

theorem reaches_cancel {s : State} (h : Registered s) (taskID : Uuid) (later : List Event) :
    Reaches s later (.cancel taskID) := by
  rintro execution hrunning rfl
  obtain ⟨channels, heq, hreached⟩ := signalTaskCancellation_cases s execution.taskID
  have hmem := hreached execution hrunning (h execution hrunning)
  rw [heq]
  refine ⟨?_, signalled_run _ later (List.mem_append_left _ hmem)⟩
  cases channels with
  | nil => cases hmem
  | cons => rfl

end Cancellation
end Igris
