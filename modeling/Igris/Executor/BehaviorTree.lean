import Igris.Lib.Json

/-!
# Behaviour trees

A behaviour tree is ticked from its root until it no longer answers
{lit}`running`.  Action nodes call tools.  With a write-ahead log attached, an action
derives an idempotency key from the task, the tick, the tool and the arguments, and the
registry answers a repeated key from its cache.

Main results:

- Theorem {lit}`tick_ne_running`: a tree of the modelled nodes ends in one tick.
- Theorem {lit}`wal_transparent_iff`: the log changes neither calls nor statuses exactly if
  no call repeats the key of a completed call.
-/

namespace Igris
namespace BehaviorTree

/-! ## Nodes -/

inductive NodeStatus where
  | success
  | failure
  | running
  | skipped
deriving DecidableEq, Repr

inductive Tree where
  | sequence (name : String) (children : List Tree)
  | selector (name : String) (children : List Tree)
  | retry (name : String) (child : Tree) (maxRetries : Nat)
  | toolAction (name toolName : String) (args : Json)
  | checkBlackboard (name key : String) (expected : Json)
  | setBlackboard (name key : String) (value : Json)

/-- The part of a node that changes: the child that a composite stands at, and the retries
that are used up. -/
inductive Cursor where
  | leaf
  | composite (currentChild : Nat) (children : List Cursor)
  | retry (currentRetries : Nat) (child : Cursor)

mutual

/-- A node as it is built, and as {lit}`reset` leaves it. -/
def Tree.start : Tree → Cursor
  | .sequence _ children => .composite 0 (startAll children)
  | .selector _ children => .composite 0 (startAll children)
  | .retry _ child _ => .retry 0 child.start
  | .toolAction _ _ _ => .leaf
  | .checkBlackboard _ _ _ => .leaf
  | .setBlackboard _ _ _ => .leaf

def startAll : List Tree → List Cursor
  | [] => []
  | child :: children => child.start :: startAll children

end

def Cursor.currentChild : Cursor → Nat
  | .composite currentChild _ => currentChild
  | _ => 0

def Cursor.children : Cursor → List Cursor
  | .composite _ children => children
  | _ => []

def Cursor.currentRetries : Cursor → Nat
  | .retry currentRetries _ => currentRetries
  | _ => 0

def Cursor.child : Cursor → Cursor
  | .retry _ child => child
  | cursor => cursor

/-! ## Tools -/

structure ToolResult where
  success : Bool
  output : String := ""
  error : Option String := none
deriving DecidableEq

/-- The tools of a registry and the blackboard, with a state of their own.  A call fails if
the tool is unknown, refuses its arguments or reports an error. -/
structure Environment (σ : Type) where
  execute : String → Json → σ → Except String ToolResult × σ
  /-- The blackboard has this value under the key. -/
  holds : σ → String → Json → Bool
  set : String → Json → σ → σ

/-- What an observer sees: the tool calls with their answers, and what the nodes return. -/
inductive Event where
  | call (toolName : String) (args : Json) (answer : Except String ToolResult)
  | status (node : String) (status : NodeStatus)

def Event.isCall : Event → Bool
  | .call _ _ _ => true
  | .status _ _ => false

/-- An attached write-ahead log. -/
structure WalSession where
  taskID : String
  sha256 : String → List UInt8

/-- The key of one logical tool call. -/
def WalSession.key (session : WalSession) (tickCount : Nat) (toolName : String) (args : Json) :
    String :=
  session.taskID ++ ":" ++ tickCount.repr ++ ":" ++ toolName ++ ":" ++
    Text.hexEncode (session.sha256 (String.ofList (Json.print Json.serdeEscape args)))

structure Context (σ : Type) where
  world : σ
  tickCount : Nat := 0
  walSession : Option WalSession := none
  /-- Results that the registry keeps by idempotency key. -/
  completedCalls : List (String × ToolResult) := []
  trace : List Event := []

variable {σ : Type}

def Context.observe (ctx : Context σ) (event : Event) : Context σ :=
  { ctx with trace := ctx.trace ++ [event] }

/-- Call the tool. -/
def registryExecute (env : Environment σ) (toolName : String) (args : Json) (ctx : Context σ) :
    Except String ToolResult × Context σ :=
  let (answer, world) := env.execute toolName args ctx.world
  (answer, { ctx with world := world }.observe (.call toolName args answer))

/-- Answer from the cache, or call the tool and keep a result. -/
def executeIdempotent (env : Environment σ) (key toolName : String) (args : Json)
    (ctx : Context σ) : Except String ToolResult × Context σ :=
  match ctx.completedCalls.lookup key with
  | some cached => (.ok cached, ctx)
  | none =>
      let (answer, ctx) := registryExecute env toolName args ctx
      match answer with
      | .ok result =>
          (.ok result, { ctx with completedCalls := (key, result) :: ctx.completedCalls })
      | .error err => (.error err, ctx)

/-- The call that an action node makes. -/
def executeTool (env : Environment σ) (toolName : String) (args : Json) (ctx : Context σ) :
    Except String ToolResult × Context σ :=
  match ctx.walSession with
  | some session =>
      executeIdempotent env (session.key ctx.tickCount toolName args) toolName args ctx
  | none => registryExecute env toolName args ctx

/-- An error of the tool counts as a failure. -/
def toolStatus : Except String ToolResult → NodeStatus
  | .ok result => if result.success then .success else .failure
  | .error _ => .failure

/-! ## Ticking -/

/-- A node returns. -/
def finish (name : String) (status : NodeStatus) (cursor : Cursor) (ctx : Context σ) :
    NodeStatus × Cursor × Context σ :=
  (status, cursor, ctx.observe (.status name status))

/-- The retry loop: a failed child is reset and ticked again while retries are left. -/
def retryLoop (tickChild : Cursor → Context σ → NodeStatus × Cursor × Context σ)
    (fresh : Cursor) : Nat → Nat → Cursor → Context σ → NodeStatus × Cursor × Context σ
  | left, used, cursor, ctx =>
      match tickChild cursor ctx with
      | (.success, cursor, ctx) => (.success, .retry 0 cursor, ctx)
      | (.running, cursor, ctx) => (.running, .retry used cursor, ctx)
      | (.skipped, cursor, ctx) => (.skipped, .retry used cursor, ctx)
      | (.failure, _, ctx) =>
          match left with
          | 0 => (.failure, .retry 0 fresh, ctx)
          | left + 1 => retryLoop tickChild fresh left (used + 1) fresh ctx

/-- A composite that is still running stands at its child; otherwise it is reset. -/
def compositeCursor (fresh : Cursor) (status : NodeStatus) (currentChild : Nat)
    (children : List Cursor) : Cursor :=
  if status = .running then .composite currentChild children else fresh

mutual

def tick (env : Environment σ) : Tree → Cursor → Context σ → NodeStatus × Cursor × Context σ
  | .sequence name children, cursor, ctx =>
      let (status, currentChild, cursors, ctx) :=
        tickChildren env .success children cursor.children cursor.currentChild ctx
      finish name status
        (compositeCursor (.composite 0 (startAll children)) status currentChild cursors) ctx
  | .selector name children, cursor, ctx =>
      let (status, currentChild, cursors, ctx) :=
        tickChildren env .failure children cursor.children cursor.currentChild ctx
      finish name status
        (compositeCursor (.composite 0 (startAll children)) status currentChild cursors) ctx
  | .retry name child maxRetries, cursor, ctx =>
      let (status, cursor, ctx) := retryLoop (tick env child) child.start
        (maxRetries - cursor.currentRetries) cursor.currentRetries cursor.child ctx
      finish name status cursor ctx
  | .toolAction name toolName args, cursor, ctx =>
      let (answer, ctx) := executeTool env toolName args ctx
      finish name (toolStatus answer) cursor ctx
  | .checkBlackboard name key expected, cursor, ctx =>
      finish name (if env.holds ctx.world key expected then .success else .failure) cursor ctx
  | .setBlackboard name key value, cursor, ctx =>
      finish name .success cursor { ctx with world := env.set key value ctx.world }

/-- The loop of a composite over its children.  A sequence goes on after a success, a
selector after a failure, both after a child that was skipped; any other status is returned.
The first children were finished by earlier ticks. -/
def tickChildren (env : Environment σ) (goesOn : NodeStatus) : List Tree → List Cursor → Nat →
    Context σ → NodeStatus × Nat × List Cursor × Context σ
  | [], _, _, ctx => (goesOn, 0, [], ctx)
  | _ :: children, cursors, done + 1, ctx =>
      let (status, currentChild, cursors', ctx) :=
        tickChildren env goesOn children cursors.tail done ctx
      (status, currentChild + 1, cursors.headD .leaf :: cursors', ctx)
  | child :: children, cursors, 0, ctx =>
      let (status, cursor, ctx) := tick env child (cursors.headD child.start) ctx
      if status = goesOn ∨ status = .skipped then
        let (status, currentChild, cursors', ctx) :=
          tickChildren env goesOn children cursors.tail 0 ctx
        (status, currentChild + 1, cursor :: cursors', ctx)
      else (status, 0, cursor :: cursors.tail, ctx)

end

/-! ## The executor -/

structure ExecutionResult where
  status : NodeStatus
  tickCount : Nat
  /-- Canceled, out of ticks or past the deadline. -/
  stopped : Bool
deriving DecidableEq

/-- Tick until the tree no longer answers {lit}`running`, or the executor stops; {lit}`none`
if the fuel does not last.  The entries that the executor writes to the log around a tick are
left out: their outcome is only reported. -/
def execute (env : Environment σ) (stops : Nat → Bool) (tree : Tree) :
    Nat → Nat → Cursor → Context σ → Option (ExecutionResult × Context σ)
  | 0, _, _, _ => none
  | fuel + 1, tickCount, cursor, ctx =>
      if stops tickCount then some (⟨.running, tickCount, true⟩, ctx)
      else
        let (status, cursor, ctx) := tick env tree cursor { ctx with tickCount := tickCount + 1 }
        if status = .running then execute env stops tree fuel (tickCount + 1) cursor ctx
        else some (⟨status, tickCount + 1, false⟩, ctx)

mutual

/-- The tools of the action nodes, at any depth. -/
def Tree.tools : Tree → List String
  | .sequence _ children => toolsAll children
  | .selector _ children => toolsAll children
  | .retry _ child _ => child.tools
  | .toolAction _ toolName _ => [toolName]
  | .checkBlackboard _ _ _ => []
  | .setBlackboard _ _ _ => []

def toolsAll : List Tree → List String
  | [] => []
  | child :: children => child.tools ++ toolsAll children

end

/-- The tools that a trace calls. -/
def calledTools (trace : List Event) : List String :=
  trace.filterMap fun event =>
    match event with
    | .call toolName _ _ => some toolName
    | .status _ _ => none

/-! ## One tick is enough -/

variable {tickChild : Cursor → Context σ → NodeStatus × Cursor × Context σ} {tickCount : Nat}
  {tools : List String}

theorem retryLoop_ends
    (hchild : ∀ cursor ctx, (tickChild cursor ctx).1 = .success ∨
      (tickChild cursor ctx).1 = .failure)
    (fresh : Cursor) (left used : Nat) (cursor : Cursor) (ctx : Context σ) :
    (retryLoop tickChild fresh left used cursor ctx).1 = .success ∨
      (retryLoop tickChild fresh left used cursor ctx).1 = .failure := by
  fun_induction retryLoop tickChild fresh left used cursor ctx with
  | case1 | case4 => simp
  | case2 _ _ cursor ctx _ _ htick | case3 _ _ cursor ctx _ _ htick =>
      have h := hchild cursor ctx
      simp [htick] at h
  | case5 _ _ _ _ _ _ _ ih => exact ih

mutual

/-- Every node of the modelled kinds succeeds or fails. -/
theorem tick_ends (env : Environment σ) : (tree : Tree) → (cursor : Cursor) → (ctx : Context σ) →
    (tick env tree cursor ctx).1 = .success ∨ (tick env tree cursor ctx).1 = .failure
  | .sequence _ children, cursor, ctx => by
      simp only [tick, finish]
      exact tickChildren_ends env .success (.inl rfl) children _ _ ctx
  | .selector _ children, cursor, ctx => by
      simp only [tick, finish]
      exact tickChildren_ends env .failure (.inr rfl) children _ _ ctx
  | .retry _ child maxRetries, cursor, ctx => by
      simp only [tick, finish]
      exact retryLoop_ends (tick_ends env child) _ _ _ _ ctx
  | .toolAction _ toolName args, cursor, ctx => by
      simp only [tick, finish, toolStatus]
      split
      · split <;> simp
      · simp
  | .checkBlackboard _ key expected, cursor, ctx => by
      simp only [tick, finish]
      split <;> simp
  | .setBlackboard _ key value, cursor, ctx => .inl rfl

theorem tickChildren_ends (env : Environment σ) (goesOn : NodeStatus)
    (hgoesOn : goesOn = .success ∨ goesOn = .failure) : (children : List Tree) →
    (cursors : List Cursor) → (done : Nat) → (ctx : Context σ) →
    (tickChildren env goesOn children cursors done ctx).1 = .success ∨
      (tickChildren env goesOn children cursors done ctx).1 = .failure
  | [], _, _, _ => by simpa only [tickChildren] using hgoesOn
  | _ :: children, cursors, done + 1, ctx => by
      simp only [tickChildren]
      exact tickChildren_ends env goesOn hgoesOn children _ _ ctx
  | child :: children, cursors, 0, ctx => by
      simp only [tickChildren]
      split
      · exact tickChildren_ends env goesOn hgoesOn children _ _ _
      · exact tick_ends env child _ ctx

end

variable (env : Environment σ)

theorem tick_ne_running (tree : Tree) (cursor : Cursor) (ctx : Context σ) :
    (tick env tree cursor ctx).1 ≠ .running := by
  rcases tick_ends env tree cursor ctx with h | h <;> simp [h]

theorem execute_stopped {stops : Nat → Bool} (hstop : stops tickCount = true) (tree : Tree)
    (fuel : Nat) (cursor : Cursor) (ctx : Context σ) :
    execute env stops tree (fuel + 1) tickCount cursor ctx =
      some (⟨.running, tickCount, true⟩, ctx) := by
  simp only [execute, hstop, if_true]

theorem execute_ticked {stops : Nat → Bool} (hstop : ¬stops tickCount = true) (tree : Tree)
    (fuel : Nat) (cursor : Cursor) (ctx : Context σ) :
    execute env stops tree (fuel + 1) tickCount cursor ctx =
      some (⟨(tick env tree cursor { ctx with tickCount := tickCount + 1 }).1, tickCount + 1,
        false⟩, (tick env tree cursor { ctx with tickCount := tickCount + 1 }).2.2) := by
  simp only [execute, hstop, Bool.false_eq_true, if_false, tick_ne_running]

/-! ## The trace grows -/

/-- Between two traces only these tools are called. -/
def CallsOnly (tools : List String) (before after : List Event) : Prop :=
  ∀ tool ∈ calledTools after, tool ∈ calledTools before ∨ tool ∈ tools

/-- The trace goes on, with calls of these tools only. -/
structure Grows (tools : List String) (before after : List Event) : Prop where
  extend : before <+: after
  calls : CallsOnly tools before after

theorem Grows.refl (tools : List String) (trace : List Event) : Grows tools trace trace :=
  ⟨List.prefix_rfl, fun _ => .inl⟩

theorem Grows.trans {t₁ t₂ t₃ : List Event} (h₁ : Grows tools t₁ t₂) (h₂ : Grows tools t₂ t₃) :
    Grows tools t₁ t₃ := by
  refine ⟨h₁.extend.trans h₂.extend, ?_⟩
  intro tool htool
  rcases h₂.calls tool htool with hmid | hnew
  · exact h₁.calls tool hmid
  · exact .inr hnew

theorem Grows.mono {tools' : List String} {before after : List Event}
    (h : Grows tools before after) (hsub : tools ⊆ tools') : Grows tools' before after :=
  ⟨h.extend, fun tool htool => (h.calls tool htool).imp id fun hmem => hsub hmem⟩

theorem finish_grows (tools : List String) (name : String) (status : NodeStatus)
    (cursor : Cursor) (ctx : Context σ) :
    Grows tools ctx.trace (finish name status cursor ctx).2.2.trace := by
  refine ⟨List.prefix_append _ _, ?_⟩
  intro tool htool
  left
  simpa [finish, Context.observe, calledTools] using htool

theorem registryExecute_grows (toolName : String) (args : Json) (ctx : Context σ) :
    Grows [toolName] ctx.trace (registryExecute env toolName args ctx).2.trace := by
  refine ⟨List.prefix_append _ _, ?_⟩
  intro tool htool
  simp only [registryExecute, Context.observe, calledTools, List.filterMap_append,
    List.filterMap_cons, List.filterMap_nil, List.mem_append] at htool
  exact htool

theorem executeIdempotent_grows (key toolName : String) (args : Json) (ctx : Context σ) :
    Grows [toolName] ctx.trace (executeIdempotent env key toolName args ctx).2.trace := by
  unfold executeIdempotent
  split
  · exact .refl _ _
  · simp only
    split <;> exact registryExecute_grows env toolName args ctx

theorem executeTool_grows (toolName : String) (args : Json) (ctx : Context σ) :
    Grows [toolName] ctx.trace (executeTool env toolName args ctx).2.trace := by
  unfold executeTool
  split
  · exact executeIdempotent_grows env _ toolName args ctx
  · exact registryExecute_grows env toolName args ctx

/-- The loop goes on from the first tick of the child. -/
theorem retryLoop_grows_child
    (hchild : ∀ cursor ctx, Grows tools ctx.trace (tickChild cursor ctx).2.2.trace)
    (fresh : Cursor) (left used : Nat) (cursor : Cursor) (ctx : Context σ) :
    Grows tools (tickChild cursor ctx).2.2.trace
      (retryLoop tickChild fresh left used cursor ctx).2.2.trace := by
  fun_induction retryLoop tickChild fresh left used cursor ctx with
  | case5 _ _ _ _ ctx' htick _ ih =>
      rw [htick]
      exact (hchild fresh ctx').trans ih
  | _ =>
      simp only [*]
      exact .refl _ _

mutual

/-- A tick calls no tool but those of the action nodes. -/
theorem tick_grows (env : Environment σ) :
    (tree : Tree) → (cursor : Cursor) → (ctx : Context σ) →
    Grows tree.tools ctx.trace (tick env tree cursor ctx).2.2.trace
  | .sequence _ children, _, ctx | .selector _ children, _, ctx =>
      (tickChildren_grows env _ children _ _ ctx).trans (finish_grows _ _ _ _ _)
  | .retry _ child _, _, ctx =>
      ((tick_grows env child _ ctx).trans
        (retryLoop_grows_child (tick_grows env child) _ _ _ _ ctx)).trans (finish_grows _ _ _ _ _)
  | .toolAction _ toolName args, _, ctx =>
      (executeTool_grows env toolName args ctx).trans (finish_grows _ _ _ _ _)
  | .checkBlackboard _ _ _, _, ctx => finish_grows _ _ _ _ ctx
  | .setBlackboard _ key value, _, ctx =>
      finish_grows _ _ _ _ { ctx with world := env.set key value ctx.world }

theorem tickChildren_grows (env : Environment σ) (goesOn : NodeStatus) :
    (children : List Tree) → (cursors : List Cursor) → (done : Nat) → (ctx : Context σ) →
    Grows (toolsAll children) ctx.trace
      (tickChildren env goesOn children cursors done ctx).2.2.2.trace
  | [], _, _, _ => by
      simp only [tickChildren]
      exact .refl _ _
  | _ :: children, cursors, done + 1, ctx => by
      simp only [tickChildren, toolsAll]
      exact (tickChildren_grows env goesOn children _ done ctx).mono
        (List.subset_append_right _ _)
  | child :: children, cursors, 0, ctx => by
      have h := (tick_grows env child (cursors.headD child.start) ctx).mono
        (List.subset_append_left _ (toolsAll children))
      simp only [tickChildren, toolsAll]
      split
      · exact h.trans ((tickChildren_grows env goesOn children _ 0 _).mono
          (List.subset_append_right _ _))
      · exact h

end

/-- The loop goes on from the tick of the first child. -/
theorem tickChildren_extends_child (env : Environment σ) (goesOn : NodeStatus) (child : Tree)
    (children : List Tree) (cursors : List Cursor) (ctx : Context σ) :
    (tick env child (cursors.headD child.start) ctx).2.2.trace <+:
      (tickChildren env goesOn (child :: children) cursors 0 ctx).2.2.2.trace := by
  simp only [tickChildren]
  split
  · exact (tickChildren_grows env goesOn children _ 0 _).extend
  · exact List.prefix_rfl

theorem execute_grows (env : Environment σ) (stops : Nat → Bool) (tree : Tree) (fuel : Nat)
    {cursor : Cursor} {ctx : Context σ} {out : ExecutionResult × Context σ}
    (h : execute env stops tree fuel tickCount cursor ctx = some out) :
    Grows tree.tools ctx.trace out.2.trace := by
  induction fuel generalizing tickCount cursor ctx with
  | zero => simp [execute] at h
  | succ fuel ih =>
      have htick := tick_grows env tree cursor { ctx with tickCount := tickCount + 1 }
      simp only [execute] at h
      split at h
      · cases h
        exact .refl _ _
      · split at h
        · exact htick.trans (ih h)
        · cases h
          exact htick

/-! ## Repeated calls -/

/-- The keys with a kept result after an event. -/
def taking (key : String → Json → String) (taken : List String) : Event → List String
  | .call toolName args (.ok _) => key toolName args :: taken
  | _ => taken

/-- The event is a call whose key already has a kept result. -/
def Repeats (key : String → Json → String) (taken : List String) : Event → Prop
  | .call toolName args _ => key toolName args ∈ taken
  | .status _ _ => False

/-- No call repeats the key of a completed call, neither of an earlier run nor of this one. -/
def NoRepeat (key : String → Json → String) : List String → List Event → Prop
  | _, [] => True
  | taken, event :: events =>
      ¬ Repeats key taken event ∧ NoRepeat key (taking key taken event) events

section Repeated

variable {key : String → Json → String} {taken : List String} {a : List Event}

theorem noRepeat_append {b : List Event} :
    NoRepeat key taken (a ++ b) ↔ NoRepeat key taken a ∧ NoRepeat key (a.foldl (taking key) taken) b := by
  induction a generalizing taken with
  | nil => simp [NoRepeat]
  | cons event a ih => simp [NoRepeat, ih, and_assoc]

theorem noRepeat_concat {event : Event} :
    NoRepeat key taken (a ++ [event]) ↔
      NoRepeat key taken a ∧ ¬ Repeats key (a.foldl (taking key) taken) event := by
  simp [noRepeat_append, NoRepeat]

theorem NoRepeat.of_beginning {b : List Event} (h : NoRepeat key taken b) (hab : a <+: b) :
    NoRepeat key taken a := by
  obtain ⟨rest, rfl⟩ := hab
  exact (noRepeat_append.mp h).1

end Repeated

/-! ## Running with and without the log -/

section Lockstep

variable {env : Environment σ} {session : WalSession} {taken : List String}
  {p w p' w' : Context σ}

/-- The run without the log and the run with it agree so far, and the cache has the keys of
the completed calls. -/
structure Synced (session : WalSession) (tickCount : Nat) (taken : List String)
    (p w : Context σ) : Prop where
  world : w.world = p.world
  trace : w.trace = p.trace
  plainTick : p.tickCount = tickCount
  loggedTick : w.tickCount = tickCount
  plain : p.walSession = none
  logged : w.walSession = some session
  fresh : NoRepeat (session.key tickCount) taken p.trace
  kept : w.completedCalls.map Prod.fst = p.trace.foldl (taking (session.key tickCount)) taken

/-- The two runs have been seen to differ, after a call that repeats a key. -/
def Diverged (session : WalSession) (tickCount : Nat) (taken : List String) (p w : Context σ) :
    Prop :=
  (∃ common event event', event ≠ event' ∧ common ++ [event] <+: p.trace ∧
    common ++ [event'] <+: w.trace) ∧ ¬ NoRepeat (session.key tickCount) taken p.trace

theorem Diverged.extend (h : Diverged session tickCount taken p w) (hp : p.trace <+: p'.trace)
    (hw : w.trace <+: w'.trace) : Diverged session tickCount taken p' w' := by
  obtain ⟨⟨common, event, event', hne, hcommon, hcommon'⟩, hrepeats⟩ := h
  refine ⟨⟨common, event, event', hne, hcommon.trans hp, hcommon'.trans hw⟩, ?_⟩
  intro hfresh
  exact hrepeats (hfresh.of_beginning hp)

theorem Diverged.trace_ne (h : Diverged session tickCount taken p w) : w.trace ≠ p.trace := by
  obtain ⟨⟨common, event, event', hne, ⟨rest, hp⟩, ⟨rest', hw⟩⟩, -⟩ := h
  intro heq
  rw [← hp, ← hw, List.append_assoc, List.append_assoc, List.append_cancel_left_eq] at heq
  exact hne (List.cons.inj heq).1.symm

theorem Synced.observe_status (h : Synced session tickCount taken p w) (name : String)
    (status : NodeStatus) :
    Synced session tickCount taken (p.observe (.status name status))
      (w.observe (.status name status)) where
  world := h.world
  trace := by simp [Context.observe, h.trace]
  plainTick := h.plainTick
  loggedTick := h.loggedTick
  plain := h.plain
  logged := h.logged
  fresh := noRepeat_concat.mpr ⟨h.fresh, id⟩
  kept := by simpa [Context.observe, taking] using h.kept

theorem lookup_eq_none_iff_notMem {entries : List (String × ToolResult)} {key : String} :
    entries.lookup key = none ↔ key ∉ entries.map Prod.fst := by
  simp only [List.lookup_eq_none_iff, List.mem_map, Prod.exists, exists_and_right,
    exists_eq_right, bne_iff_ne, ne_eq, Prod.forall]
  constructor
  · rintro h ⟨value, hmem⟩
    exact h key value hmem rfl
  · rintro h k value hmem rfl
    exact h ⟨value, hmem⟩

/-- A call of a fresh key is made in both runs. -/
theorem Synced.call_fresh (h : Synced session tickCount taken p w) (env : Environment σ)
    {toolName : String} {args : Json}
    (hnone : w.completedCalls.lookup (session.key tickCount toolName args) = none) :
    (executeTool env toolName args w).1 = (executeTool env toolName args p).1 ∧
      Synced session tickCount taken (executeTool env toolName args p).2
        (executeTool env toolName args w).2 := by
  have hfresh : session.key tickCount toolName args ∉
      p.trace.foldl (taking (session.key tickCount)) taken := by
    rw [← h.kept]
    exact lookup_eq_none_iff_notMem.mp hnone
  simp only [executeTool, h.plain, h.logged, executeIdempotent, h.loggedTick, hnone,
    registryExecute, h.world]
  cases (env.execute toolName args p.world).1 with
  | error | ok =>
      exact ⟨rfl, rfl, by simp [Context.observe, h.trace], h.plainTick, rfl, rfl, rfl,
        noRepeat_concat.mpr ⟨h.fresh, hfresh⟩, by simpa [Context.observe, taking] using h.kept⟩

/-- A call that repeats a key is made in the run without the log only, which shows as soon as
the node returns. -/
theorem Synced.call_repeated (h : Synced session tickCount taken p w) {name toolName : String}
    {args : Json} {cached : ToolResult} {status status' : NodeStatus}
    (hsome : w.completedCalls.lookup (session.key tickCount toolName args) = some cached) :
    Diverged session tickCount taken
      ((executeTool env toolName args p).2.observe (.status name status))
      ((executeTool env toolName args w).2.observe (.status name status')) := by
  have hmem : session.key tickCount toolName args ∈
      p.trace.foldl (taking (session.key tickCount)) taken := by
    rw [← h.kept]
    by_contra hnot
    rw [lookup_eq_none_iff_notMem.mpr hnot] at hsome
    cases hsome
  simp only [executeTool, h.plain, h.logged, executeIdempotent, h.loggedTick, hsome,
    registryExecute, Context.observe, h.trace]
  refine ⟨⟨p.trace, _, _, ?_, List.prefix_append _ _, List.prefix_rfl⟩, ?_⟩
  · simp
  · intro hfresh
    exact (noRepeat_concat.mp (noRepeat_concat.mp hfresh).1).2 hmem

/-- After a tick the runs agree, or have been seen to differ. -/
def Tracks (session : WalSession) (tickCount : Nat) (taken : List String)
    (p w : NodeStatus × Cursor × Context σ) : Prop :=
  (w.1 = p.1 ∧ w.2.1 = p.2.1 ∧ Synced session tickCount taken p.2.2 w.2.2) ∨
    Diverged session tickCount taken p.2.2 w.2.2

theorem Tracks.finish {p w : NodeStatus × Cursor × Context σ}
    (h : Tracks session tickCount taken p w) (name : String) :
    Tracks session tickCount taken (finish name p.1 p.2.1 p.2.2) (finish name w.1 w.2.1 w.2.2) := by
  obtain ⟨hstatus, hcursor, hsynced⟩ | hdiverged := h
  · rw [hstatus, hcursor]
    exact .inl ⟨rfl, rfl, hsynced.observe_status name p.1⟩
  · exact .inr (hdiverged.extend (List.prefix_append _ _) (List.prefix_append _ _))

theorem retryLoop_tracks
    (hgrows : ∀ cursor ctx, Grows tools ctx.trace (tickChild cursor ctx).2.2.trace)
    (hchild : ∀ cursor (p w : Context σ), Synced session tickCount taken p w →
      Tracks session tickCount taken (tickChild cursor p) (tickChild cursor w))
    (fresh : Cursor) (left used : Nat) (cursor : Cursor) (h : Synced session tickCount taken p w) :
    Tracks session tickCount taken (retryLoop tickChild fresh left used cursor p)
      (retryLoop tickChild fresh left used cursor w) := by
  induction left generalizing used cursor p w with
  | zero | succ left ih =>
      obtain ⟨hstatus, hcursor, hsynced⟩ | hdiverged := hchild cursor p w h
      · unfold retryLoop
        generalize tickChild cursor p = outP at hstatus hcursor hsynced
        generalize tickChild cursor w = outW at hstatus hcursor hsynced
        obtain ⟨status, cursor', p'⟩ := outP
        obtain ⟨status', cursor'', w'⟩ := outW
        simp only at hstatus hcursor hsynced
        subst hstatus hcursor
        -- only a failure with retries left goes on
        cases status' <;> first | exact .inl ⟨rfl, rfl, hsynced⟩ | exact ih _ _ hsynced
      · exact .inr (hdiverged.extend (retryLoop_grows_child hgrows ..).extend
          (retryLoop_grows_child hgrows ..).extend)

mutual

theorem tick_tracks : (tree : Tree) → (cursor : Cursor) → (p w : Context σ) →
    Synced session tickCount taken p w →
    Tracks session tickCount taken (tick env tree cursor p) (tick env tree cursor w)
  | .sequence name children, cursor, p, w, h | .selector name children, cursor, p, w, h => by
      simp only [tick]
      obtain ⟨hstatus, hchild, hcursors, hsynced⟩ | hdiverged :=
        tickChildren_tracks _ children cursor.children cursor.currentChild p w h
      · rw [hstatus, hchild, hcursors]
        exact .inl ⟨rfl, rfl, hsynced.observe_status name _⟩
      · exact .inr (hdiverged.extend (List.prefix_append _ _) (List.prefix_append _ _))
  | .retry name child maxRetries, cursor, p, w, h =>
      (retryLoop_tracks (tick_grows env child) (tick_tracks child) child.start _ _ _ h).finish name
  | .toolAction name toolName args, cursor, p, w, h => by
      simp only [tick]
      cases hlookup : w.completedCalls.lookup (session.key tickCount toolName args) with
      | some cached => exact .inr (h.call_repeated hlookup)
      | none =>
          obtain ⟨hanswer, hsynced⟩ := h.call_fresh env hlookup
          rw [hanswer]
          exact .inl ⟨rfl, rfl, hsynced.observe_status name _⟩
  | .checkBlackboard name key expected, cursor, p, w, h => by
      simp only [tick, h.world]
      exact .inl ⟨rfl, rfl, h.observe_status name _⟩
  | .setBlackboard name key value, cursor, p, w, h => by
      have hset : Synced session tickCount taken { p with world := env.set key value p.world }
          { w with world := env.set key value w.world } :=
        ⟨by rw [h.world], h.trace, h.plainTick, h.loggedTick, h.plain, h.logged, h.fresh, h.kept⟩
      exact .inl ⟨rfl, rfl, hset.observe_status name _⟩

theorem tickChildren_tracks (goesOn : NodeStatus) : (children : List Tree) →
    (cursors : List Cursor) → (done : Nat) → (p w : Context σ) →
    Synced session tickCount taken p w →
    ((tickChildren env goesOn children cursors done w).1 =
        (tickChildren env goesOn children cursors done p).1 ∧
      (tickChildren env goesOn children cursors done w).2.1 =
        (tickChildren env goesOn children cursors done p).2.1 ∧
      (tickChildren env goesOn children cursors done w).2.2.1 =
        (tickChildren env goesOn children cursors done p).2.2.1 ∧
      Synced session tickCount taken (tickChildren env goesOn children cursors done p).2.2.2
        (tickChildren env goesOn children cursors done w).2.2.2) ∨
    Diverged session tickCount taken (tickChildren env goesOn children cursors done p).2.2.2
      (tickChildren env goesOn children cursors done w).2.2.2
  | [], _, _, p, w, h => by
      simp only [tickChildren]
      exact .inl ⟨trivial, trivial, trivial, h⟩
  | _ :: children, cursors, done + 1, p, w, h => by
      simp only [tickChildren]
      obtain ⟨hstatus, hchild, hcursors, hsynced⟩ | hdiverged :=
        tickChildren_tracks goesOn children cursors.tail done p w h
      · exact .inl ⟨hstatus, by rw [hchild], by rw [hcursors], hsynced⟩
      · exact .inr hdiverged
  | child :: children, cursors, 0, p, w, h => by
      obtain ⟨hstatus, hcursor, hsynced⟩ | hdiverged :=
        tick_tracks child (cursors.headD child.start) p w h
      · simp only [tickChildren, hstatus, hcursor]
        split
        · obtain ⟨hstatus, hchild, hcursors, hsynced⟩ | hdiverged :=
            tickChildren_tracks goesOn children cursors.tail 0 _ _ hsynced
          · exact .inl ⟨hstatus, by rw [hchild], by rw [hcursors], hsynced⟩
          · exact .inr hdiverged
        · exact .inl ⟨rfl, rfl, rfl, hsynced⟩
      · exact .inr (hdiverged.extend (tickChildren_extends_child env goesOn ..)
          (tickChildren_extends_child env goesOn ..))

end

end Lockstep

/-! ## Transparency -/

/-- The context in which a run starts. -/
def Context.begin (world : σ) (walSession : Option WalSession)
    (completedCalls : List (String × ToolResult)) : Context σ where
  world := world
  walSession := walSession
  completedCalls := completedCalls

/-- For every tree, all tools and whatever results the registry already keeps, both runs
end, and they have the same result, the same calls with the same answers and the same
statuses exactly if no call of the run without the log repeats the key of a completed
call. -/
theorem wal_transparent_iff (env : Environment σ) (stops : Nat → Bool) (fuel : Nat)
    (session : WalSession) (tree : Tree) (world : σ)
    (completedCalls : List (String × ToolResult)) :
    ∃ plain logged,
      execute env stops tree (fuel + 1) 0 tree.start (.begin world none completedCalls) =
        some plain ∧
      execute env stops tree (fuel + 1) 0 tree.start
        (.begin world (some session) completedCalls) = some logged ∧
      (logged.1 = plain.1 ∧ logged.2.trace = plain.2.trace ↔
        NoRepeat (session.key 1) (completedCalls.map Prod.fst) plain.2.trace) := by
  by_cases hstop : stops 0 = true
  · refine ⟨_, _, execute_stopped env hstop tree fuel _ _, execute_stopped env hstop tree fuel _ _, ?_⟩
    simp [Context.begin, NoRepeat]
  · let p : Context σ := { Context.begin world none completedCalls with tickCount := 0 + 1 }
    let w : Context σ :=
      { Context.begin world (some session) completedCalls with tickCount := 0 + 1 }
    have hsynced : Synced session 1 (completedCalls.map Prod.fst) p w :=
      ⟨rfl, rfl, rfl, rfl, rfl, rfl, trivial, rfl⟩
    have htracks : Tracks session 1 _ (tick env tree tree.start p) (tick env tree tree.start w) :=
      tick_tracks tree tree.start p w hsynced
    refine ⟨_, _, execute_ticked env hstop tree fuel _ _, execute_ticked env hstop tree fuel _ _, ?_⟩
    obtain ⟨hstatus, -, hsynced⟩ | hdiverged := htracks
    · constructor
      · intro _
        exact hsynced.fresh
      · intro _
        exact ⟨by rw [hstatus], hsynced.trace⟩
    · constructor
      · rintro ⟨-, htrace⟩
        exact absurd htrace hdiverged.trace_ne
      · intro hfresh
        exact absurd hfresh hdiverged.2

/-- A tool whose first call fails and whose later calls succeed. -/
def failsOnce : Environment Nat where
  execute _ _ calls := (.ok { success := 0 < calls }, calls + 1)
  holds _ _ _ := false
  set _ _ calls := calls

/-- The result of a run, and how often it calls a tool. -/
def observed (session : Option WalSession) (tree : Tree) (calls : Nat) :
    Option (NodeStatus × Nat) :=
  (execute failsOnce (fun _ => false) tree 1 0 tree.start (.begin calls session [])).map
    fun out => (out.1.status, out.2.trace.countP Event.isCall)

/-- Two equal actions in a sequence, and one action that is retried: with the log attached
the second call is answered from the cache, and the retry sees the failure again. -/
theorem repeated_calls_answered_from_cache :
    let notify : Tree := .toolAction "notify" "http" (.object [])
    let session : WalSession :=
      ⟨"task", fun text => text.toList.map fun c => UInt8.ofNat c.toNat⟩
    observed none (.sequence "both" [notify, notify]) 1 = some (.success, 2) ∧
      observed (some session) (.sequence "both" [notify, notify]) 1 = some (.success, 1) ∧
      observed none (.retry "again" notify 3) 0 = some (.success, 2) ∧
      observed (some session) (.retry "again" notify 3) 0 = some (.failure, 1) := by
  decide +kernel

end BehaviorTree
end Igris
