import Igris.Lib.Assoc
import Igris.Lib.Json
import Igris.Lib.Stages

/-!
# Idempotent tool calls

The registry runs a tool under an idempotency key.  A call looks the key up in the
cache of completed calls, runs the tool if there is no entry, and inserts the
result.  The three parts take the lock of the cache one by one, so calls interleave
between them.

Main results:

- Theorem {lit}`runs_of_serial`: if calls with one key do not overlap, the runs of a
  key are failed ones, one after the other, and at most one last run that returns a
  result, which every successful call gets.
- Theorem {lit}`overlapping_calls_run_twice`: two calls that overlap both run the tool.
-/

namespace Igris
namespace Tools

open Concurrency

/-! ## The registry -/

structure ToolResult where
  toolName : String
  success : Bool
  output : String
  error : Option String
  executionTimeMs : Nat
  metadata : List (String × String)
  deriving Repr, DecidableEq

/-- What a call does in one step.  The tool's own work lies between its start and its end. -/
inductive Action where
  | lookup (key : String)
  | validateArgs (tool : String) (args : Json)
  | startTool (tool : String) (args : Json)
  | awaitTool (tool : String)
  | insert (key : String) (result : ToolResult)

/-- A tool may answer anything. -/
abbrev Answer : Action → Type
  | .lookup _ => Option ToolResult
  | .validateArgs _ _ => Except String Unit
  | .startTool _ _ => Unit
  | .awaitTool _ => Except String ToolResult
  | .insert _ _ => Unit

abbrev Program (α : Type) := Prog Action Answer α

/-- Results of completed calls by idempotency key. -/
abbrev Cache := List (String × ToolResult)

def perform : Semantics Action Answer Cache
  | .lookup key, found, cache => if found = Assoc.get cache key then some cache else none
  | .validateArgs _ _, _, cache => some cache
  | .startTool _ _, _, cache => some cache
  | .awaitTool _, _, cache => some cache
  | .insert key result, _, cache => some (Assoc.insert key result cache)

/-- The arguments of a call. -/
structure Call where
  key : String
  tool : String
  args : Json
  deriving DecidableEq

/-- Run a registered tool whose validation passes. -/
def execute (tools : List String) (tool : String) (args : Json) :
    Program (Except String ToolResult) :=
  if tool ∈ tools then
    .act (.validateArgs tool args) fun
      | .error message => .ret (.error message)
      | .ok () => .act (.startTool tool args) fun _ => .act (.awaitTool tool) .ret
  else .ret (.error ("Tool not found: " ++ tool))

/-- Cache a result; an error is returned as it is. -/
def cacheResult (key : String) : Except String ToolResult → Program (Except String ToolResult)
  | .ok result => .act (.insert key result) fun _ => .ret (.ok result)
  | .error message => .ret (.error message)

def executeIdempotent (tools : List String) (call : Call) : Program (Except String ToolResult) :=
  .act (.lookup call.key) fun
    | some cached => .ret (.ok cached)
    | none => (execute tools call.tool call.args).bind (cacheResult call.key)

/-- Calls on one registry; a thread is labelled with its arguments. -/
def registry : System Cache Call Action Answer (Except String ToolResult) where
  perform := perform
  spawn _ _ := []

abbrev CallEvent := Event Call Action Answer

abbrev CallConfig := Config Cache Call Action Answer (Except String ToolResult)

/-- A new registry and the calls that will be made on it. -/
def start (tools : List String) (calls : List Call) : CallConfig :=
  ⟨[], calls.map fun call => ⟨call, executeIdempotent tools call⟩⟩

/-! ## Runs of a tool -/

inductive RunEvent where
  | started (caller : Nat)
  | ended (caller : Nat) (outcome : Except String ToolResult)
  deriving DecidableEq

def runEvent : CallEvent → Option RunEvent
  | ⟨tid, _, .startTool _ _, _⟩ => some (.started tid)
  | ⟨tid, _, .awaitTool _, outcome⟩ => some (.ended tid outcome)
  | _ => none

/-- The runs that calls with a key started, and how they ended. -/
def runsOf (key : String) (τ : List CallEvent) : List RunEvent :=
  τ.filterMap fun e => if e.origin.key = key then runEvent e else none

/-- Runs that failed, each started after the one before had ended. -/
def failures (failed : List (Nat × String)) : List RunEvent :=
  failed.flatMap fun run => [.started run.1, .ended run.1 (.error run.2)]

/-- A call looks its key up only when every other call with this key that has begun has
returned. -/
def Serial (pre : List CallEvent) (c : CallConfig) (e : CallEvent) : Prop :=
  ∀ key, e.action = .lookup key → ∀ tid t, c.pool[tid]? = some t → tid ≠ e.tid →
    t.origin.key = key → (∃ e' ∈ pre, e'.tid = tid) → ∃ value, t.prog = .ret value

/-! ## Stages of a call -/

inductive Stage where
  | idle
  | validating
  | starting
  | running
  | inserting (result : ToolResult)
  | returned (value : Except String ToolResult)

def Stage.prog (tools : List String) (call : Call) : Stage → Program (Except String ToolResult)
  | idle => executeIdempotent tools call
  | validating => .act (.validateArgs call.tool call.args) fun
      | .error message => .ret (.error message)
      | .ok () => .act (.startTool call.tool call.args) fun _ =>
          .act (.awaitTool call.tool) (cacheResult call.key)
  | starting => .act (.startTool call.tool call.args) fun _ =>
      .act (.awaitTool call.tool) (cacheResult call.key)
  | running => .act (.awaitTool call.tool) (cacheResult call.key)
  | inserting result => cacheResult call.key (.ok result)
  | returned value => .ret value

inductive Move (tools : List String) (call : Call) :
    Stage → (a : Action) → Answer a → Stage → Prop where
  | hit (cached : ToolResult) :
      Move tools call .idle (.lookup call.key) (some cached) (.returned (.ok cached))
  | unknown : call.tool ∉ tools → Move tools call .idle (.lookup call.key) none
      (.returned (.error ("Tool not found: " ++ call.tool)))
  | miss : call.tool ∈ tools → Move tools call .idle (.lookup call.key) none .validating
  | invalid (message : String) : Move tools call .validating
      (.validateArgs call.tool call.args) (.error message) (.returned (.error message))
  | valid : Move tools call .validating (.validateArgs call.tool call.args) (.ok ()) .starting
  | start : Move tools call .starting (.startTool call.tool call.args) () .running
  | failed (message : String) :
      Move tools call .running (.awaitTool call.tool) (.error message) (.returned (.error message))
  | succeeded (result : ToolResult) :
      Move tools call .running (.awaitTool call.tool) (.ok result) (.inserting result)
  | inserted (result : ToolResult) :
      Move tools call (.inserting result) (.insert call.key result) () (.returned (.ok result))

/-- A call that has a value has returned. -/
theorem Stage.eq_returned_of_prog {tools : List String} {call : Call} {stage : Stage}
    {value : Except String ToolResult} (h : stage.prog tools call = .ret value) :
    stage = .returned value := by
  cases stage <;> cases h
  rfl

theorem moves (tools : List String) : Moves (fun call stage => Stage.prog tools call stage)
    (Move tools) := by
  intro call stage action next hprog answer
  cases stage with
  | idle =>
      cases hprog
      cases answer with
      | some cached => exact ⟨.returned (.ok cached), rfl, .hit cached⟩
      | none =>
          by_cases htool : call.tool ∈ tools
          · refine ⟨.validating, ?_, .miss htool⟩
            simp only [execute, if_pos htool, Prog.bind_act, Stage.prog]
            congr 1
            funext valid
            cases valid <;> rfl
          · refine ⟨.returned (.error ("Tool not found: " ++ call.tool)), ?_, .unknown htool⟩
            simp [execute, if_neg htool, cacheResult, Stage.prog]
  | validating =>
      cases hprog
      cases answer with
      | error message => exact ⟨.returned (.error message), rfl, .invalid message⟩
      | ok => exact ⟨.starting, rfl, .valid⟩
  | starting =>
      cases hprog
      exact ⟨.running, rfl, .start⟩
  | running =>
      cases hprog
      cases answer with
      | error message => exact ⟨.returned (.error message), rfl, .failed message⟩
      | ok result => exact ⟨.inserting result, rfl, .succeeded result⟩
  | inserting result =>
      cases hprog
      exact ⟨.returned (.ok result), rfl, .inserted result⟩
  | returned value => cases hprog

/-! ## What the calls of a key have done so far -/

/-- Where the calls with one key stand.  A call holds the key from its lookup until the tool
runs, and the result of a run is returned first and stored then. -/
inductive Standing where
  | free
  | held (caller : Nat)
  | running (caller : Nat)
  | returned (caller : Nat) (result : ToolResult)
  | stored (caller : Nat) (result : ToolResult)

namespace Standing

/-- The last run, if it has not failed. -/
def runs : Standing → List RunEvent
  | free | held _ => []
  | running caller => [.started caller]
  | returned caller result | stored caller result =>
      [.started caller, .ended caller (.ok result)]

def cached : Standing → Option ToolResult
  | stored _ result => some result
  | _ => none

def caller : Standing → Option Nat
  | held caller | running caller | returned caller _ => some caller
  | _ => none

/-- The stages of a call that is not under way and has no result. -/
def AtRest (stage : Stage) : Prop :=
  stage = .idle ∨ ∃ message, stage = .returned (.error message)

/-- The stages the calls may be in. -/
def Allows : Standing → Nat → Stage → Prop
  | free, _, stage => AtRest stage
  | held caller, tid, stage =>
      if tid = caller then stage = .validating ∨ stage = .starting else AtRest stage
  | running caller, tid, stage => if tid = caller then stage = .running else AtRest stage
  | returned caller result, tid, stage =>
      if tid = caller then stage = .inserting result else AtRest stage
  | stored _ result, _, stage => AtRest stage ∨ stage = .returned (.ok result)

variable {standing : Standing} {tid : Nat}

/-- A call at rest is where it may be, unless it is the one that holds the key. -/
theorem allows_of_atRest {tid acting : Nat} {stage : Stage}
    (hcaller : standing.caller = none ∨ standing.caller = some acting) (htid : tid ≠ acting)
    (h : AtRest stage) : standing.Allows tid stage := by
  cases standing <;> simp_all [Allows, caller]

theorem atRest_of_allows {tid acting : Nat} {stage : Stage}
    (hcaller : standing.caller = none ∨ standing.caller = some acting)
    (hcached : standing.cached = none) (htid : tid ≠ acting) (h : standing.Allows tid stage) :
    AtRest stage := by
  cases standing <;> simp_all [Allows, caller, cached]

/-- A call that is under way holds the key. -/
theorem eq_held_of_allows {stage : Stage} (h : standing.Allows tid stage)
    (hstage : stage = .validating ∨ stage = .starting) : standing = .held tid := by
  cases standing <;> rcases hstage with rfl | rfl <;> simp_all [Allows, AtRest]

theorem eq_running_of_allows (h : standing.Allows tid .running) : standing = .running tid := by
  cases standing <;> simp_all [Allows, AtRest]

theorem eq_returned_of_allows {result : ToolResult} (h : standing.Allows tid (.inserting result)) :
    standing = .returned tid result := by
  cases standing <;> simp_all [Allows, AtRest]

theorem exists_stored_of_allows {result : ToolResult}
    (h : standing.Allows tid (.returned (.ok result))) :
    ∃ caller, standing = .stored caller result := by
  cases standing <;> simp_all [Allows, AtRest]

end Standing

/-- The standing of a key accounts for its runs, its cache entry and the stages of its calls. -/
structure Ledger (key : String) (τ : List CallEvent) (cache : Cache)
    (threads : List (Call × Stage)) (failed : List (Nat × String)) (standing : Standing) :
    Prop where
  runs : runsOf key τ = failures failed ++ standing.runs
  cached : Assoc.get cache key = standing.cached
  present : ∀ tid, standing.caller = some tid →
    ∃ call stage, threads[tid]? = some (call, stage) ∧ call.key = key
  allowed : ∀ tid call stage, threads[tid]? = some (call, stage) → call.key = key →
    standing.Allows tid stage

/-- A call that is not idle has acted. -/
def Begun (τ : List CallEvent) (threads : List (Call × Stage)) : Prop :=
  ∀ tid call stage, threads[tid]? = some (call, stage) → stage ≠ .idle → ∃ e ∈ τ, e.tid = tid

section Step

variable {key : String} {τ : List CallEvent} {cache cache' : Cache}
  {threads : List (Call × Stage)} {failed failed' : List (Nat × String)}
  {standing standing' : Standing} {e : CallEvent} {stage stage' : Stage} {tools : List String}

theorem runsOf_snoc (key : String) (τ : List CallEvent) (e : CallEvent) :
    runsOf key (τ ++ [e]) =
      runsOf key τ ++ (if e.origin.key = key then runEvent e else none).toList := by
  simp only [runsOf, List.filterMap_append]
  cases h : (if e.origin.key = key then runEvent e else none) <;> simp [h]

theorem Begun.step (h : Begun τ threads) (stage' : Stage) :
    Begun (τ ++ [e]) (threads.set e.tid (e.origin, stage')) := by
  intro tid call stage'' hget hidle
  by_cases htid : tid = e.tid
  · exact ⟨e, by simp, htid.symm⟩
  · rw [List.getElem?_set_ne (Ne.symm htid)] at hget
    obtain ⟨e', he', heq⟩ := h tid call stage'' hget hidle
    exact ⟨e', List.mem_append_left _ he', heq⟩

/-- A call changes the entry of its own key only. -/
theorem get_perform_of_move (hmove : Move tools e.origin stage e.action e.answer stage')
    (hperform : perform e.action e.answer cache = some cache') (hkey : e.origin.key ≠ key) :
    Assoc.get cache' key = Assoc.get cache key := by
  obtain ⟨tid, call, action, answer⟩ := e
  dsimp only at hmove hperform hkey
  cases hmove with
  | hit | unknown | miss =>
      simp only [perform] at hperform
      split at hperform <;> cases hperform
      rfl
  | inserted result =>
      cases hperform
      rw [Assoc.get_insert, if_neg (Ne.symm hkey)]
  | _ =>
      cases hperform
      rfl

/-- A step of a call with another key. -/
theorem Ledger.other (h : Ledger key τ cache threads failed standing)
    (hget : threads[e.tid]? = some (e.origin, stage)) (hkey : e.origin.key ≠ key)
    (hmove : Move tools e.origin stage e.action e.answer stage')
    (hperform : perform e.action e.answer cache = some cache') :
    Ledger key (τ ++ [e]) cache' (threads.set e.tid (e.origin, stage')) failed standing := by
  have hne : ∀ tid call stage, threads[tid]? = some (call, stage) → call.key = key →
      tid ≠ e.tid := by
    rintro tid call stage hthread hcall rfl
    rw [hget] at hthread
    cases hthread
    exact hkey hcall
  refine ⟨?_, ?_, ?_, ?_⟩
  · rw [runsOf_snoc, if_neg hkey, h.runs, Option.toList_none, List.append_nil]
  · rw [get_perform_of_move hmove hperform hkey, h.cached]
  · intro tid htid
    obtain ⟨call, stage, hthread, hcall⟩ := h.present tid htid
    refine ⟨call, stage, ?_, hcall⟩
    rw [List.getElem?_set_ne (hne tid call stage hthread hcall).symm, hthread]
  · intro tid call stage'' hthread hcall
    by_cases htid : tid = e.tid
    · subst htid
      rw [List.getElem?_set_self (List.getElem?_eq_some_iff.mp hget).1] at hthread
      cases hthread
      exact absurd hcall hkey
    · rw [List.getElem?_set_ne (Ne.symm htid)] at hthread
      exact h.allowed tid call stage'' hthread hcall

/-- A step of a call with the key, from one standing to the next. -/
theorem Ledger.move (h : Ledger key τ cache threads failed standing)
    (hget : threads[e.tid]? = some (e.origin, stage)) (hkey : e.origin.key = key)
    (hruns : failures failed ++ standing.runs ++ (runEvent e).toList =
      failures failed' ++ standing'.runs)
    (hcached : Assoc.get cache' key = standing'.cached)
    (hcaller : ∀ tid, standing'.caller = some tid → tid = e.tid)
    (hacting : standing'.Allows e.tid stage')
    (hothers : ∀ tid stage, tid ≠ e.tid → standing.Allows tid stage →
      standing'.Allows tid stage) :
    Ledger key (τ ++ [e]) cache' (threads.set e.tid (e.origin, stage')) failed' standing' where
  runs := by rw [runsOf_snoc, if_pos hkey, h.runs, hruns]
  cached := hcached
  present := by
    intro tid htid
    obtain rfl := hcaller tid htid
    refine ⟨e.origin, stage', ?_, hkey⟩
    rw [List.getElem?_set_self (List.getElem?_eq_some_iff.mp hget).1]
  allowed := by
    intro tid call stage'' hthread hcall
    by_cases htid : tid = e.tid
    · subst htid
      rw [List.getElem?_set_self (List.getElem?_eq_some_iff.mp hget).1] at hthread
      cases hthread
      exact hacting
    · rw [List.getElem?_set_ne (Ne.symm htid)] at hthread
      exact hothers tid stage'' htid (h.allowed tid call stage'' hthread hcall)

/-- A call that misses found the key free, if calls with the key do not overlap. -/
theorem Ledger.free_of_miss (h : Ledger key τ cache threads failed standing)
    (hbegun : Begun τ threads) (hget : threads[e.tid]? = some (e.origin, .idle))
    (haction : e.action = .lookup key)
    (hnone : Assoc.get cache key = none)
    (hserial : Serial τ ⟨cache, atStages (Stage.prog tools) threads⟩ e) : standing = .free := by
  have hholder : ∀ tid, standing.caller = some tid → ∃ call stage,
      standing.Allows tid stage ∧ (stage = .idle ∨ ∃ value, Stage.prog tools call stage = .ret value) := by
    intro tid htid
    obtain ⟨call, stage, hthread, hcall⟩ := h.present tid htid
    refine ⟨call, stage, h.allowed tid call stage hthread hcall, ?_⟩
    by_cases hacting : tid = e.tid
    · rw [hacting, hget] at hthread
      cases hthread
      exact .inl rfl
    · by_cases hidle : stage = .idle
      · exact .inl hidle
      · right
        exact hserial key haction tid ⟨call, Stage.prog tools call stage⟩
          (by simp [atStages, hthread]) hacting hcall (hbegun tid call stage hthread hidle)
  cases standing with
  | free => rfl
  | stored caller result => rw [h.cached] at hnone; cases hnone
  | held caller =>
      obtain ⟨call, stage, hallows, hstage⟩ := hholder caller rfl
      rw [Standing.Allows, if_pos rfl] at hallows
      rcases hallows with rfl | rfl <;> rcases hstage with hstage | ⟨value, hstage⟩ <;> cases hstage
  | running caller | returned caller =>
      obtain ⟨call, stage, hallows, hstage⟩ := hholder caller rfl
      rw [Standing.Allows, if_pos rfl] at hallows
      subst hallows
      rcases hstage with hstage | ⟨value, hstage⟩ <;> cases hstage

/-- A step of a call that holds the key or finds it free. -/
theorem Ledger.turn (h : Ledger key τ cache threads failed standing)
    (hget : threads[e.tid]? = some (e.origin, stage)) (hkey : e.origin.key = key)
    (hfrom : standing.caller = none ∨ standing.caller = some e.tid)
    (hempty : standing.cached = none)
    (hto : standing'.caller = none ∨ standing'.caller = some e.tid)
    (hcached : Assoc.get cache' key = standing'.cached)
    (hacting : standing'.Allows e.tid stage')
    (hruns : failures failed ++ standing.runs ++ (runEvent e).toList =
      failures failed' ++ standing'.runs) :
    Ledger key (τ ++ [e]) cache' (threads.set e.tid (e.origin, stage')) failed' standing' := by
  refine h.move hget hkey hruns hcached ?_ hacting ?_
  · intro tid htid
    rcases hto with hnone | hsome
    · rw [hnone] at htid
      cases htid
    · rw [hsome] at htid
      exact (Option.some.inj htid).symm
  · intro tid stage htid hothers
    exact Standing.allows_of_atRest hto htid (Standing.atRest_of_allows hfrom hempty htid hothers)

/-- Every step of a call with the key. -/
theorem Ledger.acting (h : Ledger key τ cache threads failed standing)
    (hbegun : Begun τ threads) (hget : threads[e.tid]? = some (e.origin, stage))
    (hkey : e.origin.key = key) (hmove : Move tools e.origin stage e.action e.answer stage')
    (hperform : perform e.action e.answer cache = some cache')
    (hserial : Serial τ ⟨cache, atStages (Stage.prog tools) threads⟩ e) :
    ∃ failed' standing', Ledger key (τ ++ [e]) cache' (threads.set e.tid (e.origin, stage'))
      failed' standing' := by
  have hallows := h.allowed e.tid e.origin stage hget hkey
  obtain ⟨tid, call, action, answer⟩ := e
  dsimp only at hget hkey hmove hperform hallows ⊢
  subst hkey
  cases hmove with
  | hit cached =>
      obtain ⟨hfound, rfl⟩ : some cached = Assoc.get cache call.key ∧ cache = cache' := by
        simpa [perform] using hperform
      cases standing with
      | stored caller result =>
          rw [h.cached] at hfound
          cases hfound
          exact ⟨failed, _, h.move hget rfl (by simp [runEvent]) h.cached nofun (.inr rfl)
            fun _ _ _ hothers => hothers⟩
      | _ =>
          rw [h.cached] at hfound
          cases hfound
  | unknown htool =>
      obtain ⟨hfound, rfl⟩ : none = Assoc.get cache call.key ∧ cache = cache' := by
        simpa [perform] using hperform
      obtain rfl := h.free_of_miss hbegun hget rfl hfound.symm hserial
      exact ⟨failed, .free, h.turn hget rfl (.inl rfl) rfl (.inl rfl) h.cached (.inr ⟨_, rfl⟩)
        (by simp [runEvent])⟩
  | miss htool =>
      obtain ⟨hfound, rfl⟩ : none = Assoc.get cache call.key ∧ cache = cache' := by
        simpa [perform] using hperform
      obtain rfl := h.free_of_miss hbegun hget rfl hfound.symm hserial
      exact ⟨failed, .held tid, h.turn hget rfl (.inl rfl) rfl (.inr rfl) h.cached
        (by simp [Standing.Allows]) (by simp [runEvent, Standing.runs])⟩
  | invalid message =>
      obtain rfl := Standing.eq_held_of_allows hallows (.inl rfl)
      cases hperform
      exact ⟨failed, .free, h.turn hget rfl (.inr rfl) rfl (.inl rfl) h.cached (.inr ⟨_, rfl⟩)
        (by simp [runEvent, Standing.runs])⟩
  | valid =>
      obtain rfl := Standing.eq_held_of_allows hallows (.inl rfl)
      cases hperform
      exact ⟨failed, .held tid, h.turn hget rfl (.inr rfl) rfl (.inr rfl) h.cached
        (by simp [Standing.Allows]) (by simp [runEvent])⟩
  | start =>
      obtain rfl := Standing.eq_held_of_allows hallows (.inr rfl)
      cases hperform
      exact ⟨failed, .running tid, h.turn hget rfl (.inr rfl) rfl (.inr rfl) h.cached
        (by simp [Standing.Allows]) (by simp [runEvent, Standing.runs])⟩
  | failed message =>
      obtain rfl := Standing.eq_running_of_allows hallows
      cases hperform
      exact ⟨failed ++ [(tid, message)], .free, h.turn hget rfl (.inr rfl) rfl (.inl rfl) h.cached
        (.inr ⟨_, rfl⟩) (by simp [runEvent, Standing.runs, failures])⟩
  | succeeded result =>
      obtain rfl := Standing.eq_running_of_allows hallows
      cases hperform
      exact ⟨failed, .returned tid result, h.turn hget rfl (.inr rfl) rfl (.inr rfl) h.cached
        (by simp [Standing.Allows]) (by simp [runEvent, Standing.runs])⟩
  | inserted result =>
      obtain rfl := Standing.eq_returned_of_allows hallows
      cases hperform
      refine ⟨failed, .stored tid result, h.turn hget rfl (.inr rfl) rfl (.inl rfl) ?_ (.inr rfl)
        (by simp [runEvent, Standing.runs])⟩
      rw [Assoc.get_insert, if_pos rfl]
      rfl

end Step

/-! ## Calls that do not overlap -/

/-- If calls with one key do not overlap, the runs of a key are failed ones, one after the other,
and then at most one more; only this last one may return a result, and every call with the key
that succeeds returns it. -/
theorem runs_of_serial (tools : List String) (calls : List Call) {τ : List CallEvent}
    {c : CallConfig} (hrun : Run registry (start tools calls) τ c)
    (hserial : EveryStep registry (start tools calls) τ Serial) (key : String) :
    ∃ failed rest, runsOf key τ = failures failed ++ rest ∧
      (rest = [] ∨ (∃ caller, rest = [.started caller]) ∨
        ∃ caller result, rest = [.started caller, .ended caller (.ok result)]) ∧
      ∀ (tid : Nat) (call : Call) value, c.pool[tid]? = some ⟨call, .ret (.ok value)⟩ → call.key = key →
        ∃ caller, rest = [.started caller, .ended caller (.ok value)] := by
  have hpool : (start tools calls).pool =
      atStages (Stage.prog tools) (calls.map fun call => (call, .idle)) := by
    simp [start, atStages, Stage.prog]
  have hinit : Begun [] (calls.map fun call => (call, Stage.idle)) ∧
      ∃ failed standing, Ledger key [] [] (calls.map fun call => (call, .idle)) failed standing := by
    refine ⟨?_, [], .free, rfl, rfl, by rintro _ ⟨⟩, ?_⟩
    · intro tid call stage hget hidle
      simp only [List.getElem?_map, Option.map_eq_some_iff, Prod.mk.injEq] at hget
      obtain ⟨_, -, -, rfl⟩ := hget
      exact absurd rfl hidle
    · intro tid call stage hget _
      simp only [List.getElem?_map, Option.map_eq_some_iff, Prod.mk.injEq] at hget
      obtain ⟨_, -, -, rfl⟩ := hget
      exact .inl rfl
  obtain ⟨threads, hthreads, -, failed, standing, hledger⟩ := hrun.staged (moves tools)
    (fun _ _ => rfl) hpool (I := fun τ cache threads => Begun τ threads ∧
      ∃ failed standing, Ledger key τ cache threads failed standing) hinit
    (by
      rintro τ cache cache' threads e stage stage' - ⟨hbegun, failed, standing, hledger⟩ hget hmove
        hperform hmeets
      refine ⟨hbegun.step stage', ?_⟩
      by_cases hkey : e.origin.key = key
      · exact hledger.acting hbegun hget hkey hmove hperform hmeets
      · exact ⟨failed, standing, hledger.other hget hkey hmove hperform⟩) hserial
  refine ⟨failed, standing.runs, hledger.runs, ?_, ?_⟩
  · cases standing <;> simp [Standing.runs]
  · intro tid call value hget hcall
    rw [hthreads, getElem?_atStages] at hget
    obtain ⟨stage, hthread, hprog⟩ := hget
    obtain rfl := Stage.eq_returned_of_prog hprog
    obtain ⟨caller, rfl⟩ := Standing.exists_stored_of_allows
      (hledger.allowed tid call _ hthread hcall)
    exact ⟨caller, rfl⟩

/-! ## Overlapping calls -/

/-- A decidable form of the condition on a step. -/
def serial (pre : List CallEvent) (c : CallConfig) (e : CallEvent) : Bool :=
  match e.action with
  | .lookup key => c.pool.zipIdx.all fun (t, tid) =>
      tid = e.tid || t.origin.key != key || t.prog.value.isSome || pre.all fun e' => e'.tid ≠ tid
  | _ => true

theorem serial_sound {pre : List CallEvent} {c : CallConfig} {e : CallEvent}
    (h : serial pre c e = true) : Serial pre c e := by
  rintro key hkey tid t hget hne hcall ⟨e', he', rfl⟩
  simp only [serial, hkey, List.all_eq_true] at h
  have hthread := h (t, e'.tid) (List.mem_zipIdx_iff_getElem?.mpr hget)
  simp only [hne, hcall, decide_false, bne_self_eq_false, Bool.false_or, Bool.or_eq_true,
    List.all_eq_true, Option.isSome_iff_exists] at hthread
  rcases hthread with ⟨value, hvalue⟩ | hnone
  · exact ⟨value, Prog.value_eq_some_iff.mp hvalue⟩
  · exact absurd (hnone e' he') (by simp)

def sendCall : Call :=
  ⟨"order-1", "send", .object []⟩

def sent (output : String) : ToolResult :=
  ⟨"send", true, output, none, 5, []⟩

/-- The cache answers lookups, and the tool answers as told. -/
def answering (outcome : Except String ToolResult) :
    (a : Action) → Cache → Option (Answer a)
  | .lookup key, cache => some (Assoc.get cache key)
  | .validateArgs _ _, _ => some (.ok ())
  | .startTool _ _, _ => some ()
  | .awaitTool _, _ => some outcome
  | .insert _ _, _ => some ()

/-- A second call finds what the first one stored. -/
theorem second_call_returns_first_result :
    ∃ τ c, Run registry (start ["send"] [sendCall, sendCall]) τ c ∧
      EveryStep registry (start ["send"] [sendCall, sendCall]) τ Serial ∧
      c.pool[1]? = some ⟨sendCall, .ret (.ok (sent "a"))⟩ ∧
      ∃ failed caller, runsOf "order-1" τ = failures failed ++
        [.started caller, .ended caller (.ok (sent "a"))] := by
  have hplay : (play registry serial [] (start ["send"] [sendCall, sendCall])
      (List.replicate 5 (0, answering (.ok (sent "a"))) ++
        [(1, answering (.ok (sent "b")))])).any
      (fun out => (out.2.pool[1]?.map fun t => (t.origin, t.prog.value)) ==
        some (sendCall, some (.ok (sent "a")))) = true := by
    decide +kernel
  obtain ⟨τ, c, hrun, hcheck, hevery⟩ := exists_run_of_play hplay
  have hserial : EveryStep registry (start ["send"] [sendCall, sendCall]) τ Serial :=
    fun pre e post c₁ hsplit hpre => serial_sound (hevery pre e post c₁ hsplit hpre)
  have hreturned : c.pool[1]? = some ⟨sendCall, .ret (.ok (sent "a"))⟩ := by
    rw [beq_iff_eq, Option.map_eq_some_iff] at hcheck
    obtain ⟨⟨origin, p⟩, hget, heq⟩ := hcheck
    simp only [Prod.mk.injEq, Prog.value_eq_some_iff] at heq
    rw [hget, heq.1, heq.2]
  obtain ⟨failed, rest, hruns, -, hresult⟩ := runs_of_serial ["send"] [sendCall, sendCall] hrun
    hserial "order-1"
  obtain ⟨caller, rfl⟩ := hresult 1 sendCall _ hreturned rfl
  exact ⟨τ, c, hrun, hserial, hreturned, failed, caller, hruns⟩

/-- Two calls that overlap both run the tool, and return different results. -/
theorem overlapping_calls_run_twice :
    ∃ τ c, Run registry (start ["send"] [sendCall, sendCall]) τ c ∧
      runsOf "order-1" τ = [.started 0, .started 1, .ended 0 (.ok (sent "a")),
        .ended 1 (.ok (sent "b"))] ∧
      c.pool.map (fun t => t.prog.value) = [some (.ok (sent "a")), some (.ok (sent "b"))] := by
  have hplay : (play registry (fun _ _ _ => true) [] (start ["send"] [sendCall, sendCall])
      (List.replicate 3 (0, answering (.ok (sent "a"))) ++
        List.replicate 3 (1, answering (.ok (sent "b"))) ++
        List.replicate 2 (0, answering (.ok (sent "a"))) ++
        List.replicate 2 (1, answering (.ok (sent "b"))))).any
      (fun out => runsOf "order-1" out.1 == [.started 0, .started 1, .ended 0 (.ok (sent "a")),
          .ended 1 (.ok (sent "b"))] &&
        out.2.pool.map (fun t => t.prog.value) == [some (.ok (sent "a")), some (.ok (sent "b"))]) =
      true := by
    decide +kernel
  obtain ⟨τ, c, hrun, hcheck, -⟩ := exists_run_of_play hplay
  rw [Bool.and_eq_true, beq_iff_eq, beq_iff_eq] at hcheck
  exact ⟨τ, c, hrun, hcheck.1, hcheck.2⟩

end Tools
end Igris
