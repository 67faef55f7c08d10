import Igris.Lib.Outline
import Igris.Lib.Transactions
import Mathlib.Data.List.Sort

/-!
# Operator reconciliation

A bound run whose effect is unknown has an event that observed this.  Operators then
append resolutions, each in a transaction that holds the advisory lock of the run:
it looks for an event with the same request id, for a terminal resolution, and
inserts.  A trigger takes the same lock for every other insertion.

Main results:

- Theorem {lit}`history_of_run`: the events of a run are the observation, resolutions
  that are not terminal, and at most one last resolution that is, with distinct
  request ids; replies and loaded states agree with them.
-/

namespace Igris
namespace Reconciliation

open Concurrency Transactions

/-! ## Events -/

inductive Resolution where
  | confirmedSucceeded
  | confirmedFailed
  | remainsUnknown
  deriving Repr, DecidableEq

def Resolution.terminal : Resolution → Bool
  | confirmedSucceeded | confirmedFailed => true
  | remainsUnknown => false

/-- What the table's shape constraint allows: an observation of the runtime, or a resolution of
an operator with its request id. -/
inductive EventType where
  | unresolvedEffectObserved
  | operatorResolution (resolution : Resolution) (requestID : Nat)
  deriving Repr, DecidableEq

/-- The identity of a bound run, which every event repeats. -/
structure RunIdentity where
  bindingID : Nat
  contractHash : String
  targetActionID : Nat
  targetVersionHash : String
  businessIdempotencyDigest : String
  deriving Repr, DecidableEq

structure Event where
  id : Nat
  tenantID : String
  taskID : Nat
  run : RunIdentity
  eventType : EventType
  actorID : String
  actorEmail : String
  reason : String
  externalReferenceType : String
  externalReferenceValue : String
  targetHost : String
  sourceStatusCode : Nat
  createdAt : Nat
  deriving Repr, DecidableEq

namespace Event

def observed (event : Event) : Bool :=
  event.eventType = .unresolvedEffectObserved

def resolution (event : Event) : Option Resolution :=
  match event.eventType with
  | .unresolvedEffectObserved => none
  | .operatorResolution resolution _ => some resolution

def requestID (event : Event) : Option Nat :=
  match event.eventType with
  | .unresolvedEffectObserved => none
  | .operatorResolution _ requestID => some requestID

def terminal (event : Event) : Bool :=
  event.resolution.any Resolution.terminal

def ofRun (tenantID : String) (taskID : Nat) (event : Event) : Bool :=
  event.tenantID = tenantID && event.taskID = taskID

/-- Two events that a unique index does not allow together. -/
def Clash (a b : Event) : Prop :=
  a.tenantID = b.tenantID ∧ a.taskID = b.taskID ∧
    ((a.observed ∧ b.observed) ∨ (a.requestID.isSome ∧ a.requestID = b.requestID) ∨
      (a.terminal ∧ b.terminal))

instance : DecidableRel Clash := fun a b =>
  inferInstanceAs (Decidable (a.tenantID = b.tenantID ∧ a.taskID = b.taskID ∧
    ((a.observed ∧ b.observed) ∨ (a.requestID.isSome ∧ a.requestID = b.requestID) ∨
      (a.terminal ∧ b.terminal))))

end Event

/-! ## Requests -/

structure Request where
  resolution : Resolution
  reason : String
  externalReference : Option (String × String)
  deriving Repr, DecidableEq

/-- The arguments of an append. -/
structure Append where
  tenantID : String
  taskID : Nat
  actorID : String
  actorEmail : String
  requestID : Nat
  req : Request
  deriving Repr, DecidableEq

/-- What the runtime reported about an unknown effect. -/
structure Observation where
  tenantID : String
  taskID : Nat
  runtimeID : String
  targetResponseDigest : String
  targetHost : String
  statusCode : Nat
  deriving Repr, DecidableEq

def reconciliationRequestMatches (event : Event) (actorID : String) (req : Request) : Bool :=
  if event.actorID ≠ actorID ∨ event.resolution ≠ some req.resolution ∨ event.reason ≠ req.reason
  then false
  else
    match req.externalReference with
    | none => event.externalReferenceType = "" && event.externalReferenceValue = ""
    | some (type, value) =>
        event.externalReferenceType = type && event.externalReferenceValue = value

/-- The row that an append inserts; the database draws the id and stamps the time. -/
def Append.event (a : Append) (run : RunIdentity) (id createdAt : Nat) : Event where
  id := id
  tenantID := a.tenantID
  taskID := a.taskID
  run := run
  eventType := .operatorResolution a.req.resolution a.requestID
  actorID := a.actorID
  actorEmail := a.actorEmail
  reason := a.req.reason
  externalReferenceType := (a.req.externalReference.map Prod.fst).getD ""
  externalReferenceValue := (a.req.externalReference.map Prod.snd).getD ""
  targetHost := ""
  sourceStatusCode := 0
  createdAt := createdAt

/-- The row that records the observation. -/
def Observation.event (o : Observation) (run : RunIdentity) (id createdAt : Nat) : Event where
  id := id
  tenantID := o.tenantID
  taskID := o.taskID
  run := run
  eventType := .unresolvedEffectObserved
  actorID := if o.runtimeID = "" then "runtime:unknown" else o.runtimeID
  actorEmail := ""
  reason :=
    "Runtime reported a typed unknown consequential effect; automatic replay is refused"
  externalReferenceType := "runtime_response_digest"
  externalReferenceValue := o.targetResponseDigest
  targetHost := o.targetHost
  sourceStatusCode := o.statusCode
  createdAt := createdAt

/-- An identical repetition matches the event of the first request. -/
theorem matches_event (a : Append) (run : RunIdentity) (id createdAt : Nat) :
    reconciliationRequestMatches (a.event run id createdAt) a.actorID a.req = true := by
  cases href : a.req.externalReference <;>
    simp [reconciliationRequestMatches, Append.event, Event.resolution, href]

/-! ## The database -/

/-- Why an insertion failed: the trigger found a terminal resolution or no observation, a unique
index a duplicate, or the statement failed otherwise. -/
inductive InsertError where
  | terminalResolution
  | duplicateKey
  | notRequired
  | other
  deriving Repr, DecidableEq

inductive Inserted where
  | row (event : Event)
  | noRows
  | failed (error : InsertError)
  deriving Repr, DecidableEq

/-- One statement of a transaction. -/
inductive Action where
  | lock (tx : Nat) (tenantID : String) (taskID : Nat)
  | findRequest (tx : Nat) (tenantID : String) (taskID requestID : Nat)
  | findTerminal (tx : Nat) (tenantID : String) (taskID : Nat)
  | insert (tx : Nat) (append : Append)
  | observe (tx : Nat) (observation : Observation)
  | commit (tx : Nat)
  | rollback (tx : Nat)
  | load (tenantID : String) (taskID : Nat)

/-- Every statement may fail; {lit}`none` is a failure. -/
abbrev Answer : Action → Type
  | .lock _ _ _ => Option Unit
  | .findRequest _ _ _ _ => Option (Option Event)
  | .findTerminal _ _ _ => Option (Option Resolution)
  | .insert _ _ => Inserted
  | .observe _ _ => Option (Option Event)
  | .commit _ => Committed
  | .rollback _ => Unit
  | .load _ _ => Option (List Event)

structure Db where
  events : Table Event
  locks : List (Nat × Nat)

namespace Db

def empty : Db :=
  ⟨.empty, []⟩

/-- The committed events of a run, in the order of their commits. -/
def history (db : Db) (tenantID : String) (taskID : Nat) : List Event :=
  (db.events.committed.map Prod.snd).filter (Event.ofRun tenantID taskID)

/-- The events of a run that a statement sees. -/
def seen (db : Db) (tx : Nat) (tenantID : String) (taskID : Nat) : List Event :=
  (db.events.visible tx).filter (Event.ofRun tenantID taskID)

/-- Another transaction holds the lock. -/
def heldByOther (db : Db) (key tx : Nat) : Bool :=
  db.locks.any fun lock => lock.1 = key && lock.2 ≠ tx

def acquire (db : Db) (key tx : Nat) : Db :=
  { db with locks := (key, tx) :: db.locks }

/-- A transaction ends: its locks are released. -/
def release (db : Db) (tx : Nat) : Db :=
  { db with locks := db.locks.filter fun lock => lock.2 ≠ tx }

def commit (db : Db) (tx : Nat) : Db :=
  { db.release tx with events := db.events.commit tx }

def rollback (db : Db) (tx : Nat) : Db :=
  { db.release tx with events := db.events.rollback tx }

end Db

/-- The tables that do not change here, and the hash of the lock's name. -/
structure Environment where
  runs : String → Nat → Option RunIdentity
  lockKey : String → Nat → Nat

/-- The observation first, then by time and id. -/
def eventOrder (a b : Event) : Prop :=
  (!a.observed).toNat < (!b.observed).toNat ∨
    ((!a.observed).toNat = (!b.observed).toNat ∧
      (a.createdAt < b.createdAt ∨ (a.createdAt = b.createdAt ∧ a.id ≤ b.id)))

instance : DecidableRel eventOrder := fun a b =>
  inferInstanceAs (Decidable ((!a.observed).toNat < (!b.observed).toNat ∨
    ((!a.observed).toNat = (!b.observed).toNat ∧
      (a.createdAt < b.createdAt ∨ (a.createdAt = b.createdAt ∧ a.id ≤ b.id)))))

/-- The answers to a query for one terminal resolution, in no particular order. -/
def terminalAnswers (events : List Event) : List (Option Resolution) :=
  let terminals := events.filter Event.terminal
  if terminals = [] then [none] else terminals.map Event.resolution

/-- What the statements do.  A failed statement ends its transaction. -/
def perform (env : Environment) : Semantics Action Answer Db
  | .lock tx tenantID taskID, some (), db =>
      if db.heldByOther (env.lockKey tenantID taskID) tx then none
      else some (db.acquire (env.lockKey tenantID taskID) tx)
  | .lock tx _ _, none, db => some (db.rollback tx)
  | .findRequest tx tenantID taskID requestID, some found, db =>
      if found = (db.seen tx tenantID taskID).find? (fun event => event.requestID = some requestID)
      then some db else none
  | .findRequest tx _ _ _, none, db => some (db.rollback tx)
  | .findTerminal tx tenantID taskID, some found, db =>
      if found ∈ terminalAnswers (db.seen tx tenantID taskID) then some db else none
  | .findTerminal tx _ _, none, db => some (db.rollback tx)
  | .insert tx a, answer, db =>
      let seen := db.seen tx a.tenantID a.taskID
      match answer with
      | .row event =>
          match env.runs a.tenantID a.taskID with
          | none => none
          | some run =>
              if event = a.event run event.id event.createdAt ∧ seen.any Event.observed ∧
                  ¬ seen.any Event.terminal ∧ ¬ db.heldByOther (env.lockKey a.tenantID a.taskID) tx ∧
                  ¬ db.events.Conflicts Event.Clash tx event ∧
                  ¬ db.events.Waits Event.Clash tx event
              then some { db with events := db.events.insert tx event } else none
      | .noRows =>
          if env.runs a.tenantID a.taskID = none ∨ ¬ seen.any Event.observed then some db else none
      | .failed .terminalResolution =>
          if seen.any Event.terminal then some (db.rollback tx) else none
      | .failed .duplicateKey =>
          match env.runs a.tenantID a.taskID with
          | none => none
          | some run =>
              if db.events.Conflicts Event.Clash tx (a.event run 0 0) then some (db.rollback tx)
              else none
      | .failed .notRequired =>
          if ¬ seen.any Event.observed then some (db.rollback tx) else none
      | .failed .other => some (db.rollback tx)
  | .observe tx o, some (some event), db =>
      match env.runs o.tenantID o.taskID with
      | none => none
      | some run =>
          if event = o.event run event.id event.createdAt ∧
              ¬ db.heldByOther (env.lockKey o.tenantID o.taskID) tx ∧
              ¬ db.events.Conflicts Event.Clash tx event ∧ ¬ db.events.Waits Event.Clash tx event
          then some { db.acquire (env.lockKey o.tenantID o.taskID) tx with
            events := db.events.insert tx event }
          else none
  | .observe _ _, some none, db => some db
  | .observe tx _, none, db => some (db.rollback tx)
  | .commit tx, .ok, db => some (db.commit tx)
  | .commit tx, .failed applied, db => some (if applied then db.commit tx else db.rollback tx)
  | .rollback tx, _, db => some (db.rollback tx)
  | .load tenantID taskID, some rows, db =>
      if rows = (db.history tenantID taskID).insertionSort eventOrder then some db else none
  | .load _ _, none, db => some db

/-! ## The programs -/

inductive ReconciliationError where
  | reconciliationNotRequired
  | resolutionConflict
  | database
  deriving Repr, DecidableEq

inductive CurrentState where
  | reconciliationRequired
  | resolved (resolution : Resolution)
  deriving Repr, DecidableEq

structure OperatorReconciliationState where
  required : Bool
  currentState : CurrentState
  history : List Event
  deriving Repr, DecidableEq

inductive Reply where
  | appended (event : Event) (replayed : Bool)
  | refused (error : ReconciliationError)
  | observed
  | loaded (state : Option OperatorReconciliationState)
  deriving Repr, DecidableEq

abbrev Program := Prog Action Answer Reply

/-- The deferred rollback. -/
def abandon (tx : Nat) (error : ReconciliationError) : Program :=
  .act (.rollback tx) fun _ => .ret (.refused error)

def commitWith (tx : Nat) (reply : Reply) : Program :=
  .act (.commit tx) fun
    | .ok => .ret reply
    | .failed _ => .ret (.refused .database)

def insertError : InsertError → ReconciliationError
  | .terminalResolution | .duplicateKey => .resolutionConflict
  | .notRequired => .reconciliationNotRequired
  | .other => .database

def appendEvent (tx : Nat) (a : Append) : Program :=
  .act (.insert tx a) fun
    | .noRows => abandon tx .reconciliationNotRequired
    | .failed error => abandon tx (insertError error)
    | .row event => commitWith tx (.appended event false)

def checkTerminal (tx : Nat) (a : Append) : Program :=
  .act (.findTerminal tx a.tenantID a.taskID) fun
    | none => abandon tx .database
    | some (some _) => abandon tx .resolutionConflict
    | some none => appendEvent tx a

def checkRequest (tx : Nat) (a : Append) : Program :=
  .act (.findRequest tx a.tenantID a.taskID a.requestID) fun
    | none => abandon tx .database
    | some (some existing) =>
        if reconciliationRequestMatches existing a.actorID a.req then
          commitWith tx (.appended existing true)
        else abandon tx .resolutionConflict
    | some none => checkTerminal tx a

def appendOperatorReconciliation (tx : Nat) (a : Append) : Program :=
  .act (.lock tx a.tenantID a.taskID) fun
    | none => abandon tx .database
    | some () => checkRequest tx a

/-- The part of a failure report that records the observation. -/
def recordObservation (tx : Nat) (o : Observation) : Program :=
  .act (.observe tx o) fun
    | none => abandon tx .database
    | some _ => commitWith tx .observed

/-- One event of the loop over the rows: the current state and the terminal resolution. -/
def scanEvent (state : CurrentState × Option Resolution) (event : Event) :
    CurrentState × Option Resolution :=
  match event.resolution with
  | none => state
  | some resolution =>
      if resolution.terminal then (state.1, some resolution)
      else if state.2 = none then (.resolved resolution, none)
      else state

def operatorReconciliationState (rows : List Event) : Option OperatorReconciliationState :=
  let scanned := rows.foldl scanEvent (.reconciliationRequired, none)
  if rows.head?.any Event.observed then
    let current := (scanned.2.map .resolved).getD scanned.1
    some { required := current = .reconciliationRequired || current = .resolved .remainsUnknown
           currentState := current
           history := rows }
  else none

def loadOperatorReconciliationState (tenantID : String) (taskID : Nat) : Program :=
  .act (.load tenantID taskID) fun
    | none => .ret (.refused .database)
    | some rows => .ret (.loaded (operatorReconciliationState rows))

inductive Call where
  | append (a : Append)
  | observe (o : Observation)
  | load (tenantID : String) (taskID : Nat)

def Call.program (tx : Nat) : Call → Program
  | append a => appendOperatorReconciliation tx a
  | observe o => recordObservation tx o
  | load tenantID taskID => loadOperatorReconciliationState tenantID taskID

/-- Concurrent calls; a call is its own transaction. -/
def service (env : Environment) : System Db (Nat × Call) Action Answer Reply where
  perform := perform env
  spawn _ _ := []

abbrev ServiceConfig := Config Db (Nat × Call) Action Answer Reply

def start (calls : List Call) : ServiceConfig :=
  ⟨.empty, calls.zipIdx.map fun call => ⟨(call.2, call.1), call.1.program call.2⟩⟩

/-! ## Histories -/

/-- How the events of a run may grow. -/
inductive History : List Event → Prop where
  | nil : History []
  | observed {event : Event} (h : event.observed = true) : History [event]
  | append {events : List Event} {event : Event} (h : History events)
      (hobserved : ∃ x ∈ events, x.observed = true) (hopen : ∀ x ∈ events, x.terminal = false)
      (hrequest : event.requestID.isSome)
      (hfresh : ∀ x ∈ events, x.requestID ≠ event.requestID) : History (events ++ [event])

variable {event : Event} {events : List Event} {c : ServiceConfig}

theorem Event.requestID_eq_none_iff :
    event.requestID = none ↔ event.observed = true := by
  cases h : event.eventType <;> simp [requestID, observed, h]

namespace History

/-- How the last event came to a history. -/
theorem append_inv (h : History (events ++ [event])) :
    (events = [] ∧ event.observed = true) ∨ (History events ∧
      (∃ x ∈ events, x.observed = true) ∧ ∀ x ∈ events, x.terminal = false) := by
  generalize hall : events ++ [event] = all at h
  cases h with
  | nil => simp at hall
  | @observed first hobserved =>
      have hsplit : events ++ [event] = [] ++ [first] := hall
      obtain ⟨rfl, heq⟩ := List.append_inj' hsplit rfl
      cases heq
      exact .inl ⟨rfl, hobserved⟩
  | append h hobserved hopen hrequest hfresh =>
      obtain ⟨rfl, -⟩ := List.append_inj' hall rfl
      exact .inr ⟨h, hobserved, hopen⟩

/-- Nothing is appended to a history with a terminal resolution. -/
theorem open_of_append (h : History (events ++ [event])) : ∀ x ∈ events, x.terminal = false := by
  rcases h.append_inv with ⟨rfl, -⟩ | ⟨-, -, hopen⟩
  · simp
  · exact hopen

/-- A resolution follows the observation. -/
theorem observed_of_append (h : History (events ++ [event])) (hevent : event.observed = false) :
    ∃ x ∈ events, x.observed = true := by
  rcases h.append_inv with ⟨-, hobserved⟩ | ⟨-, hobserved, -⟩
  · rw [hobserved] at hevent
    cases hevent
  · exact hobserved

theorem of_append (h : History (events ++ [event])) : History events := by
  rcases h.append_inv with ⟨rfl, -⟩ | ⟨hevents, -, -⟩
  · exact .nil
  · exact hevents

theorem of_prefix {rest : List Event} (h : History (events ++ rest)) : History events := by
  induction rest using List.reverseRecOn with
  | nil => simpa using h
  | append_singleton rest last ih =>
      rw [← List.append_assoc] at h
      exact ih h.of_append

/-- Every request id has one event. -/
theorem nodup_requestIDs (h : History events) : (events.filterMap Event.requestID).Nodup := by
  induction h with
  | nil => simp
  | @observed event hobserved =>
      simp [Event.requestID_eq_none_iff.mpr hobserved]
  | @append events event h hobserved hopen hrequest hfresh ih =>
      obtain ⟨requestID, hid⟩ := Option.isSome_iff_exists.mp hrequest
      simp only [List.filterMap_append, List.filterMap_cons, hid, List.filterMap_nil]
      refine List.nodup_append.mpr ⟨ih, List.nodup_singleton _, ?_⟩
      rintro a ha b hb rfl
      obtain ⟨x, hx, hxid⟩ := List.mem_filterMap.mp ha
      rw [List.mem_singleton.mp hb, ← hid] at hxid
      exact hfresh x hx hxid

theorem terminals_le_one (h : History events) : (events.filter Event.terminal).length ≤ 1 := by
  rcases List.eq_nil_or_concat events with rfl | ⟨front, last, rfl⟩
  · simp
  · rw [List.concat_eq_append] at h ⊢
    have hfront : front.filter Event.terminal = [] := by
      rw [List.filter_eq_nil_iff]
      intro x hx
      simp [h.open_of_append x hx]
    rw [List.filter_append, hfront, List.nil_append]
    exact List.length_filter_le _ _

theorem terminal_unique (h : History events) {x y : Event} (hx : x ∈ events) (hy : y ∈ events)
    (hxterminal : x.terminal = true) (hyterminal : y.terminal = true) : x = y := by
  have hlength := h.terminals_le_one
  have hxmem := List.mem_filter.mpr ⟨hx, hxterminal⟩
  have hymem := List.mem_filter.mpr ⟨hy, hyterminal⟩
  match hfilter : events.filter Event.terminal with
  | [] => simp [hfilter] at hxmem
  | [z] =>
      rw [hfilter, List.mem_singleton] at hxmem hymem
      rw [hxmem, hymem]
  | _ :: _ :: _ => simp [hfilter] at hlength

end History

/-! ## The state of a history -/

def Event.state (event : Event) : CurrentState :=
  match event.resolution with
  | none => .reconciliationRequired
  | some resolution => .resolved resolution

/-- The terminal resolution if there is one, and the state of the last event otherwise. -/
def stateOf (events : List Event) : Option CurrentState :=
  match events.find? Event.terminal with
  | some event => some event.state
  | none => events.getLast?.map Event.state

theorem History.eq_cons (h : History events) (hne : events ≠ []) :
    ∃ first rest, events = first :: rest ∧ first.observed = true ∧
      ∀ x ∈ rest, x.observed = false := by
  induction h with
  | nil => exact absurd rfl hne
  | @observed event hobserved => exact ⟨event, [], rfl, hobserved, by simp⟩
  | @append events event h hobserved hopen hrequest hfresh ih =>
      obtain ⟨x, hx, -⟩ := hobserved
      obtain ⟨first, rest, rfl, hfirst, hrest⟩ := ih (List.ne_nil_of_mem hx)
      refine ⟨first, rest ++ [event], rfl, hfirst, ?_⟩
      intro y hy
      rcases List.mem_append.mp hy with hy | hy
      · exact hrest y hy
      · rw [List.mem_singleton.mp hy, ← Bool.not_eq_true, ← Event.requestID_eq_none_iff]
        exact Option.isSome_iff_ne_none.mp hrequest

/-- The observation comes first in the order of the query. -/
theorem head?_insertionSort {first : Event} {rest : List Event} (hfirst : first.observed = true)
    (hrest : ∀ x ∈ rest, x.observed = false) :
    ((first :: rest).insertionSort eventOrder).head? = some first := by
  rw [List.insertionSort_cons]
  cases hsorted : rest.insertionSort eventOrder with
  | nil => rfl
  | cons next tail =>
      have hmem : next ∈ rest := by
        rw [← List.mem_insertionSort eventOrder, hsorted]
        exact List.mem_cons_self
      have horder : eventOrder first next := .inl (by simp [hfirst, hrest next hmem])
      simp [List.orderedInsert, horder]

/-- The loop finds the only terminal resolution. -/
theorem foldl_scanEvent_terminal {resolution : Resolution}
    (state : CurrentState × Option Resolution)
    (hall : ∀ event ∈ events, event.terminal = true → event.resolution = some resolution)
    (hsome : state.2 = some resolution ∨ ∃ event ∈ events, event.terminal = true) :
    (events.foldl scanEvent state).2 = some resolution := by
  induction events generalizing state with
  | nil => simpa using hsome
  | cons event events ih =>
      rw [List.foldl_cons]
      refine ih _ (fun x hx => hall x (List.mem_cons_of_mem _ hx)) ?_
      by_cases hterminal : event.terminal = true
      · left
        have hres := hall event List.mem_cons_self hterminal
        have hterm : resolution.terminal = true := by simpa [Event.terminal, hres] using hterminal
        simp [scanEvent, hres, hterm]
      · rcases hsome with hstate | ⟨x, hx, hxterminal⟩
        · left
          cases hres : event.resolution with
          | none => simpa [scanEvent, hres] using hstate
          | some r =>
              have hr : r.terminal = false := by simpa [Event.terminal, hres] using hterminal
              simp [scanEvent, hres, hr, hstate]
        · rcases List.mem_cons.mp hx with rfl | hx
          · exact absurd hxterminal hterminal
          · exact .inr ⟨x, hx, hxterminal⟩

/-- Without a terminal resolution the loop says whether there is any resolution. -/
theorem foldl_scanEvent_open (current : CurrentState)
    (hopen : ∀ event ∈ events, event.terminal = false) :
    events.foldl scanEvent (current, none) =
      (if events.all Event.observed then current else .resolved .remainsUnknown, none) := by
  induction events generalizing current with
  | nil => simp
  | cons event events ih =>
      have hrest : ∀ x ∈ events, x.terminal = false :=
        fun x hx => hopen x (List.mem_cons_of_mem _ hx)
      have hevent := hopen event List.mem_cons_self
      rw [List.foldl_cons]
      cases htype : event.eventType with
      | unresolvedEffectObserved =>
          rw [show scanEvent (current, none) event = (current, none) by
            simp [scanEvent, Event.resolution, htype], ih current hrest]
          simp [Event.observed, htype]
      | operatorResolution resolution requestID =>
          have hresolution : resolution = .remainsUnknown := by
            cases resolution <;> simp_all [Event.terminal, Event.resolution, Resolution.terminal]
          subst hresolution
          rw [show scanEvent (current, none) event = (.resolved .remainsUnknown, none) by
            simp [scanEvent, Event.resolution, htype, Resolution.terminal], ih _ hrest]
          simp [Event.observed, htype]

theorem Event.state_of_open (hobserved : event.observed = false)
    (hterminal : event.terminal = false) : event.state = .resolved .remainsUnknown := by
  cases htype : event.eventType with
  | unresolvedEffectObserved => simp [observed, htype] at hobserved
  | operatorResolution resolution requestID =>
      cases resolution <;>
        simp_all [terminal, Event.resolution, Resolution.terminal, state]

theorem Event.state_of_observed (hobserved : event.observed = true) :
    event.state = .reconciliationRequired := by
  rw [observed, decide_eq_true_eq] at hobserved
  simp [state, resolution, hobserved]

/-- The loaded state of a history. -/
theorem currentState_of_history (h : History events) :
    (operatorReconciliationState (events.insertionSort eventOrder)).map
      OperatorReconciliationState.currentState = stateOf events := by
  by_cases hne : events = []
  · subst hne
    rfl
  have hmem : ∀ x, x ∈ events.insertionSort eventOrder ↔ x ∈ events :=
    fun x => List.mem_insertionSort eventOrder
  obtain ⟨first, rest, rfl, hfirst, hrest⟩ := h.eq_cons hne
  have hhead := head?_insertionSort hfirst hrest
  simp only [operatorReconciliationState, hhead, Option.any_some, hfirst, if_true, Option.map_some]
  cases hfind : (first :: rest).find? Event.terminal with
  | some event =>
      have hterminal := List.find?_some hfind
      have hevent := List.mem_of_find?_eq_some hfind
      obtain ⟨resolution, hres⟩ : ∃ resolution, event.resolution = some resolution := by
        cases hres : event.resolution with
        | none => simp [Event.terminal, hres] at hterminal
        | some resolution => exact ⟨resolution, rfl⟩
      have hscan := foldl_scanEvent_terminal (.reconciliationRequired, none)
        (fun x hx hxterminal => by
          rw [h.terminal_unique ((hmem x).mp hx) hevent hxterminal hterminal, hres])
        (.inr ⟨event, (hmem event).mpr hevent, hterminal⟩)
      rw [hscan, stateOf, hfind]
      simp [Event.state, hres]
  | none =>
      have hopen : ∀ x ∈ first :: rest, x.terminal = false := by
        simpa using List.find?_eq_none.mp hfind
      have hall : ((first :: rest).insertionSort eventOrder).all Event.observed = rest.isEmpty := by
        rw [Bool.eq_iff_iff, List.all_eq_true, List.isEmpty_iff]
        constructor
        · intro hobserved
          refine List.eq_nil_iff_forall_not_mem.mpr fun x hx => ?_
          have hx' := hobserved x ((hmem x).mpr (List.mem_cons_of_mem _ hx))
          rw [hrest x hx] at hx'
          cases hx'
        · rintro rfl x hx
          rw [hmem, List.mem_singleton] at hx
          rw [hx, hfirst]
      rw [foldl_scanEvent_open _ fun x hx => hopen x ((hmem x).mp hx), hall, stateOf, hfind]
      rcases List.eq_nil_or_concat rest with rfl | ⟨front, last, rfl⟩
      · simp [Event.state_of_observed hfirst]
      · have hlast : last ∈ front.concat last := by simp
        have hstate := Event.state_of_open (hrest last hlast)
          (hopen last (List.mem_cons_of_mem _ hlast))
        simp [List.getLast?_cons, hstate]

/-! ## What holds of every run -/

section Invariant

variable {env : Environment} {db db' : Db}

/-- A transaction holds the lock of a run. -/
def Holds (env : Environment) (db : Db) (tx : Nat) (tenantID : String) (taskID : Nat) : Prop :=
  (env.lockKey tenantID taskID, tx) ∈ db.locks

/-- The request id of an append has an event. -/
def Known (db : Db) (a : Append) : Prop :=
  ∃ event ∈ db.history a.tenantID a.taskID, event.requestID = some a.requestID

/-- What a reply says about the events of the run. -/
def ReplyFits (db : Db) (call : Call) : Reply → Prop
  | .appended event _ => ∃ a, call = .append a ∧ event ∈ db.history a.tenantID a.taskID ∧
      event.requestID = some a.requestID ∧
      reconciliationRequestMatches event a.actorID a.req = true
  | .refused .resolutionConflict => ∃ a, call = .append a ∧
      ((∃ event ∈ db.history a.tenantID a.taskID, event.requestID = some a.requestID ∧
          reconciliationRequestMatches event a.actorID a.req = false) ∨
        ((∃ event ∈ db.history a.tenantID a.taskID, event.terminal = true) ∧ ¬ Known db a))
  | .observed => ∃ o, call = .observe o
  | .loaded _ => ∃ tenantID taskID, call = .load tenantID taskID
  | _ => True

/-- A reply to a call that changed no row. -/
def Reply.unchanged : Reply → Bool
  | .appended _ replayed => replayed
  | .refused error => error ≠ .database
  | .observed => false
  | .loaded _ => true

/-- A lock has one holder. -/
def Exclusive (db : Db) : Prop :=
  ∀ key tx tx', (key, tx) ∈ db.locks → (key, tx') ∈ db.locks → tx = tx'

structure Sound (db : Db) : Prop where
  exclusive : Exclusive db
  history : ∀ tenantID taskID, History (db.history tenantID taskID)

/-- What the step of a transaction leaves as it is for the others. -/
structure Effect (env : Environment) (tx : Nat) (db db' : Db) : Prop where
  frame : Table.Frame tx db.events db'.events
  locks : ∀ key other, other ≠ tx → ((key, other) ∈ db'.locks ↔ (key, other) ∈ db.locks)
  committed : db'.events.committed = db.events.committed ∨ ∃ event,
    db'.events.committed = db.events.committed ++ [(tx, event)] ∧
      Holds env db tx event.tenantID event.taskID ∧
      History (db.history event.tenantID event.taskID ++ [event])

variable {tx other : Nat} {tenantID : String} {taskID : Nat}

variable {reply : Reply}

theorem mem_ofRun :
    event.ofRun tenantID taskID = true ↔ event.tenantID = tenantID ∧ event.taskID = taskID := by
  simp [Event.ofRun]

/-- A step leaves the history of a run as it is, or appends to it under the lock. -/
theorem Effect.history (h : Effect env tx db db') (tenantID : String) (taskID : Nat) :
    db'.history tenantID taskID = db.history tenantID taskID ∨
      ∃ event, db'.history tenantID taskID = db.history tenantID taskID ++ [event] ∧
        Holds env db tx tenantID taskID ∧ History (db.history tenantID taskID ++ [event]) := by
  rcases h.committed with heq | ⟨event, heq, hholds, hhistory⟩
  · exact .inl (by rw [Db.history, heq, Db.history])
  · by_cases hrun : event.ofRun tenantID taskID = true
    · obtain ⟨rfl, rfl⟩ := mem_ofRun.mp hrun
      exact .inr ⟨event, by simp [Db.history, heq, hrun], hholds, hhistory⟩
    · exact .inl (by simp [Db.history, heq, hrun])

theorem Effect.subset (h : Effect env tx db db') (hmem : event ∈ db.history tenantID taskID) :
    event ∈ db'.history tenantID taskID := by
  rcases h.history tenantID taskID with heq | ⟨_, heq, -, -⟩ <;> rw [heq]
  · exact hmem
  · exact List.mem_append_left _ hmem

/-- Nothing is appended to the history of a run whose lock another transaction holds. -/
theorem Effect.history_eq (h : Effect env tx db db') (hne : other ≠ tx)
    (hexclusive : Exclusive db) (hholds : Holds env db other tenantID taskID) :
    db'.history tenantID taskID = db.history tenantID taskID := by
  rcases h.history tenantID taskID with heq | ⟨_, -, hheld, -⟩
  · exact heq
  · exact absurd (hexclusive _ _ _ hholds hheld) hne

theorem Effect.sound (h : Effect env tx db db') (hsound : Sound db) (hexclusive : Exclusive db') :
    Sound db' := by
  refine ⟨hexclusive, fun tenantID taskID => ?_⟩
  rcases h.history tenantID taskID with heq | ⟨event, heq, -, hhistory⟩ <;> rw [heq]
  · exact hsound.history tenantID taskID
  · exact hhistory

theorem ReplyFits.frame {call : Call} (h : ReplyFits db call reply) (heffect : Effect env tx db db') :
    ReplyFits db' call reply := by
  match reply with
  | .appended event _ =>
      obtain ⟨a, hcall, hmem, hid, hmatch⟩ := h
      exact ⟨a, hcall, heffect.subset hmem, hid, hmatch⟩
  | .refused .resolutionConflict =>
      obtain ⟨a, hcall, ⟨event, hmem, hid, hmatch⟩ | ⟨⟨event, hmem, hterminal⟩, hnone⟩⟩ := h
      · exact ⟨a, hcall, .inl ⟨event, heffect.subset hmem, hid, hmatch⟩⟩
      · -- the terminal resolution keeps the history from growing
        rcases heffect.history a.tenantID a.taskID with heq | ⟨_, -, -, hhistory⟩
        · exact ⟨a, hcall, .inr (by rw [Known, heq]; exact ⟨⟨event, hmem, hterminal⟩, hnone⟩)⟩
        · rw [hhistory.open_of_append event hmem] at hterminal
          cases hterminal
  | .refused .database | .refused .reconciliationNotRequired => trivial
  | .observed | .loaded _ => exact h

theorem Effect.refl : Effect env tx db db :=
  ⟨.refl tx _, fun _ _ _ => Iff.rfl, .inl rfl⟩

variable {key : Nat}

theorem mem_locks_release :
    (key, other) ∈ (db.release tx).locks ↔ (key, other) ∈ db.locks ∧ other ≠ tx := by
  simp [Db.release]

theorem effect_rollback : Effect env tx db (db.rollback tx) where
  frame := Table.frame_rollback
  locks _ _ hne := mem_locks_release.trans (and_iff_left hne)
  committed := .inl rfl

theorem effect_commit_nil (hown : db.events.own tx = []) : Effect env tx db (db.commit tx) where
  frame := Table.frame_commit
  locks _ _ hne := mem_locks_release.trans (and_iff_left hne)
  committed := .inl (by simp [Db.commit, Table.commit, hown])

theorem effect_commit_row (hown : db.events.own tx = [(tx, event)])
    (hholds : Holds env db tx event.tenantID event.taskID)
    (hhistory : History (db.history event.tenantID event.taskID ++ [event])) :
    Effect env tx db (db.commit tx) where
  frame := Table.frame_commit
  locks _ _ hne := mem_locks_release.trans (and_iff_left hne)
  committed := .inr ⟨event, by simp [Db.commit, Table.commit, hown], hholds, hhistory⟩

theorem effect_acquire : Effect env tx db (db.acquire key tx) where
  frame := .refl tx _
  locks _ _ hne := by simp [Db.acquire, hne]
  committed := .inl rfl

/-- A transaction that has written nothing sees the committed events. -/
theorem seen_eq_history (h : db.events.Untouched tx) (tenantID : String) (taskID : Nat) :
    db.seen tx tenantID taskID = db.history tenantID taskID := by
  simp [Db.seen, Db.history, Table.visible, h.1]

theorem Exclusive.release (h : Exclusive db) (tx : Nat) : Exclusive (db.release tx) :=
  fun key a b ha hb => h key a b (mem_locks_release.mp ha).1 (mem_locks_release.mp hb).1

theorem Exclusive.acquire (h : Exclusive db) (hfree : db.heldByOther key tx = false) :
    Exclusive (db.acquire key tx) := by
  have hother : ∀ holder, (key, holder) ∈ db.locks → holder = tx := by
    intro holder hmem
    by_contra hne
    rw [Db.heldByOther, List.any_eq_false] at hfree
    exact hfree (key, holder) hmem (by simp [hne])
  intro key' a b ha hb
  simp only [Db.acquire, List.mem_cons, Prod.mk.injEq] at ha hb
  rcases ha with ⟨rfl, rfl⟩ | ha <;> rcases hb with ⟨hkey, rfl⟩ | hb
  · rfl
  · exact (hother b hb).symm
  · subst hkey
    exact hother a ha
  · exact h key' a b ha hb

/-! ### Assertions -/

/-- What a call has to do with the table when it returns.  The call that came late took the lock
when its event was there. -/
structure Settled (late : Option (Nat × Append)) (tx : Nat) (call : Call) (reply : Reply)
    (db : Db) : Prop where
  fits : ReplyFits db call reply
  unchanged : reply.unchanged = true → ∀ entry ∈ db.events.committed, entry.1 ≠ tx
  late : ∀ a, late = some (tx, a) → call = .append a → reply ≠ .refused .reconciliationNotRequired

def discipline (env : Environment) (late : Option (Nat × Append)) :
    Discipline Db (Nat × Call) Action Answer Reply where
  assume db e := ∀ a, late = some (e.tid, a) → e.action = .lock e.tid a.tenantID a.taskID →
    Known db a
  invariant := Sound
  change db e db' := Exclusive db ∧ Effect env e.tid db db'
  post tx label reply _ := Settled late tx label.2 reply

variable {late : Option (Nat × Append)} {call : Call} {X Y : Db → Prop} {a : Append}

/-- A property that the other transactions keep. -/
def Lasts (env : Environment) (tx : Nat) (X : Db → Prop) : Prop :=
  ∀ db db' other, tx ≠ other → Exclusive db → Effect env other db db' → X db → X db'

abbrev Safe (env : Environment) (late : Option (Nat × Append)) (tx : Nat) (call : Call)
    (p : Program) (X : Db → Prop) : Prop :=
  Outline (service env) (discipline env late) tx (tx, call) p fun _ => X

theorem Lasts.stable (h : Lasts env tx X) : (discipline env late).Stable tx fun _ => X :=
  fun _ _ _ _ hne hX hchange => h _ _ _ hne.symm hchange.1 hchange.2 hX

theorem lasts_settled : Lasts env tx (Settled late tx call reply) := by
  intro db db' other hne _ heffect h
  refine ⟨h.fits.frame heffect, fun hunchanged entry hmem => ?_, h.late⟩
  rcases heffect.frame.fresh entry hmem with hold | howner
  · exact h.unchanged hunchanged entry hold
  · exact fun heq => hne (heq.symm.trans howner)

variable {action : Action} {answer : Answer action} {rest : Program}

theorem leads_of (hY : Lasts env tx Y) (hrest : Safe env late tx call rest Y)
    (h : ∀ db db', (discipline env late).assume db ⟨tx, (tx, call), action, answer⟩ → Sound db →
      X db → perform env action answer db = some db' →
        Exclusive db' ∧ Effect env tx db db' ∧ Y db') :
    Leads (service env) (discipline env late) tx (tx, call) (fun _ => X) action answer rest := by
  refine ⟨_, hY.stable, hrest, fun _ db db' hassume hsound hX hperform => ?_⟩
  obtain ⟨hexclusive, heffect, hY'⟩ := h db db' hassume hsound hX hperform
  exact ⟨heffect.sound hsound hexclusive, ⟨hsound.exclusive, heffect⟩, hY'⟩

/-- The last statement of a call. -/
theorem leads_ret (h : ∀ db db', Sound db → X db →
      perform env action answer db = some db' →
        Exclusive db' ∧ Effect env tx db db' ∧ Settled late tx call reply db') :
    Leads (service env) (discipline env late) tx (tx, call) (fun _ => X) action answer
      (.ret reply) :=
  leads_of lasts_settled (fun _ _ hsettled => hsettled) fun db db' _ => h db db'

/-- The transaction has written nothing, and gives the reply when it ends. -/
def Replies (late : Option (Nat × Append)) (tx : Nat) (call : Call) (reply : Reply) (db : Db) :
    Prop :=
  db.events.Untouched tx ∧ Settled late tx call reply db

theorem lasts_untouched : Lasts env tx fun db => db.events.Untouched tx :=
  fun _ _ _ hne _ heffect h => h.frame hne heffect.frame

theorem lasts_replies : Lasts env tx (Replies late tx call reply) :=
  fun db db' other hne hexclusive heffect h =>
    ⟨lasts_untouched db db' other hne hexclusive heffect h.1,
      lasts_settled db db' other hne hexclusive heffect h.2⟩

theorem settled_database : Settled late tx call (.refused .database) db :=
  ⟨trivial, nofun, nofun⟩

theorem safe_abandon {error : ReconciliationError} :
    Safe env late tx call (abandon tx error) (Replies late tx call (.refused error)) := by
  refine outline_act fun answer => leads_ret fun db db' hsound hX hperform => ?_
  cases hperform
  have heffect : Effect env tx db (db.rollback tx) := effect_rollback
  exact ⟨hsound.exclusive.release tx, heffect, hX.2.fits.frame heffect, hX.2.unchanged, hX.2.late⟩

/-- A statement that failed. -/
theorem leads_failed (hX : ∀ db, X db → db.events.Untouched tx)
    (h : ∀ db db', perform env action answer db = some db' → db' = db.rollback tx) :
    Leads (service env) (discipline env late) tx (tx, call) (fun _ => X) action answer
      (abandon tx .database) := by
  refine leads_of lasts_replies safe_abandon fun db db' _ hsound hdb hperform => ?_
  obtain rfl := h db db' hperform
  exact ⟨hsound.exclusive.release tx, effect_rollback, (hX db hdb).rollback, settled_database⟩

/-- A query after which the call ends with a reply. -/
theorem leads_replies (hrest : Safe env late tx call rest (Replies late tx call reply))
    (h : ∀ db db', Sound db → X db → perform env action answer db = some db' →
      db' = db ∧ Replies late tx call reply db) :
    Leads (service env) (discipline env late) tx (tx, call) (fun _ => X) action answer rest := by
  refine leads_of lasts_replies hrest fun db db' _ hsound hX hperform => ?_
  obtain ⟨rfl, hreplies⟩ := h db db' hsound hX hperform
  exact ⟨hsound.exclusive, .refl, hreplies⟩

theorem safe_commit (heffect : ∀ {db}, X db → Effect env tx db (db.commit tx))
    (hsettled : ∀ {db}, X db → Settled late tx call reply (db.commit tx)) :
    Safe env late tx call (commitWith tx reply) X := by
  refine outline_act fun answer => ?_
  cases answer with
  | ok =>
      refine leads_ret fun db db' hsound hX hperform => ?_
      cases hperform
      exact ⟨hsound.exclusive.release tx, heffect hX, hsettled hX⟩
  | failed applied =>
      refine leads_ret fun db db' hsound hX hperform => ?_
      cases hperform
      cases applied with
      | true => exact ⟨hsound.exclusive.release tx, heffect hX, settled_database⟩
      | false => exact ⟨hsound.exclusive.release tx, effect_rollback, settled_database⟩

theorem safe_commit_nil :
    Safe env late tx call (commitWith tx reply) (Replies late tx call reply) := by
  have heffect : ∀ {db}, Replies late tx call reply db → Effect env tx db (db.commit tx) :=
    fun hX => effect_commit_nil hX.1.1
  exact safe_commit heffect fun hX =>
    ⟨hX.2.fits.frame (heffect hX), fun _ => hX.1.commit.2, hX.2.late⟩

/-- The transaction has written one row and gives a reply that fits it. -/
structure Written (env : Environment) (tx : Nat) (call : Call) (event : Event) (reply : Reply)
    (db : Db) : Prop where
  own : db.events.own tx = [(tx, event)]
  holds : Holds env db tx event.tenantID event.taskID
  history : History (db.history event.tenantID event.taskID ++ [event])
  reply : (reply = .observed ∧ ∃ o, call = .observe o) ∨ ∃ a run, call = .append a ∧
    reply = .appended event false ∧ event = a.event run event.id event.createdAt

theorem lasts_written (event : Event) : Lasts env tx (Written env tx call event reply) := by
  intro db db' other hne hexclusive heffect h
  refine ⟨(heffect.frame.own tx hne).trans h.own, (heffect.locks _ _ hne).mpr h.holds, ?_, h.reply⟩
  rw [heffect.history_eq hne hexclusive h.holds]
  exact h.history

theorem Written.settled (h : Written env tx call event reply db) :
    Settled late tx call reply (db.commit tx) := by
  have hcommitted : (db.commit tx).events.committed = db.events.committed ++ [(tx, event)] := by
    simp [Db.commit, Table.commit, h.own]
  rcases h.reply with ⟨rfl, hcall⟩ | ⟨a, run, rfl, rfl, hevent⟩
  · exact ⟨hcall, by rintro ⟨⟩, by rintro _ _ _ ⟨⟩⟩
  · have hrun : event.ofRun a.tenantID a.taskID = true := by
      rw [hevent]
      simp [Event.ofRun, Append.event]
    refine ⟨⟨a, rfl, by simp [Db.history, hcommitted, hrun], ?_, ?_⟩, by rintro ⟨⟩, by rintro _ _ _ ⟨⟩⟩ <;> rw [hevent]
    · rfl
    · exact matches_event a run _ _

theorem safe_commit_row :
    Safe env late tx call (commitWith tx reply) (Written env tx call event reply) :=
  safe_commit (fun hX => effect_commit_row hX.own hX.holds hX.history) fun hX => hX.settled

/-! ### The statements of an append -/

/-- The transaction holds the lock.  If it came late it will find its event. -/
structure Locked (env : Environment) (late : Option (Nat × Append)) (tx : Nat) (a : Append)
    (db : Db) : Prop where
  untouched : db.events.Untouched tx
  holds : Holds env db tx a.tenantID a.taskID
  late : late = some (tx, a) → Known db a

/-- There is no event of the request, and maybe no terminal resolution. -/
structure Unanswered (env : Environment) (late : Option (Nat × Append)) (tx : Nat) (a : Append)
    (terminal : Prop) (db : Db) : Prop extends Locked env late tx a db where
  unknown : ¬ Known db a
  unresolved : terminal → ∀ event ∈ db.history a.tenantID a.taskID, event.terminal = false

theorem lasts_locked : Lasts env tx (Locked env late tx a) := by
  intro db db' other hne hexclusive heffect h
  refine ⟨h.untouched.frame hne heffect.frame, (heffect.locks _ _ hne).mpr h.holds, fun hlate => ?_⟩
  obtain ⟨event, hmem, hid⟩ := h.late hlate
  exact ⟨event, heffect.subset hmem, hid⟩

theorem lasts_unanswered {terminal : Prop} :
    Lasts env tx (Unanswered env late tx a terminal) := by
  intro db db' other hne hexclusive heffect h
  have heq := heffect.history_eq hne hexclusive h.holds
  refine ⟨lasts_locked db db' other hne hexclusive heffect h.toLocked, ?_, ?_⟩
  · rw [Known, heq]
    exact h.unknown
  · rw [heq]
    exact h.unresolved

/-- A request that came late has found its event. -/
theorem Unanswered.settled {terminal : Prop} {error : ReconciliationError}
    (h : Unanswered env late tx a terminal db) (hfits : ReplyFits db (.append a) (.refused error)) :
    Replies late tx (.append a) (.refused error) db := by
  refine ⟨h.untouched, hfits, fun _ => h.untouched.2, ?_⟩
  rintro _ hlate ⟨⟩
  exact absurd (h.late hlate) h.unknown

theorem Locked.settled (h : Locked env late tx a db) (hfits : ReplyFits db (.append a) reply)
    (hreply : reply ≠ .refused .reconciliationNotRequired) : Replies late tx (.append a) reply db :=
  ⟨h.untouched, hfits, fun _ => h.untouched.2, fun _ _ _ => hreply⟩

theorem safe_appendEvent :
    Safe env late tx (.append a) (appendEvent tx a) (Unanswered env late tx a True) := by
  refine outline_act fun answer => ?_
  cases answer with
  | noRows =>
      refine leads_replies safe_abandon fun db db' _ hX hperform => ?_
      exact ⟨(of_guard hperform).2, hX.settled trivial⟩
  | row event =>
      refine leads_of (lasts_written event) safe_commit_row fun db db' _ hsound hX hperform => ?_
      simp only [perform, seen_eq_history hX.untouched] at hperform
      cases hrun : env.runs a.tenantID a.taskID with
      | none => simp [hrun] at hperform
      | some run =>
          simp only [hrun] at hperform
          obtain ⟨⟨hevent, hobserved, -⟩, rfl⟩ := of_guard hperform
          have htenant : event.tenantID = a.tenantID := by rw [hevent]; rfl
          have htask : event.taskID = a.taskID := by rw [hevent]; rfl
          have hid : event.requestID = some a.requestID := by rw [hevent]; rfl
          refine ⟨hsound.exclusive, ⟨Table.frame_insert event, fun _ _ _ => Iff.rfl, .inl rfl⟩,
            ?_, ?_, ?_, .inr ⟨a, run, rfl, rfl, hevent⟩⟩
          · rw [Table.own_insert_self, hX.untouched.1]
            rfl
          · rw [htenant, htask]
            exact hX.holds
          · show History (db.history event.tenantID event.taskID ++ [event])
            rw [htenant, htask]
            refine .append (hsound.history _ _) (List.any_eq_true.mp hobserved)
              (hX.unresolved trivial) (by simp [hid]) fun x hx hxid => ?_
            exact hX.unknown ⟨x, hx, hxid.trans hid⟩
  | failed error =>
      -- under the lock an insertion fails for no reason of the history
      refine leads_of lasts_replies safe_abandon fun db db' _ hsound hX hperform => ?_
      have hrollback : ReplyFits (db.rollback tx) (.append a) (.refused (insertError error)) →
          Replies late tx (.append a) (.refused (insertError error)) (db.rollback tx) :=
        fun hfits => ⟨hX.untouched.rollback, hfits, fun _ => hX.untouched.2, by
          rintro _ hlate ⟨⟩
          exact absurd (hX.late hlate) hX.unknown⟩
      cases error with
      | terminalResolution =>
          simp only [perform, seen_eq_history hX.untouched] at hperform
          obtain ⟨event, hmem, hterminal⟩ := List.any_eq_true.mp (of_guard hperform).1
          rw [hX.unresolved trivial event hmem] at hterminal
          cases hterminal
      | duplicateKey =>
          simp only [perform] at hperform
          cases hrun : env.runs a.tenantID a.taskID with
          | none => simp [hrun] at hperform
          | some run =>
              simp only [hrun] at hperform
              obtain ⟨⟨event, hvisible, htenant, htask, hclash⟩, -⟩ := of_guard hperform
              have hmem : event ∈ db.history a.tenantID a.taskID := by
                rw [← seen_eq_history hX.untouched]
                exact List.mem_filter.mpr ⟨hvisible, mem_ofRun.mpr ⟨htenant, htask⟩⟩
              rcases hclash with ⟨-, hobserved⟩ | ⟨-, hid⟩ | ⟨hterminal, -⟩
              · cases hobserved
              · exact absurd ⟨event, hmem, hid⟩ hX.unknown
              · rw [hX.unresolved trivial event hmem] at hterminal
                cases hterminal
      | notRequired =>
          obtain ⟨-, rfl⟩ := of_guard hperform
          exact ⟨hsound.exclusive.release tx, effect_rollback, hrollback trivial⟩
      | other =>
          cases hperform
          exact ⟨hsound.exclusive.release tx, effect_rollback, hrollback trivial⟩

theorem exists_terminal_of_mem_terminalAnswers {resolution : Resolution}
    (h : some resolution ∈ terminalAnswers events) : ∃ event ∈ events, event.terminal = true := by
  simp only [terminalAnswers] at h
  split at h
  · simp at h
  · obtain ⟨event, hmem, -⟩ := List.mem_map.mp h
    exact ⟨event, List.mem_filter.mp hmem⟩

theorem terminal_eq_false_of_mem_terminalAnswers (h : none ∈ terminalAnswers events) :
    ∀ event ∈ events, event.terminal = false := by
  simp only [terminalAnswers] at h
  split at h <;> rename_i hterminals
  · intro event hmem
    simpa using List.filter_eq_nil_iff.mp hterminals event hmem
  · obtain ⟨event, hmem, heq⟩ := List.mem_map.mp h
    have hterminal := (List.mem_filter.mp hmem).2
    simp [Event.terminal, heq] at hterminal

theorem safe_checkTerminal :
    Safe env late tx (.append a) (checkTerminal tx a) (Unanswered env late tx a False) := by
  refine outline_act fun answer => ?_
  match answer with
  | none => exact leads_failed (fun _ hX => hX.untouched) fun _ _ h => (Option.some.inj h).symm
  | some (some resolution) =>
      refine leads_replies safe_abandon fun db db' _ hX hperform => ?_
      simp only [perform, seen_eq_history hX.untouched] at hperform
      obtain ⟨hguard, rfl⟩ := of_guard hperform
      exact ⟨rfl, hX.settled ⟨a, rfl, .inr ⟨exists_terminal_of_mem_terminalAnswers hguard, hX.unknown⟩⟩⟩
  | some none =>
      refine leads_of lasts_unanswered safe_appendEvent fun db db' _ hsound hX hperform => ?_
      simp only [perform, seen_eq_history hX.untouched] at hperform
      obtain ⟨hguard, rfl⟩ := of_guard hperform
      exact ⟨hsound.exclusive, .refl, hX.toLocked, hX.unknown,
        fun _ => terminal_eq_false_of_mem_terminalAnswers hguard⟩

theorem safe_checkRequest :
    Safe env late tx (.append a) (checkRequest tx a) (Locked env late tx a) := by
  refine outline_act fun answer => ?_
  have hfound : ∀ {db db' : Db} {existing : Event}, Locked env late tx a db →
      perform env (.findRequest tx a.tenantID a.taskID a.requestID) (some (some existing)) db =
        some db' → db' = db ∧ existing ∈ db.history a.tenantID a.taskID ∧
          existing.requestID = some a.requestID := by
    intro db db' existing hX hperform
    simp only [perform, seen_eq_history hX.untouched] at hperform
    obtain ⟨hfind, rfl⟩ := of_guard hperform
    exact ⟨rfl, List.mem_of_find?_eq_some hfind.symm, by simpa using List.find?_some hfind.symm⟩
  match answer with
  | none => exact leads_failed (fun _ hX => hX.untouched) fun _ _ h => (Option.some.inj h).symm
  | some (some existing) =>
      cases hmatch : reconciliationRequestMatches existing a.actorID a.req with
      | true =>
          simp only [hmatch, if_true]
          refine leads_replies safe_commit_nil fun db db' _ hX hperform => ?_
          obtain ⟨rfl, hmem, hid⟩ := hfound hX hperform
          exact ⟨rfl, hX.settled ⟨a, rfl, hmem, hid, hmatch⟩ nofun⟩
      | false =>
          simp only [hmatch]
          refine leads_replies safe_abandon fun db db' _ hX hperform => ?_
          obtain ⟨rfl, hmem, hid⟩ := hfound hX hperform
          exact ⟨rfl, hX.settled ⟨a, rfl, .inl ⟨existing, hmem, hid, hmatch⟩⟩ nofun⟩
  | some none =>
      refine leads_of lasts_unanswered safe_checkTerminal fun db db' _ hsound hX hperform => ?_
      simp only [perform, seen_eq_history hX.untouched] at hperform
      obtain ⟨hfind, rfl⟩ := of_guard hperform
      refine ⟨hsound.exclusive, .refl, hX, ?_, False.elim⟩
      rintro ⟨event, hmem, hid⟩
      simpa [hid] using List.find?_eq_none.mp hfind.symm event hmem

theorem safe_append :
    Safe env late tx (.append a) (appendOperatorReconciliation tx a)
      fun db => db.events.Untouched tx := by
  refine outline_act fun answer => ?_
  cases answer with
  | none => exact leads_failed (fun _ hX => hX) fun _ _ h => (Option.some.inj h).symm
  | some =>
      refine leads_of lasts_locked safe_checkRequest fun db db' hassume hsound hX hperform => ?_
      simp only [perform] at hperform
      split at hperform <;> rename_i hheld
      · cases hperform
      · cases hperform
        exact ⟨hsound.exclusive.acquire (by simpa using hheld), effect_acquire, hX,
          List.mem_cons_self, fun hlate => hassume a hlate rfl⟩

/-! ### Observations and loads -/

/-- A history has its observation. -/
theorem History.exists_observed (h : History events) (hne : events ≠ []) :
    ∃ x ∈ events, x.observed = true := by
  cases h with
  | nil => exact absurd rfl hne
  | observed hobserved => exact ⟨_, List.mem_singleton_self _, hobserved⟩
  | append _ hobserved _ _ _ =>
      obtain ⟨x, hx, hxobserved⟩ := hobserved
      exact ⟨x, List.mem_append_left _ hx, hxobserved⟩

theorem mem_visible_of_mem_history (h : event ∈ db.history tenantID taskID) (tx : Nat) :
    event ∈ db.events.visible tx ∧ event.tenantID = tenantID ∧
      event.taskID = taskID := by
  rw [Db.history, List.mem_filter, List.mem_map] at h
  obtain ⟨⟨⟨owner, _⟩, hmem, rfl⟩, hrun⟩ := h
  exact ⟨Table.mem_visible.mpr (.inl ⟨owner, hmem⟩), mem_ofRun.mp hrun⟩

theorem safe_observe {o : Observation} :
    Safe env late tx (.observe o) (recordObservation tx o) fun db => db.events.Untouched tx := by
  refine outline_act fun answer => ?_
  match answer with
  | none => exact leads_failed (fun _ hX => hX) fun _ _ h => (Option.some.inj h).symm
  | some none =>
      refine leads_replies safe_commit_nil fun db db' _ hX hperform => ?_
      cases hperform
      exact ⟨rfl, hX, ⟨o, rfl⟩, nofun, nofun⟩
  | some (some event) =>
      refine leads_of (lasts_written event) safe_commit_row fun db db' _ hsound hX hperform => ?_
      simp only [perform] at hperform
      cases hrun : env.runs o.tenantID o.taskID with
      | none => simp [hrun] at hperform
      | some run =>
          simp only [hrun] at hperform
          obtain ⟨⟨hevent, hfree, hconflicts, -⟩, rfl⟩ := of_guard hperform
          have htenant : event.tenantID = o.tenantID := by rw [hevent]; rfl
          have htask : event.taskID = o.taskID := by rw [hevent]; rfl
          have hobserved : event.observed = true := by rw [hevent]; rfl
          -- an event of the run would bring its observation, which clashes
          have hempty : db.history event.tenantID event.taskID = [] := by
            by_contra hne
            obtain ⟨x, hx, hxobserved⟩ := (hsound.history _ _).exists_observed hne
            obtain ⟨hvisible, hxtenant, hxtask⟩ := mem_visible_of_mem_history hx tx
            exact hconflicts ⟨x, hvisible, hxtenant, hxtask, .inl ⟨hxobserved, hobserved⟩⟩
          refine ⟨hsound.exclusive.acquire (by simpa using hfree),
            ⟨Table.frame_insert event, (effect_acquire : Effect env tx db _).locks, .inl rfl⟩,
            ?_, ?_, ?_, .inl ⟨rfl, o, rfl⟩⟩
          · show (db.events.insert tx event).own tx = _
            rw [Table.own_insert_self, hX.1]
            rfl
          · rw [htenant, htask]
            exact List.mem_cons_self
          · show History (db.history event.tenantID event.taskID ++ [event])
            rw [hempty]
            exact .observed hobserved

theorem safe_load :
    Safe env late tx (.load tenantID taskID) (loadOperatorReconciliationState tenantID taskID)
      fun db => db.events.Untouched tx := by
  refine outline_act fun answer => ?_
  cases answer with
  | none =>
      refine leads_ret fun db db' hsound _ hperform => ?_
      cases hperform
      exact ⟨hsound.exclusive, .refl, settled_database⟩
  | some rows =>
      refine leads_ret fun db db' hsound hX hperform => ?_
      obtain ⟨-, rfl⟩ := of_guard hperform
      exact ⟨hsound.exclusive, .refl, ⟨tenantID, taskID, rfl⟩, fun _ => hX.2, nofun⟩

/-- Every call follows its outline in every run. -/
theorem outlined_of_run {calls : List Call}
    {τ : List (Concurrency.Event (Nat × Call) Action Answer)}
    (hrun : Run (service env) (start calls) τ c)
    (hlate : EveryStep (service env) (start calls) τ fun _ c₁ e =>
      (discipline env late).assume c₁.state e) :
    Outlined (service env) (discipline env late) τ c := by
  refine hrun.outlined (fun _ _ => rfl)
    (outlined_start (A := fun tx _ db => db.events.Untouched tx) ?_ ?_ ?_ ?_) hlate
  · exact ⟨nofun, fun _ _ => .nil⟩
  · exact fun _ => lasts_untouched.stable
  · intro tx call
    cases call with
    | append a => exact safe_append
    | observe o => exact safe_observe
    | load tenantID taskID => exact safe_load
  · exact fun _ _ => ⟨rfl, by simp [Db.empty, Table.empty]⟩

end Invariant

/-! ## Main result -/

/-- What the replies to the requests for a run have to do with its events. -/
structure Consistent (c : ServiceConfig) (tid : Nat) (a : Append) (reply : Reply) : Prop where
  /-- A request whose id has an event replays it if it is identical, and is a conflict if not. -/
  repeated : ∀ event ∈ c.state.history a.tenantID a.taskID,
    event.requestID = some a.requestID → reply ≠ .refused .database →
    reply ≠ .refused .reconciliationNotRequired →
    if reconciliationRequestMatches event a.actorID a.req then ∃ replayed, reply = .appended event replayed
    else reply = .refused .resolutionConflict
  /-- An event in a reply is recorded. -/
  recorded : ∀ event replayed, reply = .appended event replayed →
    event ∈ c.state.history a.tenantID a.taskID ∧ event.requestID = some a.requestID
  /-- Replays and refusals change nothing. -/
  unchanged : reply.unchanged = true → ∀ entry ∈ c.state.events.committed, entry.1 ≠ tid

theorem History.eq_of_requestID (h : History events) {x y : Event} (hx : x ∈ events)
    (hy : y ∈ events) {requestID : Nat} (hxid : x.requestID = some requestID)
    (hyid : y.requestID = some requestID) : x = y := by
  induction h with
  | nil => cases hx
  | observed => rw [List.mem_singleton.mp hx, List.mem_singleton.mp hy]
  | append h hobserved hopen hrequest hfresh ih =>
      rcases List.mem_append.mp hx with hx | hx <;> rcases List.mem_append.mp hy with hy | hy
      · exact ih hx hy
      · rw [List.mem_singleton.mp hy] at hyid
        exact absurd (hxid.trans hyid.symm) (hfresh x hx)
      · rw [List.mem_singleton.mp hx] at hxid
        exact absurd (hyid.trans hxid.symm) (hfresh y hy)
      · rw [List.mem_singleton.mp hx, List.mem_singleton.mp hy]

theorem Settled.consistent {late : Option (Nat × Append)} {tid : Nat} {a : Append} {reply : Reply}
    (h : Settled late tid (.append a) reply c.state)
    (hhistory : History (c.state.history a.tenantID a.taskID)) : Consistent c tid a reply := by
  have hfits := h.fits
  refine ⟨?_, ?_, h.unchanged⟩
  · intro event hmem hid hdatabase hrequired
    match reply with
    | .appended found replayed =>
        obtain ⟨_, ⟨⟩, hfound, hfoundID, hmatch⟩ := hfits
        obtain rfl := hhistory.eq_of_requestID hmem hfound hid hfoundID
        rw [if_pos hmatch]
        exact ⟨replayed, rfl⟩
    | .refused .resolutionConflict =>
        obtain ⟨_, ⟨⟩, ⟨found, hfound, hfoundID, hmatch⟩ | ⟨-, hnone⟩⟩ := hfits
        · obtain rfl := hhistory.eq_of_requestID hmem hfound hid hfoundID
          simp [hmatch]
        · exact absurd ⟨event, hmem, hid⟩ hnone
    | .refused .database => exact absurd rfl hdatabase
    | .refused .reconciliationNotRequired => exact absurd rfl hrequired
    | .observed =>
        obtain ⟨_, ⟨⟩⟩ := hfits
    | .loaded _ =>
        obtain ⟨_, _, ⟨⟩⟩ := hfits
  · rintro event replayed rfl
    obtain ⟨_, ⟨⟩, hfound, hfoundID, -⟩ := hfits
    exact ⟨hfound, hfoundID⟩

/-- The action takes the lock of a run. -/
def Action.locks : Action → Prop
  | .lock _ _ _ => True
  | _ => False

instance : DecidablePred Action.locks := fun a => by
  cases a <;> first | exact isTrue trivial | exact isFalse id

theorem checkRequest_never_locks (tx : Nat) (a : Append) :
    (checkRequest tx a).Never Action.locks := by
  have habandon : ∀ error, (abandon tx error).Never Action.locks := fun _ => ⟨id, fun _ _ => trivial⟩
  have hcommit : ∀ reply, (commitWith tx reply).Never Action.locks := by
    intro reply
    refine ⟨id, fun answer _ => ?_⟩
    cases answer <;> trivial
  refine ⟨id, fun answer _ => ?_⟩
  match answer with
  | none => exact habandon _
  | some (some existing) =>
      dsimp only
      split
      · exact hcommit _
      · exact habandon _
  | some none =>
      refine ⟨id, fun answer _ => ?_⟩
      match answer with
      | none | some (some _) => exact habandon _
      | some none =>
          refine ⟨id, fun answer _ => ?_⟩
          cases answer with
          | row event => exact hcommit _
          | noRows | failed => exact habandon _

theorem append_locks_once (tx : Nat) (a : Append) :
    (appendOperatorReconciliation tx a).AtMostOnce Action.locks := by
  refine ⟨[], .refl _, fun answer => ?_⟩
  cases answer with
  | none => exact fun _ => trivial
  | some =>
      exact ((checkRequest_never_locks tx a).along fun _ ha => ⟨trivial, if_neg ha⟩).walks

/-- The program of a thread, from the transaction and the call that it carries. -/
def programOf (origin : Nat × Call) : Program :=
  origin.2.program origin.1

theorem program_of_mem_start (calls : List Call) :
    ∀ t ∈ (start calls).pool, t.prog = programOf t.origin := by
  intro t ht
  obtain ⟨call, -, rfl⟩ := List.mem_map.mp ht
  rfl

/-- A request takes the lock of its run once. -/
theorem lock_unique {env : Environment} {calls : List Call}
    {τ pre pre' post post' : List (Concurrency.Event (Nat × Call) Action Answer)}
    {e e' : Concurrency.Event (Nat × Call) Action Answer} {a : Append}
    (hrun : Run (service env) (start calls) τ c) (hsplit : τ = pre ++ e :: post)
    (hsplit' : τ = pre' ++ e' :: post') (horigin : e.origin = (e.tid, .append a))
    (horigin' : e'.origin = (e'.tid, .append a)) (htid : e'.tid = e.tid) (hlock : e.action.locks)
    (hlock' : e'.action.locks) : pre' = pre := by
  have hearlier : ∀ {pre post : List (Concurrency.Event (Nat × Call) Action Answer)}
      {e e' : Concurrency.Event (Nat × Call) Action Answer}, τ = pre ++ e :: post →
      e.origin = (e.tid, .append a) → e.action.locks → e'.tid = e.tid → e' ∈ pre →
      ¬e'.action.locks := by
    intro pre post e e' hsplit horigin hlock htid hmem
    subst hsplit
    refine Run.atMostOnce (by simp [service]) (program_of_mem_start calls) hrun ?_ hlock hmem htid
    rw [horigin]
    exact append_locks_once _ a
  rcases List.append_eq_append_iff.mp (hsplit.symm.trans hsplit') with
    ⟨more, rfl, hmore⟩ | ⟨more, rfl, hmore⟩
  · cases more with
    | nil => simp
    | cons first more =>
        cases hmore
        exact absurd hlock (hearlier hsplit' horigin' hlock' htid.symm (by simp))
  · cases more with
    | nil => simp
    | cons first more =>
        cases hmore
        exact absurd hlock' (hearlier hsplit horigin hlock htid (by simp))

def paymentRun : RunIdentity :=
  ⟨1, "c0ffee", 2, "beef", "f00d"⟩

def oneTenant : Environment where
  runs tenantID _ := if tenantID = "acme" then some paymentRun else none
  lockKey _ taskID := taskID

/-- No statement fails. -/
def smoothly (env : Environment) (draw : Nat) : (a : Action) → Db → Option (Answer a)
  | .lock _ _ _, _ => some (some ())
  | .findRequest tx tenantID taskID requestID, db => some (some
      ((db.seen tx tenantID taskID).find? fun event => event.requestID = some requestID))
  | .findTerminal tx tenantID taskID, db =>
      (terminalAnswers (db.seen tx tenantID taskID)).head?.map some
  | .insert _ a, _ => (env.runs a.tenantID a.taskID).map fun run => .row (a.event run draw draw)
  | .observe _ o, _ =>
      (env.runs o.tenantID o.taskID).map fun run => some (some (o.event run draw draw))
  | .commit _, _ => some .ok
  | .rollback _, _ => some ()
  | .load tenantID taskID, db =>
      some (some ((db.history tenantID taskID).insertionSort eventOrder))

def settled : Append :=
  ⟨"acme", 7, "acme", "", 11, ⟨.confirmedSucceeded, "seen at the provider", none⟩⟩

end Reconciliation
end Igris
