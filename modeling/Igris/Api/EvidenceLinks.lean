import Igris.Api.EvidenceVerify
import Igris.Lib.Outline
import Igris.Lib.Transactions

/-!
# Links from evidence to runs

A request links a verified evidence batch to a bound run.  It checks that the batch is
eligible, and then inserts the link in a transaction whose conflicts two unique
indexes decide.  A link that is there already is replayed: the newest link of the
run is loaded.

Main results:

- Theorem {lit}`links_of_run`: batches and chain digests are linked at most once, every
  link is eligible when it is made, and replies name the requested batch if the newest
  link of the run is the one that is replayed.
- Theorem {lit}`replay_names_other_batch`: a run with two links replays the newer one.
-/

namespace Igris
namespace EvidenceLinks

open Concurrency Transactions

/-! ## Rows -/

inductive EvidenceState where
  | received
  | verified
  | rejected
  deriving Repr, DecidableEq

/-- A batch; its execution provenance is embedded by a constraint of the table. -/
structure Batch where
  id : Nat
  tenantID : String
  evidenceState : EvidenceState
  chainHead : Option String
  deriving Repr, DecidableEq

inductive EventType where
  | decision
  | outcome
  deriving Repr, DecidableEq

structure EvidenceEvent where
  batchID : Nat
  tenantID : String
  contractHash : String
  actionName : String
  eventType : EventType
  inputHash : Option String
  deriving Repr, DecidableEq

structure Link where
  id : Nat
  taskID : Nat
  tenantID : String
  chainDigest : String
  batchID : Nat
  createdAt : Nat
  deriving Repr, DecidableEq

/-- Two links that a unique index does not allow together. -/
def Link.Clash (a b : Link) : Prop :=
  a.tenantID = b.tenantID ∧ (a.batchID = b.batchID ∨ a.chainDigest = b.chainDigest)

instance : DecidableRel Link.Clash := fun a b =>
  inferInstanceAs (Decidable (a.tenantID = b.tenantID ∧
    (a.batchID = b.batchID ∨ a.chainDigest = b.chainDigest)))

theorem Link.Clash.symm (a b : Link) (h : Link.Clash a b) : Link.Clash b a :=
  ⟨h.1.symm, h.2.imp Eq.symm Eq.symm⟩

def Link.ofRun (tenantID : String) (taskID : Nat) (link : Link) : Bool :=
  link.tenantID = tenantID && link.taskID = taskID

structure Db where
  links : Table Link
  batches : List Batch
  events : List EvidenceEvent

/-! ## Requests -/

/-- A request to link a batch to a run; the contract hash and the tool's name and input hash are
those of the run's record. -/
structure LinkRequest where
  tenantID : String
  taskID : Nat
  boundContractHash : Option String
  toolContext : Option (String × String)
  batchID : Nat
  deriving Repr, DecidableEq

structure Eligibility where
  chainDigest : String
  batchID : Nat
  inputHash : String
  actionName : String
  deriving Repr, DecidableEq

inductive LinkError where
  | notLinkable (message : String)
  | database
  deriving Repr, DecidableEq

/-- What the evidence of a batch has to show for a run. -/
def Batch.proves (events : List EvidenceEvent) (tenantID contractHash actionName inputHash : String)
    (batch : Batch) : Bool :=
  batch.tenantID = tenantID && batch.evidenceState = .verified && batch.chainHead.isSome &&
    events.any fun event => event.batchID = batch.id && event.tenantID = batch.tenantID &&
      event.contractHash = contractHash && event.actionName = actionName &&
      event.eventType = .decision && event.inputHash = some inputHash

/-- The batch or its chain is linked to another run. -/
def Batch.taken (links : List Link) (taskID : Nat) (batch : Batch) : Bool :=
  links.any fun link => link.tenantID = batch.tenantID &&
    (link.batchID = batch.id || some link.chainDigest = batch.chainHead) && link.taskID ≠ taskID

/-- The row of the eligibility query. -/
def Db.eligible (db : Db) (tenantID : String) (taskID : Nat)
    (contractHash actionName inputHash : String) (batchID : Nat) : Option (Nat × String) :=
  (db.batches.find? fun batch => batch.id = batchID &&
      batch.proves db.events tenantID contractHash actionName inputHash &&
      !batch.taken (db.links.committed.map Prod.snd) taskID).bind fun batch =>
    batch.chainHead.map fun digest => (batch.id, digest)

/-! ## Statements -/

inductive Inserted where
  | row (link : Link)
  | noRows
  | uniqueViolation
  | failed
  deriving Repr, DecidableEq

inductive Action where
  | eligible (tenantID : String) (taskID : Nat) (contractHash actionName inputHash : String)
      (batchID : Nat)
  | findConflict (tx : Nat) (tenantID : String) (taskID batchID : Nat) (digest : String)
  | insert (tx : Nat) (tenantID : String) (taskID batchID : Nat) (digest : String)
  | loadLink (tx : Nat) (tenantID : String) (taskID : Nat)
  | commit (tx : Nat)
  | rollback (tx : Nat)
  | ingest (batch : Batch) (events : List EvidenceEvent)

/-- Every statement may fail; {lit}`none` is a failure. -/
abbrev Answer : Action → Type
  | .eligible _ _ _ _ _ _ => Option (Option (Nat × String))
  | .findConflict _ _ _ _ _ => Option (Option Nat)
  | .insert _ _ _ _ _ => Inserted
  | .loadLink _ _ _ => Option (Option Link)
  | .commit _ => Committed
  | .rollback _ => Unit
  | .ingest _ _ => Unit

namespace Db

def empty : Db :=
  ⟨.empty, [], []⟩

def commit (db : Db) (tx : Nat) : Db :=
  { db with links := db.links.commit tx }

def rollback (db : Db) (tx : Nat) : Db :=
  { db with links := db.links.rollback tx }

/-- The links of a run that a statement sees. -/
def linksOf (db : Db) (tx : Nat) (tenantID : String) (taskID : Nat) : List Link :=
  (db.links.visible tx).filter (Link.ofRun tenantID taskID)

/-- The newest of them; which one comes first among links of the same time is open. -/
def newest (db : Db) (tx : Nat) (tenantID : String) (taskID : Nat) : List Link :=
  (db.linksOf tx tenantID taskID).filter fun link =>
    (db.linksOf tx tenantID taskID).all fun other => other.createdAt ≤ link.createdAt

/-- The runs that another link of the batch or the digest belongs to. -/
def otherRuns (db : Db) (tx : Nat) (tenantID : String) (taskID batchID : Nat) (digest : String) :
    List Nat :=
  ((db.links.visible tx).filter fun link => link.tenantID = tenantID &&
    (link.batchID = batchID || link.chainDigest = digest) && link.taskID ≠ taskID).map Link.taskID

end Db

/-- What the statements do.  A failed statement ends its transaction. -/
def perform : Semantics Action Answer Db
  | .eligible tenantID taskID contractHash actionName inputHash batchID, some found, db =>
      if found = db.eligible tenantID taskID contractHash actionName inputHash batchID
      then some db else none
  | .eligible _ _ _ _ _ _, none, db => some db
  | .findConflict tx tenantID taskID batchID digest, some found, db =>
      match found with
      | none => if db.otherRuns tx tenantID taskID batchID digest = [] then some db else none
      | some run => if run ∈ db.otherRuns tx tenantID taskID batchID digest then some db else none
  | .findConflict tx _ _ _ _, none, db => some (db.rollback tx)
  | .insert tx tenantID taskID batchID digest, .row link, db =>
      if link = ⟨link.id, taskID, tenantID, digest, batchID, link.createdAt⟩ ∧
          ¬ db.links.Conflicts Link.Clash tx link ∧ ¬ db.links.Waits Link.Clash tx link
      then some { db with links := db.links.insert tx link } else none
  | .insert tx tenantID taskID _ digest, .noRows, db =>
      if (db.linksOf tx tenantID taskID).any fun link => link.chainDigest = digest
      then some db else none
  | .insert tx tenantID taskID batchID digest, .uniqueViolation, db =>
      if db.links.Conflicts Link.Clash tx ⟨0, taskID, tenantID, digest, batchID, 0⟩
      then some (db.rollback tx) else none
  | .insert tx _ _ _ _, .failed, db => some (db.rollback tx)
  | .loadLink tx tenantID taskID, some found, db =>
      match found with
      | none => if db.linksOf tx tenantID taskID = [] then some db else none
      | some link => if link ∈ db.newest tx tenantID taskID then some db else none
  | .loadLink tx _ _, none, db => some (db.rollback tx)
  | .commit tx, .ok, db => some (db.commit tx)
  | .commit tx, .failed applied, db => some (if applied then db.commit tx else db.rollback tx)
  | .rollback tx, _, db => some (db.rollback tx)
  | .ingest batch events, _, db =>
      if db.batches.any fun other => other.id = batch.id then none
      else some { db with batches := db.batches ++ [batch], events := db.events ++ events }

/-! ## The programs -/

inductive Reply where
  | linked (link : Link)
  | refused (error : LinkError)
  | ingested
  deriving Repr, DecidableEq

abbrev Program (α : Type) := Prog Action Answer α

def evaluateEvidenceLinkEligibility (r : LinkRequest) : Program (Except LinkError Eligibility) :=
  match r.boundContractHash with
  | none => .ret (.error (.notLinkable "contract_bound_run_required"))
  | some contractHash =>
      match r.toolContext with
      | none => .ret (.error (.notLinkable "bound_run_tool_identity_unproven"))
      | some (actionName, inputHash) =>
          if actionName = "" ∨ Evidence.isHash inputHash = false then
            .ret (.error (.notLinkable "bound_run_tool_identity_unproven"))
          else if Evidence.isHash contractHash = false then
            .ret (.error (.notLinkable "invalid_bound_contract_hash"))
          else
            .act (.eligible r.tenantID r.taskID contractHash actionName inputHash r.batchID) fun
              | none => .ret (.error .database)
              | some none => .ret (.error (.notLinkable ("batch must be verified Embedded " ++
                  "evidence for this exact run identity (tenant, action_name, contract_hash, " ++
                  "tool input_hash) and must not be linked to another run")))
              | some (some (batchID, digest)) =>
                  if Evidence.isHash digest = false then
                    .ret (.error (.notLinkable "invalid_chain_digest"))
                  else .ret (.ok ⟨digest, batchID, inputHash, actionName⟩)

/-- The deferred rollback. -/
def abandon (tx : Nat) (error : LinkError) : Program Reply :=
  .act (.rollback tx) fun _ => .ret (.refused error)

def commitWith (tx : Nat) (reply : Reply) : Program Reply :=
  .act (.commit tx) fun
    | .ok => .ret reply
    | .failed _ => .ret (.refused .database)

def alreadyLinked : LinkError :=
  .notLinkable "evidence batch or chain already linked to another run"

/-- The existing link of the run is replayed. -/
def replayLink (tx : Nat) (tenantID : String) (taskID : Nat) : Program Reply :=
  .act (.loadLink tx tenantID taskID) fun
    | some (some link) => commitWith tx (.linked link)
    | _ => abandon tx .database

def insertLink (tx : Nat) (r : LinkRequest) (elig : Eligibility) : Program Reply :=
  .act (.insert tx r.tenantID r.taskID elig.batchID elig.chainDigest) fun
    | .row link => commitWith tx (.linked link)
    | .noRows => replayLink tx r.tenantID r.taskID
    | .uniqueViolation => abandon tx alreadyLinked
    | .failed => abandon tx .database

def insertEvidenceLinkExclusive (tx : Nat) (r : LinkRequest) (elig : Eligibility) : Program Reply :=
  .act (.findConflict tx r.tenantID r.taskID elig.batchID elig.chainDigest) fun
    | none => abandon tx .database
    | some (some _) => abandon tx alreadyLinked
    | some none => insertLink tx r elig

def handleActionEvidenceLinkCreate (tx : Nat) (r : LinkRequest) : Program Reply :=
  (evaluateEvidenceLinkEligibility r).bind fun
    | .error error => .ret (.refused error)
    | .ok elig => insertEvidenceLinkExclusive tx r elig

inductive Call where
  | link (r : LinkRequest)
  | ingest (batch : Batch) (events : List EvidenceEvent)

def Call.program (tx : Nat) : Call → Program Reply
  | link r => handleActionEvidenceLinkCreate tx r
  | ingest batch events => .act (.ingest batch events) fun _ => .ret .ingested

/-- Concurrent requests; each is its own transaction. -/
def service : System Db (Nat × Call) Action Answer Reply where
  perform := perform
  spawn _ _ := []

abbrev ServiceConfig := Config Db (Nat × Call) Action Answer Reply

abbrev ServiceEvent := Event (Nat × Call) Action Answer

def start (calls : List Call) : ServiceConfig :=
  ⟨.empty, calls.zipIdx.map fun call => ⟨(call.2, call.1), call.1.program call.2⟩⟩

/-! ## What holds of every run -/

variable {link : Link} {c : ServiceConfig}

section Invariant

variable {ok : Prop} {db db' : Db} {tx : Nat} {call : Call} {r : LinkRequest}

/-- Evidence is only added. -/
structure Grows (db db' : Db) : Prop where
  batches : ∀ batch ∈ db.batches, batch ∈ db'.batches
  events : ∀ event ∈ db.events, event ∈ db'.events

/-- The evidence of a batch proves the run of a request. -/
def Proven (db : Db) (r : LinkRequest) (batch : Batch) : Prop :=
  ∃ contractHash actionName inputHash, r.boundContractHash = some contractHash ∧
    r.toolContext = some (actionName, inputHash) ∧ batch ∈ db.batches ∧ batch.id = r.batchID ∧
    batch.proves db.events r.tenantID contractHash actionName inputHash = true

variable {batch : Batch} {elig : Eligibility}

theorem Proven.id (h : Proven db r batch) : batch.id = r.batchID := by
  obtain ⟨_, _, _, -, -, -, hid, -⟩ := h
  exact hid

theorem Proven.tenantID (h : Proven db r batch) : batch.tenantID = r.tenantID := by
  obtain ⟨_, _, _, -, -, -, -, hproves⟩ := h
  simp only [Batch.proves, Bool.and_eq_true, decide_eq_true_eq] at hproves
  exact hproves.1.1.1

theorem Proven.mono (h : Proven db r batch) (hgrows : Grows db db') : Proven db' r batch := by
  obtain ⟨contractHash, actionName, inputHash, hbound, hcontext, hmem, hid, hproves⟩ := h
  refine ⟨contractHash, actionName, inputHash, hbound, hcontext, hgrows.batches _ hmem, hid, ?_⟩
  simp only [Batch.proves, Bool.and_eq_true, List.any_eq_true] at hproves ⊢
  obtain ⟨hbatch, event, hevent, hmatch⟩ := hproves
  exact ⟨hbatch, event, hgrows.events _ hevent, hmatch⟩

/-- The link of a stored row belongs to a batch with its digest. -/
def Backed (db : Db) (link : Link) : Prop :=
  ∃ batch ∈ db.batches, batch.id = link.batchID ∧ batch.tenantID = link.tenantID ∧
    batch.chainHead = some link.chainDigest

theorem Backed.mono (h : Backed db link) (hgrows : Grows db db') :
    Backed db' link := by
  obtain ⟨batch, hmem, hbatch⟩ := h
  exact ⟨batch, hgrows.batches _ hmem, hbatch⟩

/-- The link names the run and the batch of a request. -/
def Names (db : Db) (r : LinkRequest) (link : Link) : Prop :=
  link.taskID = r.taskID ∧ link.tenantID = r.tenantID ∧ link.batchID = r.batchID ∧ Backed db link

/-- The conditions for a link of a request. -/
def Eligible (db : Db) (r : LinkRequest) (link : Link) : Prop :=
  link.tenantID = r.tenantID ∧ link.taskID = r.taskID ∧ link.batchID = r.batchID ∧
    ∃ batch, Proven db r batch ∧ batch.chainHead = some link.chainDigest ∧
      batch.taken (db.links.committed.map Prod.snd) r.taskID = false

/-- A request that was found eligible. -/
def Found (elig : Eligibility) (db : Db) (r : LinkRequest) : Prop :=
  elig.batchID = r.batchID ∧ ∃ batch, Proven db r batch ∧ batch.chainHead = some elig.chainDigest

/-- What a reply says, provided that replays are of the requested batch. -/
def ReplyFits (ok : Prop) (db : Db) (call : Call) : Reply → Prop
  | .linked link => ok → ∃ r, call = .link r ∧ Names db r link
  | _ => True

/-- A replayed request finds the link of its own batch as the newest of the run. -/
def Replays (_ : List ServiceEvent) (c : ServiceConfig) (e : ServiceEvent) : Prop :=
  ∀ r, e.origin.2 = .link r → e.action = .loadLink e.tid r.tenantID r.taskID →
    ∀ link ∈ c.state.newest e.tid r.tenantID r.taskID, link.batchID = r.batchID

structure Sound (db : Db) : Prop where
  distinct : db.links.Distinct Link.Clash
  backed : ∀ entry ∈ db.links.committed ++ db.links.pending, Backed db entry.2
  ids : (db.batches.map Batch.id).Nodup

/-- Evidence grows, and what is inserted is eligible. -/
structure Changes (db : Db) (e : ServiceEvent) (db' : Db) : Prop where
  grows : Grows db db'
  eligible : ∀ tx r tenantID taskID batchID digest link,
    e = ⟨tx, (tx, .link r), .insert tx tenantID taskID batchID digest, .row link⟩ →
      Eligible db r link

def discipline (ok : Prop) : Discipline Db (Nat × Call) Action Answer Reply where
  assume db e := ok → Replays [] ⟨db, []⟩ e
  invariant := Sound
  change := Changes
  post _ label reply _ db := ReplyFits ok db label.2 reply

abbrev Safe (ok : Prop) (tx : Nat) (call : Call) (p : Program Reply) (X : Db → Prop) : Prop :=
  Outline service (discipline ok) tx (tx, call) p fun _ => X

/-- A property that evidence cannot end. -/
def Lasts (X : Db → Prop) : Prop :=
  ∀ db db', X db → Grows db db' → X db'

theorem Lasts.stable {X : Db → Prop} (h : Lasts X) :
    (discipline ok).Stable tx fun _ => X :=
  fun _ _ _ _ _ hX hchange => h _ _ hX hchange.grows

theorem lasts_replyFits {reply : Reply} : Lasts fun db => ReplyFits ok db call reply := by
  intro db db' h hgrows
  cases reply with
  | linked link =>
      intro hok
      obtain ⟨r, hcall, htask, htenant, hid, hbacked⟩ := h hok
      exact ⟨r, hcall, htask, htenant, hid, hbacked.mono hgrows⟩
  | _ => trivial

theorem lasts_found : Lasts fun db => Found elig db r := by
  rintro db db' ⟨hid, batch, hproven, hdigest⟩ hgrows
  exact ⟨hid, batch, hproven.mono hgrows, hdigest⟩

theorem lasts_true : Lasts fun _ => True :=
  fun _ _ _ _ => trivial

abbrev LeadsTo (ok : Prop) (tx : Nat) (call : Call) (X : Db → Prop) :=
  Leads service (discipline ok) tx (tx, call) fun _ => X

variable {X Y : Db → Prop} {action : Action} {answer : Answer action} {rest : Program Reply}

/-- An action that inserts nothing. -/
theorem leads_of (hY : Lasts Y) (hrest : Safe ok tx call rest Y)
    (hinsert : ∀ tx tenantID taskID batchID digest,
      action ≠ .insert tx tenantID taskID batchID digest)
    (h : ∀ db db', (ok → Replays [] ⟨db, []⟩ ⟨tx, (tx, call), action, answer⟩) → Sound db → X db →
      perform action answer db = some db' → Sound db' ∧ Grows db db' ∧ Y db') :
    LeadsTo ok tx call X action answer rest := by
  refine ⟨_, hY.stable, hrest, fun _ db db' hassume hsound hX hperform => ?_⟩
  obtain ⟨hsound', hgrows, hY'⟩ := h db db' hassume hsound hX hperform
  refine ⟨hsound', ⟨hgrows, ?_⟩, hY'⟩
  rintro _ _ _ _ _ _ _ ⟨⟩
  exact absurd rfl (hinsert _ _ _ _ _)

/-! ### Single statements -/

theorem Grows.refl (db : Db) : Grows db db :=
  ⟨fun _ h => h, fun _ h => h⟩

theorem Sound.rollback (h : Sound db) (tx : Nat) : Sound (db.rollback tx) := by
  refine ⟨h.distinct.rollback tx, fun entry hmem => h.backed entry ?_, h.ids⟩
  simp only [Db.rollback, List.mem_append, Table.committed_rollback, Table.mem_pending_rollback]
    at hmem ⊢
  exact hmem.imp_right And.left

theorem Sound.commit (h : Sound db) (tx : Nat) : Sound (db.commit tx) := by
  refine ⟨h.distinct.commit Link.Clash.symm tx, fun entry hmem => h.backed entry ?_, h.ids⟩
  simp only [Db.commit, List.mem_append, Table.mem_committed_commit, Table.mem_pending_commit]
    at hmem ⊢
  tauto

theorem safe_abandon {error : LinkError} : Safe ok tx call (abandon tx error) X := by
  refine outline_act fun answer => leads_of lasts_true (fun _ _ _ => trivial) nofun ?_
  intro db db' _ hsound _ hperform
  cases hperform
  exact ⟨hsound.rollback tx, ⟨fun _ h => h, fun _ h => h⟩, trivial⟩

theorem safe_commitWith {reply : Reply} :
    Safe ok tx call (commitWith tx reply) fun db => ReplyFits ok db call reply := by
  refine outline_act fun answer => ?_
  have hgrows : ∀ db, Grows db (db.commit tx) := fun db => ⟨fun _ h => h, fun _ h => h⟩
  cases answer with
  | ok =>
      refine leads_of lasts_replyFits (fun _ _ h => h) nofun fun db db' _ hsound hX hperform => ?_
      cases hperform
      exact ⟨hsound.commit tx, hgrows db, lasts_replyFits _ _ hX (hgrows db)⟩
  | failed applied =>
      refine leads_of lasts_true (fun _ _ _ => trivial) nofun fun db db' _ hsound _ hperform => ?_
      cases hperform
      cases applied with
      | true => exact ⟨hsound.commit tx, hgrows db, trivial⟩
      | false => exact ⟨hsound.rollback tx, ⟨fun _ h => h, fun _ h => h⟩, trivial⟩

/-- A statement that failed, or after which the request gives up. -/
theorem leads_abandon {error : LinkError}
    (hinsert : ∀ tx tenantID taskID batchID digest,
      action ≠ .insert tx tenantID taskID batchID digest)
    (h : ∀ db db', perform action answer db = some db' → db' = db ∨ db' = db.rollback tx) :
    LeadsTo ok tx call X action answer (abandon tx error) := by
  refine leads_of lasts_true safe_abandon hinsert fun db db' _ hsound _ hperform => ?_
  rcases h db db' hperform with rfl | rfl
  · exact ⟨hsound, .refl _, trivial⟩
  · exact ⟨hsound.rollback tx, ⟨fun _ h => h, fun _ h => h⟩, trivial⟩

theorem safe_replayLink :
    Safe ok tx (.link r) (replayLink tx r.tenantID r.taskID) fun _ => True := by
  refine outline_act fun answer => ?_
  match answer with
  | none => exact leads_abandon nofun fun db db' h => .inr (Option.some.inj h).symm
  | some none => exact leads_abandon nofun fun db db' h => .inl (of_guard h).2
  | some (some link) =>
      refine leads_of lasts_replyFits safe_commitWith nofun fun db db' hassume hsound _ h => ?_
      obtain ⟨hnewest, rfl⟩ := of_guard h
      have hmem := List.mem_filter.mp (List.mem_filter.mp hnewest).1
      have hrun : link.tenantID = r.tenantID ∧ link.taskID = r.taskID := by
        simpa [Link.ofRun] using hmem.2
      have hbacked : Backed db' link := by
        rcases Table.mem_visible.mp hmem.1 with ⟨owner, hrow⟩ | hrow
        · exact hsound.backed _ (List.mem_append_left _ hrow)
        · exact hsound.backed _ (List.mem_append_right _ hrow)
      exact ⟨hsound, .refl _,
        fun hok => ⟨r, rfl, hrun.2, hrun.1, hassume hok r rfl rfl link hnewest, hbacked⟩⟩

/-- An inserted link is eligible, and names what was requested. -/
theorem eligible_of_insert (hfound : Found elig db r)
    (hlink : link = ⟨link.id, r.taskID, r.tenantID, elig.chainDigest, elig.batchID, link.createdAt⟩)
    (hconflicts : ¬ db.links.Conflicts Link.Clash tx link) :
    Eligible db r link ∧ Names db r link := by
  obtain ⟨hid, batch, hproven, hdigest⟩ := hfound
  have htenant : link.tenantID = r.tenantID := by rw [hlink]
  have htask : link.taskID = r.taskID := by rw [hlink]
  have hbatch : link.batchID = elig.batchID := by rw [hlink]
  have hchain : link.chainDigest = elig.chainDigest := by rw [hlink]
  refine ⟨⟨htenant, htask, hbatch.trans hid, batch, hproven, by rw [hchain, hdigest], ?_⟩,
    htask, htenant, hbatch.trans hid, ?_⟩
  · by_contra htaken
    rw [Bool.not_eq_false, Batch.taken, List.any_eq_true] at htaken
    obtain ⟨other, hother, hcond⟩ := htaken
    simp only [Bool.and_eq_true, Bool.or_eq_true, decide_eq_true_eq, List.mem_map] at hother hcond
    obtain ⟨⟨owner, _⟩, hmem, rfl⟩ := hother
    refine hconflicts ⟨_, Table.mem_visible.mpr (.inl ⟨owner, hmem⟩), ?_, ?_⟩
    · rw [hcond.1.1, hproven.tenantID, htenant]
    · refine hcond.1.2.imp (fun heq => ?_) fun heq => ?_
      · rw [heq, hproven.id, hbatch, hid]
      · rw [hdigest, Option.some.injEq] at heq
        rw [heq, hchain]
  · obtain ⟨_, _, _, -, -, hmem, -, -⟩ := id hproven
    exact ⟨batch, hmem, by rw [hproven.id, hbatch, hid], by rw [hproven.tenantID, htenant],
      by rw [hdigest, hchain]⟩

theorem safe_insertLink :
    Safe ok tx (.link r) (insertLink tx r elig) fun db => Found elig db r := by
  have hother : ∀ (answer : Inserted) rest Y, Lasts Y → Safe ok tx (.link r) rest Y →
      (∀ link, answer ≠ .row link) →
      (∀ db db', Sound db → perform (.insert tx r.tenantID r.taskID elig.batchID elig.chainDigest)
        answer db = some db' → Sound db' ∧ Grows db db' ∧ Y db') →
      LeadsTo ok tx (.link r) (fun db => Found elig db r)
        (.insert tx r.tenantID r.taskID elig.batchID elig.chainDigest) answer rest := by
    intro answer rest Y hY hrest hrow h
    refine ⟨_, hY.stable, hrest, fun _ db db' _ hsound _ hperform => ?_⟩
    obtain ⟨hsound', hgrows, hY'⟩ := h db db' hsound hperform
    refine ⟨hsound', ⟨hgrows, ?_⟩, hY'⟩
    rintro _ _ _ _ _ _ link ⟨⟩
    exact absurd rfl (hrow link)
  have hgrows : ∀ db, Grows db (db.rollback tx) := fun db => ⟨fun _ h => h, fun _ h => h⟩
  refine outline_act fun answer => ?_
  cases answer with
  | row link =>
      refine ⟨_, lasts_replyFits.stable, safe_commitWith, fun _ db db' _ hsound hfound h => ?_⟩
      obtain ⟨⟨hlink, hconflicts, hwaits⟩, rfl⟩ := of_guard h
      obtain ⟨heligible, hnames⟩ := eligible_of_insert hfound hlink hconflicts
      refine ⟨⟨hsound.distinct.insert hwaits hconflicts, fun entry hmem => ?_, hsound.ids⟩,
        ⟨⟨fun _ h => h, fun _ h => h⟩, ?_⟩, fun _ => ⟨r, rfl, hnames⟩⟩
      · simp only [List.mem_append, Table.committed_insert, Table.mem_pending_insert] at hmem
        rcases hmem with hmem | hmem | rfl
        · exact hsound.backed entry (List.mem_append_left _ hmem)
        · exact hsound.backed entry (List.mem_append_right _ hmem)
        · exact hnames.2.2.2
      · rintro _ _ _ _ _ _ _ ⟨⟩
        exact heligible
  | noRows =>
      refine hother _ _ _ lasts_true safe_replayLink (by simp) fun db db' hsound h => ?_
      obtain ⟨-, rfl⟩ := of_guard h
      exact ⟨hsound, .refl _, trivial⟩
  | uniqueViolation =>
      refine hother _ _ _ lasts_true safe_abandon (by simp) fun db db' hsound h => ?_
      obtain ⟨-, rfl⟩ := of_guard h
      exact ⟨hsound.rollback tx, hgrows db, trivial⟩
  | failed =>
      refine hother _ _ _ lasts_true safe_abandon (by simp) fun db db' hsound h => ?_
      cases h
      exact ⟨hsound.rollback tx, hgrows db, trivial⟩

theorem safe_insertEvidenceLinkExclusive :
    Safe ok tx (.link r) (insertEvidenceLinkExclusive tx r elig) fun db => Found elig db r := by
  refine outline_act fun answer => ?_
  match answer with
  | none => exact leads_abandon nofun fun db db' h => .inr (Option.some.inj h).symm
  | some (some run) => exact leads_abandon nofun fun db db' h => .inl (of_guard h).2
  | some none =>
      refine leads_of lasts_found safe_insertLink nofun fun db db' _ hsound hfound h => ?_
      obtain ⟨-, rfl⟩ := of_guard h
      exact ⟨hsound, .refl _, hfound⟩

theorem proven_of_eligible {contractHash actionName inputHash digest : String} {batchID : Nat}
    (hbound : r.boundContractHash = some contractHash)
    (hcontext : r.toolContext = some (actionName, inputHash))
    (h : db.eligible r.tenantID r.taskID contractHash actionName inputHash r.batchID =
      some (batchID, digest)) :
    Found ⟨digest, batchID, inputHash, actionName⟩ db r := by
  rw [Db.eligible, Option.bind_eq_some_iff] at h
  obtain ⟨batch, hfind, hmap⟩ := h
  obtain ⟨digest', hhead, heq⟩ := Option.map_eq_some_iff.mp hmap
  cases heq
  have hmem := List.mem_of_find?_eq_some hfind
  have hcond := List.find?_some hfind
  simp only [Bool.and_eq_true, decide_eq_true_eq] at hcond
  exact ⟨hcond.1.1, batch, ⟨contractHash, actionName, inputHash, hbound, hcontext, hmem,
    hcond.1.1, hcond.1.2⟩, hhead⟩

theorem safe_create :
    Safe ok tx (.link r) (handleActionEvidenceLinkCreate tx r) fun _ => True := by
  have hrefused : ∀ {error : LinkError} {X : Db → Prop},
      Safe ok tx (.link r) (.ret (.refused error)) X := fun _ _ _ => trivial
  unfold handleActionEvidenceLinkCreate evaluateEvidenceLinkEligibility
  split
  · exact hrefused
  · rename_i contractHash hbound
    split
    · exact hrefused
    · rename_i actionName inputHash hcontext
      split
      · exact hrefused
      · split
        · exact hrefused
        · refine outline_act fun answer => ?_
          match answer with
          | none =>
              refine leads_of lasts_true hrefused nofun fun db db' _ hsound _ h => ?_
              cases h
              exact ⟨hsound, .refl _, trivial⟩
          | some none =>
              refine leads_of lasts_true hrefused nofun fun db db' _ hsound _ h => ?_
              obtain ⟨-, rfl⟩ := of_guard h
              exact ⟨hsound, .refl _, trivial⟩
          | some (some (batchID, digest)) =>
              have hfound : Safe ok tx (.link r)
                  ((if Evidence.isHash digest = false then
                      .ret (.error (.notLinkable "invalid_chain_digest"))
                    else .ret (.ok ⟨digest, batchID, inputHash, actionName⟩) :
                    Program (Except LinkError Eligibility)).bind fun
                      | .error error => .ret (.refused error)
                      | .ok elig => insertEvidenceLinkExclusive tx r elig)
                  (Found ⟨digest, batchID, inputHash, actionName⟩ · r) := by
                split
                · exact hrefused
                · exact safe_insertEvidenceLinkExclusive
              refine leads_of lasts_found hfound nofun fun db db' _ hsound _ h => ?_
              obtain ⟨hfind, rfl⟩ := of_guard h
              exact ⟨hsound, .refl _, proven_of_eligible hbound hcontext hfind.symm⟩

theorem safe_ingest {events : List EvidenceEvent} :
    Safe ok tx (.ingest batch events) ((Call.ingest batch events).program tx) fun _ => True := by
  refine outline_act fun answer => leads_of lasts_true (fun _ _ _ => trivial) nofun ?_
  intro db db' _ hsound _ hperform
  simp only [perform] at hperform
  split at hperform <;> rename_i hfresh
  · cases hperform
  · cases hperform
    have hgrows : Grows db
        { db with batches := db.batches ++ [batch], events := db.events ++ events } :=
      ⟨fun _ h => List.mem_append_left _ h, fun _ h => List.mem_append_left _ h⟩
    refine ⟨⟨hsound.distinct, fun entry hmem => (hsound.backed entry hmem).mono hgrows, ?_⟩,
      hgrows, trivial⟩
    simp only [List.map_append, List.map_cons, List.map_nil]
    refine List.nodup_append.mpr ⟨hsound.ids, List.nodup_singleton _, ?_⟩
    rintro a ha b hb rfl
    obtain ⟨other, hother, hid⟩ := List.mem_map.mp ha
    rw [List.mem_singleton.mp hb] at hid
    exact hfresh (List.any_eq_true.mpr ⟨other, hother, by simp [hid]⟩)

/-- Every call follows its outline in every run. -/
theorem outlined_of_run (ok : Prop) {calls : List Call} {τ : List ServiceEvent}
    (hrun : Run service (start calls) τ c)
    (hreplays : EveryStep service (start calls) τ fun pre c₁ e => ok → Replays pre c₁ e) :
    Outlined service (discipline ok) τ c := by
  refine hrun.outlined (fun _ _ => rfl) (outlined_start (A := fun _ _ _ => True) ?_ ?_ ?_ ?_)
    hreplays
  · exact ⟨Table.distinct_empty, by simp [Db.empty, Table.empty], List.nodup_nil⟩
  · exact fun _ => lasts_true.stable
  · intro tx call
    cases call with
    | link r => exact safe_create
    | ingest batch events => exact safe_ingest
  · exact fun _ _ => trivial

end Invariant

/-! ## Main result -/

/-- However requests and ingestions interleave and whatever statements fail: in a tenant each
batch and each chain digest has at most one link, and every link is eligible when it is made.  If
replays find the link of their own batch as the newest of the run, every successful reply names
the requested run and batch, and the batch's digest. -/
theorem links_of_run (calls : List Call) {τ : List ServiceEvent} {c : ServiceConfig}
    (hrun : Run service (start calls) τ c) :
    (∀ a ∈ c.state.links.committed, ∀ b ∈ c.state.links.committed, a.2.tenantID = b.2.tenantID →
      (a.2.batchID = b.2.batchID ∨ a.2.chainDigest = b.2.chainDigest) → a = b) ∧
    (∀ pre tid r tenantID taskID batchID digest link post c₁,
      τ = pre ++ ⟨tid, (tid, .link r), .insert tid tenantID taskID batchID digest, .row link⟩ :: post →
      Run service (start calls) pre c₁ → Eligible c₁.state r link) ∧
    (EveryStep service (start calls) τ Replays → ∀ (tid : Nat) r link,
      c.pool[tid]? = some ⟨(tid, .link r), .ret (.linked link)⟩ →
      link.tenantID = r.tenantID ∧ link.taskID = r.taskID ∧ link.batchID = r.batchID ∧
        ∃ batch ∈ c.state.batches, batch.id = r.batchID ∧ batch.chainHead = some link.chainDigest ∧
          ∀ other ∈ c.state.batches, other.id = r.batchID → other = batch) := by
  have houtlined := outlined_of_run False hrun fun _ _ _ _ _ _ h => h.elim
  refine ⟨?_, ?_, ?_⟩
  · intro a ha b hb htenant hsame
    exact houtlined.1.distinct.eq_of_clash Link.Clash.symm (List.mem_append_left _ ha)
      (List.mem_append_left _ hb) ⟨htenant, hsame⟩
  · intro pre tid r tenantID taskID batchID digest link post c₁ hsplit hpre
    subst hsplit
    obtain ⟨d₁, d₂, hpre', hstep, -⟩ := hrun.split
    obtain rfl := hpre.unique hpre'
    have hchanges := ((outlined_of_run False hpre fun _ _ _ _ _ _ h => h.elim).step
      (fun _ _ => rfl) hstep False.elim).2
    exact hchanges.eligible _ _ _ _ _ _ _ rfl
  · intro hreplays tid r link hthread
    have houtlined := outlined_of_run True hrun fun pre e post c₁ hsplit hpre _ =>
      hreplays pre e post c₁ hsplit hpre
    obtain ⟨_, ⟨⟩, htask, htenant, hbatchID, batch, hmem, hid, -, hdigest⟩ :=
      houtlined.ret hthread trivial
    refine ⟨htenant, htask, hbatchID, batch, hmem, hid.trans hbatchID, hdigest, ?_⟩
    intro other hother hotherID
    exact List.inj_on_of_nodup_map houtlined.1.ids hother hmem (by rw [hotherID, hid, hbatchID])

/-! ## A run with two links -/

def contractHash : String :=
  "0000000000000000000000000000000000000000000000000000000000000000"

def firstDigest : String :=
  "aaaaaaaaaaaaaaaaaaaaaaaaaaaaaaaaaaaaaaaaaaaaaaaaaaaaaaaaaaaaaaaa"

def secondDigest : String :=
  "bbbbbbbbbbbbbbbbbbbbbbbbbbbbbbbbbbbbbbbbbbbbbbbbbbbbbbbbbbbbbbbb"

/-- The ingestion of a batch with one decision. -/
def ingestion (batchID : Nat) (digest : String) : Call :=
  .ingest ⟨batchID, "acme", .verified, some digest⟩
    [⟨batchID, "acme", contractHash, "send", .decision, some contractHash⟩]

def linkTo (batchID : Nat) : LinkRequest :=
  ⟨"acme", 7, some contractHash, some ("send", contractHash), batchID⟩

/-- No statement fails; new links get the given time. -/
def smoothly (now : Nat) : (a : Action) → Db → Option (Answer a)
  | .eligible tenantID taskID contractHash actionName inputHash batchID, db =>
      some (some (db.eligible tenantID taskID contractHash actionName inputHash batchID))
  | .findConflict tx tenantID taskID batchID digest, db =>
      some (some (db.otherRuns tx tenantID taskID batchID digest).head?)
  | .insert tx tenantID taskID batchID digest, db =>
      if (db.linksOf tx tenantID taskID).any fun link => link.chainDigest = digest
      then some .noRows else some (.row ⟨now, taskID, tenantID, digest, batchID, now⟩)
  | .loadLink tx tenantID taskID, db => some (some (db.newest tx tenantID taskID).head?)
  | .commit _, _ => some .ok
  | .rollback _, _ => some ()
  | .ingest _ _, _ => some ()

/-- A decidable form of the condition on a step. -/
def replays (_ : List ServiceEvent) (c : ServiceConfig) (e : ServiceEvent) : Bool :=
  match e.origin.2, e.action with
  | .link r, .loadLink _ _ _ =>
      (c.state.newest e.tid r.tenantID r.taskID).all fun link => link.batchID = r.batchID
  | _, _ => true

theorem replays_sound {pre : List ServiceEvent} {e : ServiceEvent} (h : replays pre c e = true) :
    Replays pre c e := by
  intro r horigin haction link hmem
  simp only [replays, horigin, haction, List.all_eq_true, decide_eq_true_eq] at h
  exact h link hmem

/-- The thread that has returned a link, read off a configuration. -/
def linkedBatch (c : ServiceConfig) (tid : Nat) : Option (Nat × LinkRequest × Link) :=
  match c.pool[tid]? with
  | some ⟨(tx, .link r), .ret (.linked link)⟩ => some (tx, r, link)
  | _ => none

theorem getElem?_of_linkedBatch {tid tx : Nat} {r : LinkRequest}
    (h : linkedBatch c tid = some (tx, r, link)) :
    c.pool[tid]? = some ⟨(tx, .link r), .ret (.linked link)⟩ := by
  unfold linkedBatch at h
  split at h
  · rename_i heq
    cases h
    exact heq
  · cases h

/-- A request that is sent twice gets its link twice. -/
theorem link_replayed :
    ∃ τ c, Run service (start [ingestion 1 firstDigest, .link (linkTo 1), .link (linkTo 1)]) τ c ∧
      EveryStep service (start [ingestion 1 firstDigest, .link (linkTo 1), .link (linkTo 1)]) τ
        Replays ∧
      ∃ link, c.pool[2]? = some ⟨(2, .link (linkTo 1)), .ret (.linked link)⟩ ∧
        link.batchID = 1 := by
  have hplay : (play service replays []
      (start [ingestion 1 firstDigest, .link (linkTo 1), .link (linkTo 1)])
      ((0, smoothly 1) :: List.replicate 4 (1, smoothly 2) ++ List.replicate 5 (2, smoothly 3))).any
      (fun out => (linkedBatch out.2 2).any fun found => found.1 = 2 && found.2.1 = linkTo 1) =
      true := by
    decide +kernel
  obtain ⟨τ, c, hrun, hcheck, hevery⟩ := exists_run_of_play hplay
  rw [Option.any_eq_true] at hcheck
  obtain ⟨⟨tx, r, link⟩, hlinked, hcond⟩ := hcheck
  obtain ⟨rfl, rfl⟩ : tx = 2 ∧ r = linkTo 1 := by simpa using hcond
  have hreplays : EveryStep service
      (start [ingestion 1 firstDigest, .link (linkTo 1), .link (linkTo 1)]) τ Replays :=
    fun pre e post c₁ hsplit hpre => replays_sound (hevery pre e post c₁ hsplit hpre)
  have hthread := getElem?_of_linkedBatch hlinked
  exact ⟨τ, c, hrun, hreplays, link, hthread,
    ((links_of_run _ hrun).2.2 hreplays 2 (linkTo 1) link hthread).2.2.1⟩

/-- The second request for the first batch is answered with the second batch. -/
theorem replay_names_other_batch :
    ∃ τ c link, Run service (start [ingestion 1 firstDigest, ingestion 2 secondDigest,
        .link (linkTo 1), .link (linkTo 2), .link (linkTo 1)]) τ c ∧
      c.pool[4]? = some ⟨(4, .link (linkTo 1)), .ret (.linked link)⟩ ∧
      link.batchID = 2 ∧ link.chainDigest = secondDigest := by
  have hplay : (play service (fun _ _ _ => true) [] (start [ingestion 1 firstDigest,
        ingestion 2 secondDigest, .link (linkTo 1), .link (linkTo 2), .link (linkTo 1)])
      ((0, smoothly 1) :: (1, smoothly 1) :: List.replicate 4 (2, smoothly 2) ++
        List.replicate 4 (3, smoothly 3) ++ List.replicate 5 (4, smoothly 4))).any
      (fun out => (linkedBatch out.2 4).any fun found => found.1 = 4 && found.2.1 = linkTo 1 &&
        found.2.2.batchID = 2 && found.2.2.chainDigest = secondDigest) = true := by
    decide +kernel
  obtain ⟨τ, c, hrun, hcheck, -⟩ := exists_run_of_play hplay
  rw [Option.any_eq_true] at hcheck
  obtain ⟨⟨tx, r, link⟩, hlinked, hcond⟩ := hcheck
  simp only [Bool.and_eq_true, decide_eq_true_eq] at hcond
  obtain ⟨⟨⟨rfl, rfl⟩, hbatch⟩, hdigest⟩ := hcond
  exact ⟨τ, c, link, hrun, getElem?_of_linkedBatch hlinked, hbatch, hdigest⟩

end EvidenceLinks
end Igris
