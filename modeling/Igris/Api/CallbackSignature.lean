import Igris.Coordinator.Callback
import Igris.Lib.Record
import Igris.Lib.Signature

/-!
# Signed callbacks and their nonces

A runtime signs each callback.  The coordinator accepts a callback whose timestamp is near
its own clock, and stores the nonce so that the same callback is refused later.  A cleanup
deletes nonces after a retention time.

Main results:

- Theorem {lit}`replay_of_retention_lt`: a retention below twice the freshness window lets
  a callback in twice, even if there is only one clock.
- Theorem {lit}`not_acceptedTwice`: with a longer retention no callback is accepted twice.
-/

namespace Igris
namespace Api

open Coordinator Json

/-! ## The envelope -/

structure RuntimeCallbackEnvelope where
  version : String
  tenantID : String
  taskID : String
  runtimeID : String
  callbackType : String
  bodyDigest : String
  timestampUnixMs : Int
  nonce : String
  algorithm : String
  signature : String
deriving DecidableEq, Repr

/-- What the signature is made for. -/
def RuntimeCallbackEnvelope.unsigned (envelope : RuntimeCallbackEnvelope) :
    RuntimeCallbackEnvelope :=
  { envelope with signature := "" }

@[simp]
theorem RuntimeCallbackEnvelope.timestampUnixMs_unsigned (envelope : RuntimeCallbackEnvelope) :
    envelope.unsigned.timestampUnixMs = envelope.timestampUnixMs :=
  rfl

def runtimeCallbackVersion : String := "runtime_callback.v1"

def runtimeCallbackAlgorithm : String := "ed25519-sha256-canonical-json"

/-- Five minutes, in nanoseconds. -/
def runtimeCallbackFreshness : Int := 5 * 60 * 1000000000

/-- A day, in nanoseconds. -/
def runtimeCallbackNonceRetention : Int := 24 * 60 * 60 * 1000000000

inductive CallbackType where
  | checkpoint
  | complete
  | failed
deriving DecidableEq, Repr

def CallbackType.text : CallbackType → String
  | .checkpoint => "checkpoint"
  | .complete => "complete"
  | .failed => "failed"

def canonicalRuntimeCallbackEnvelope (envelope : RuntimeCallbackEnvelope) : String :=
  goText (objectOf [
    ("algorithm", some (.string envelope.algorithm)),
    ("body_digest", some (.string envelope.bodyDigest)),
    ("callback_type", some (.string envelope.callbackType)),
    ("nonce", some (.string envelope.nonce)),
    ("runtime_id", some (.string envelope.runtimeID)),
    ("task_id", some (.string envelope.taskID)),
    ("tenant_id", some (.string envelope.tenantID)),
    ("timestamp_unix_ms", some (.number envelope.timestampUnixMs.repr)),
    ("version", some (.string envelope.version))])

/-! ## Validation -/

/-- Go on if a condition holds, otherwise stop with a reason. -/
def require (ok : Bool) (reason : String) : Except String Unit :=
  if ok then .ok () else .error reason

@[simp]
theorem require_eq_ok_iff (ok : Bool) (reason : String) :
    require ok reason = .ok () ↔ ok = true := by
  cases ok <;> simp [require]

@[simp]
theorem bind_eq_ok_iff {first rest : Except String Unit} :
    (first >>= fun _ => rest) = .ok () ↔ first = .ok () ∧ rest = .ok () := by
  cases first <;> simp [bind, Except.bind]

@[simp]
theorem require_eq_error_iff (ok : Bool) (reason reason' : String) :
    require ok reason = .error reason' ↔ ok = false ∧ reason = reason' := by
  cases ok <;> simp [require]

theorem bind_eq_error_iff {first rest : Except String Unit} {reason : String} :
    (first >>= fun _ => rest) = .error reason ↔
      first = .error reason ∨ first = .ok () ∧ rest = .error reason := by
  cases first <;> simp [bind, Except.bind]

/-- The times are in nanoseconds. -/
def validateRuntimeCallbackTimestamp (timestampUnixMs now : Int) : Except String Unit := do
  require (decide (timestampUnixMs ≠ 0)) "runtime callback timestamp missing"
  let ts := timestampUnixMs * 1000000
  require (decide (¬ (ts < now - runtimeCallbackFreshness ∨ now + runtimeCallbackFreshness < ts)))
    "runtime callback timestamp outside freshness window"

/-- A key that is registered but blank counts as missing. -/
def runtimeCallbackPublicKey (registry : String → String → Option String)
    (tenantID runtimeID : String) : Option String :=
  (registry tenantID runtimeID).filter fun key => decide (Text.trimSpace key ≠ "")

/-- A callback request.  The header is absent, malformed, or an envelope. -/
structure CallbackRequest where
  header : Option (Option RuntimeCallbackEnvelope)
  allowUnsigned : Bool := false
  task : Option TaskRecord
  tenantID : String
  callbackType : CallbackType
  body : String
  /-- Public keys by tenant and runtime. -/
  registry : String → String → Option String
  /-- The clock of the coordinator when the timestamp is checked. -/
  checkedAt : Int
  /-- The clock of the database when the nonce is stored. -/
  storedAt : Int

/-- A row of the table of nonces. -/
structure CallbackNonce where
  tenantID : String
  taskID : String
  runtimeID : String
  callbackType : String
  nonce : String
  bodyDigest : String
  timestampUnixMs : Int
  acceptedAt : Int
deriving DecidableEq, Repr

/-- The columns that are unique together. -/
def CallbackNonce.key (row : CallbackNonce) : String × String × String :=
  (row.tenantID, row.runtimeID, row.nonce)

/-- The row that is inserted for an envelope. -/
def CallbackNonce.ofEnvelope (envelope : RuntimeCallbackEnvelope) (acceptedAt : Int) :
    CallbackNonce where
  tenantID := envelope.tenantID
  taskID := envelope.taskID
  runtimeID := envelope.runtimeID
  callbackType := envelope.callbackType
  nonce := envelope.nonce
  bodyDigest := envelope.bodyDigest
  timestampUnixMs := envelope.timestampUnixMs
  acceptedAt := acceptedAt

theorem CallbackNonce.key_ofEnvelope_congr {envelope again : RuntimeCallbackEnvelope}
    (h : envelope.unsigned = again.unsigned) (acceptedAt acceptedAt' : Int) :
    (ofEnvelope envelope acceptedAt).key = (ofEnvelope again acceptedAt').key := by
  simp only [RuntimeCallbackEnvelope.unsigned, RuntimeCallbackEnvelope.mk.injEq] at h
  simp [key, ofEnvelope, h]

structure RuntimeCallbackValidation where
  envelope : Option RuntimeCallbackEnvelope := none
  bodyDigest : String
  reason : String := ""
  status : Nat := 0
deriving DecidableEq, Repr

section Validation

variable (sha256 : String → List UInt8) (verify : List UInt8 → List UInt8 → List UInt8 → Bool)

def verifyRuntimeCallbackSignature (envelope : RuntimeCallbackEnvelope) (publicKeyHex : String) :
    Except String Unit :=
  match (Text.hexDecode (Text.trimSpace publicKeyHex)).filter fun key =>
      decide (key.length = 32) with
  | none => .error "runtime callback public key invalid"
  | some key =>
      match (Text.base64Decode .std true (Text.trimSpace envelope.signature)).filter fun bytes =>
          decide (bytes.length = 64) with
      | none => .error "runtime callback signature invalid"
      | some signature => do
          require (decide (Text.trimSpace envelope.signature ≠ ""))
            "runtime callback signature missing"
          require (verify key (sha256 (canonicalRuntimeCallbackEnvelope envelope)) signature)
            "runtime callback signature verification failed"

/-- All checks of an envelope but the one of the nonce. -/
def checkRuntimeCallback (request : CallbackRequest) (envelope : RuntimeCallbackEnvelope) :
    Except String Unit := do
  require (decide (envelope.version = runtimeCallbackVersion))
    "unsupported runtime callback envelope version"
  require (decide (envelope.algorithm = runtimeCallbackAlgorithm))
    "unsupported runtime callback signature algorithm"
  require (decide (envelope.tenantID = request.tenantID)) "runtime callback tenant mismatch"
  require (request.task.any fun task => decide (envelope.taskID = Uuid.string task.taskID))
    "runtime callback task mismatch"
  require (decide (envelope.callbackType = request.callbackType.text))
    "runtime callback type mismatch"
  require (decide (envelope.bodyDigest = Text.hexEncode (sha256 request.body)))
    "runtime callback body digest mismatch"
  require (decide (Text.trimSpace envelope.nonce ≠ "")) "runtime callback nonce missing"
  require (decide (Text.trimSpace envelope.runtimeID ≠ "")) "runtime callback runtime missing"
  require (request.task.all fun task => runtimeCallbackMatchesTask task [envelope.runtimeID])
    "runtime callback identity does not match assigned task runtime"
  validateRuntimeCallbackTimestamp envelope.timestampUnixMs request.checkedAt
  match runtimeCallbackPublicKey request.registry request.tenantID envelope.runtimeID with
  | none => .error "runtime callback public key unavailable"
  | some key => verifyRuntimeCallbackSignature sha256 verify envelope key

/-- Insert the nonce unless it is there. -/
def reserveRuntimeCallbackNonce (rows : List CallbackNonce) (envelope : RuntimeCallbackEnvelope)
    (storedAt : Int) : Except String (List CallbackNonce) :=
  let row := CallbackNonce.ofEnvelope envelope storedAt
  if rows.any fun other => decide (other.key = row.key) then
    .error "runtime callback replay detected"
  else .ok (rows ++ [row])

/-- The outcome of a request, and the nonces after it. -/
def validateRuntimeCallback (rows : List CallbackNonce) (request : CallbackRequest) :
    RuntimeCallbackValidation × List CallbackNonce :=
  let bodyDigest := Text.hexEncode (sha256 request.body)
  match request.header with
  | none =>
      if request.allowUnsigned then ({ bodyDigest := bodyDigest }, rows)
      else
        ({ bodyDigest := bodyDigest, reason := "missing runtime callback envelope", status := 403 },
          rows)
  | some none =>
      ({ bodyDigest := bodyDigest, reason := "malformed runtime callback envelope", status := 400 },
        rows)
  | some (some envelope) =>
      let refused (reason : String) : RuntimeCallbackValidation :=
        { envelope := some envelope, bodyDigest := bodyDigest, reason := reason, status := 403 }
      match checkRuntimeCallback sha256 verify request envelope with
      | .error reason => (refused reason, rows)
      | .ok () =>
          match reserveRuntimeCallbackNonce rows envelope request.storedAt with
          | .error reason => (refused reason, rows)
          | .ok rows => ({ envelope := some envelope, bodyDigest := bodyDigest }, rows)

end Validation

/-! ## Cleanup -/

/-- How long nonces are kept for a retention argument. -/
def effectiveRetention (retention : Int) : Int :=
  let retention := if retention ≤ 0 then runtimeCallbackNonceRetention else retention
  if retention < runtimeCallbackFreshness then runtimeCallbackFreshness else retention

def cleanupExpiredRuntimeCallbackNonces (retention now : Int) (rows : List CallbackNonce) :
    List CallbackNonce :=
  rows.filter fun row => decide (¬ row.acceptedAt < now - effectiveRetention retention)

/-! ## Runs -/

/-- What happens to the table of nonces, in the order of the database. -/
inductive NonceEvent where
  | deliver (request : CallbackRequest)
  | cleanup (retention now : Int)

section Runs

variable (sha256 : String → List UInt8) (verify : List UInt8 → List UInt8 → List UInt8 → Bool)

def NonceEvent.apply (rows : List CallbackNonce) : NonceEvent → List CallbackNonce
  | .deliver request => (validateRuntimeCallback sha256 verify rows request).2
  | .cleanup retention now => cleanupExpiredRuntimeCallbackNonces retention now rows

/-- The nonces after a run that starts without any. -/
def noncesAfter (events : List NonceEvent) : List CallbackNonce :=
  events.foldl (NonceEvent.apply sha256 verify) []

/-- A request is accepted because of its signed envelope. -/
def Accepted (rows : List CallbackNonce) (request : CallbackRequest)
    (envelope : RuntimeCallbackEnvelope) : Prop :=
  request.header = some (some envelope) ∧
    (validateRuntimeCallback sha256 verify rows request).1.reason = ""

instance (rows : List CallbackNonce) (request : CallbackRequest)
    (envelope : RuntimeCallbackEnvelope) :
    Decidable (Accepted sha256 verify rows request envelope) :=
  inferInstanceAs (Decidable (_ ∧ _))

/-- Two deliveries of one run are accepted for the same signed content. -/
def AcceptedTwice (events : List NonceEvent) : Prop :=
  ∃ before first between second after envelope again,
    events = before ++ .deliver first :: between ++ .deliver second :: after ∧
    Accepted sha256 verify (noncesAfter sha256 verify before) first envelope ∧
    Accepted sha256 verify (noncesAfter sha256 verify (before ++ .deliver first :: between))
      second again ∧
    envelope.unsigned = again.unsigned

variable {sha256 verify} {rows : List CallbackNonce} {request : CallbackRequest}
  {envelope : RuntimeCallbackEnvelope}

theorem validateRuntimeCallbackTimestamp_eq_ok_iff (timestampUnixMs now : Int) :
    validateRuntimeCallbackTimestamp timestampUnixMs now = .ok () ↔
      timestampUnixMs ≠ 0 ∧ now - runtimeCallbackFreshness ≤ timestampUnixMs * 1000000 ∧
        timestampUnixMs * 1000000 ≤ now + runtimeCallbackFreshness := by
  simp [validateRuntimeCallbackTimestamp]

/-- A check that stops gives a reason. -/
theorem verifyRuntimeCallbackSignature_ne_error_empty
    (sha256 : String → List UInt8) (verify : List UInt8 → List UInt8 → List UInt8 → Bool)
    (envelope : RuntimeCallbackEnvelope) (publicKeyHex : String) :
    verifyRuntimeCallbackSignature sha256 verify envelope publicKeyHex ≠ .error "" := by
  unfold verifyRuntimeCallbackSignature
  split
  · simp
  · split
    · simp
    · simp [bind_eq_error_iff]

theorem checkRuntimeCallback_ne_error_empty :
    checkRuntimeCallback sha256 verify request envelope ≠ .error "" := by
  cases hkey : runtimeCallbackPublicKey request.registry request.tenantID envelope.runtimeID with
  | none =>
      simp [checkRuntimeCallback, validateRuntimeCallbackTimestamp, bind_eq_error_iff, hkey]
  | some key =>
      have hverify := verifyRuntimeCallbackSignature_ne_error_empty sha256 verify envelope key
      simp [checkRuntimeCallback, validateRuntimeCallbackTimestamp, bind_eq_error_iff, hkey,
        hverify]

/-- An envelope is accepted if it passes the checks and its nonce is new. -/
theorem accepted_iff :
    Accepted sha256 verify rows request envelope ↔
      request.header = some (some envelope) ∧
        checkRuntimeCallback sha256 verify request envelope = .ok () ∧
        ∀ row ∈ rows, row.key ≠ (CallbackNonce.ofEnvelope envelope request.storedAt).key := by
  unfold Accepted validateRuntimeCallback
  refine and_congr_right ?_
  intro hheader
  rw [hheader]
  cases hcheck : checkRuntimeCallback sha256 verify request envelope with
  | error reason =>
      have hreason : reason ≠ "" := by
        rintro rfl
        exact checkRuntimeCallback_ne_error_empty hcheck
      simp [hcheck, hreason]
  | ok _ =>
      cases hany : rows.any fun other => decide
          (other.key = (CallbackNonce.ofEnvelope envelope request.storedAt).key) with
      | false | true =>
          simp only [hcheck, reserveRuntimeCallbackNonce, hany]
          simpa using hany

theorem Accepted.fresh (h : Accepted sha256 verify rows request envelope) :
    request.checkedAt - runtimeCallbackFreshness ≤ envelope.timestampUnixMs * 1000000 ∧
      envelope.timestampUnixMs * 1000000 ≤ request.checkedAt + runtimeCallbackFreshness := by
  have hcheck := (accepted_iff.mp h).2.1
  simp only [checkRuntimeCallback, bind_eq_ok_iff,
    validateRuntimeCallbackTimestamp_eq_ok_iff] at hcheck
  tauto

theorem Accepted.apply_deliver (h : Accepted sha256 verify rows request envelope) :
    (NonceEvent.deliver request).apply sha256 verify rows =
      rows ++ [CallbackNonce.ofEnvelope envelope request.storedAt] := by
  obtain ⟨hheader, hcheck, hnew⟩ := accepted_iff.mp h
  have hany : (rows.any fun other => decide
      (other.key = (CallbackNonce.ofEnvelope envelope request.storedAt).key)) = false := by
    simpa using hnew
  simp [NonceEvent.apply, validateRuntimeCallback, hheader, hcheck, reserveRuntimeCallbackNonce,
    hany]

/-- A delivery keeps all nonces. -/
theorem subset_apply_deliver (rows : List CallbackNonce) (request : CallbackRequest) :
    rows ⊆ (NonceEvent.deliver request).apply sha256 verify rows := by
  intro row hrow
  simp only [NonceEvent.apply, validateRuntimeCallback]
  split
  · split_ifs <;> exact hrow
  · exact hrow
  · split
    · exact hrow
    · simp only [reserveRuntimeCallbackNonce]
      split_ifs
      · exact hrow
      · exact List.mem_append_left _ hrow

/-- A nonce stays while no cleanup has a cutoff after it. -/
theorem mem_foldl_apply {row : CallbackNonce} {events : List NonceEvent} (hrow : row ∈ rows)
    (hkept : ∀ retention now, NonceEvent.cleanup retention now ∈ events →
      now - effectiveRetention retention ≤ row.acceptedAt) :
    row ∈ events.foldl (NonceEvent.apply sha256 verify) rows := by
  induction events generalizing rows with
  | nil => exact hrow
  | cons event events ih =>
      apply ih
      · cases event with
        | deliver request => exact subset_apply_deliver rows request hrow
        | cleanup retention now =>
            have hcutoff := hkept retention now List.mem_cons_self
            simp [NonceEvent.apply, cleanupExpiredRuntimeCallbackNonces, hrow]
            omega
      · intro retention now hmem
        exact hkept retention now (List.mem_cons_of_mem _ hmem)

/-- The same request at another time, with one clock for the check and the table. -/
def CallbackRequest.at (request : CallbackRequest) (time : Int) : CallbackRequest :=
  { request with checkedAt := time, storedAt := time }

theorem checkRuntimeCallback_at (time : Int)
    (hcheck : checkRuntimeCallback sha256 verify request envelope = .ok ())
    (hfresh : time - runtimeCallbackFreshness ≤ envelope.timestampUnixMs * 1000000 ∧
      envelope.timestampUnixMs * 1000000 ≤ time + runtimeCallbackFreshness) :
    checkRuntimeCallback sha256 verify (request.at time) envelope = .ok () := by
  simp only [checkRuntimeCallback, CallbackRequest.at, bind_eq_ok_iff,
    validateRuntimeCallbackTimestamp_eq_ok_iff] at hcheck ⊢
  obtain ⟨hversion, halgorithm, htenant, htask, htype, hdigest, hnonce, hruntime, hmatch, hstamp,
    hkey⟩ := hcheck
  exact ⟨hversion, halgorithm, htenant, htask, htype, hdigest, hnonce, hruntime, hmatch,
    ⟨hstamp.1, hfresh⟩, hkey⟩

/-- A callback that is dated as late as possible is fresh for twice the window after its
acceptance.  A cleanup may forget it before. -/
theorem replay_of_retention_lt {retention : Int}
    (hheader : request.header = some (some envelope))
    (hcheck : checkRuntimeCallback sha256 verify request envelope = .ok ())
    (hshort : effectiveRetention retention < 2 * runtimeCallbackFreshness) :
    AcceptedTwice sha256 verify [
      .deliver (request.at (envelope.timestampUnixMs * 1000000 - runtimeCallbackFreshness)),
      .cleanup retention (envelope.timestampUnixMs * 1000000 + runtimeCallbackFreshness),
      .deliver (request.at (envelope.timestampUnixMs * 1000000 + runtimeCallbackFreshness))] := by
  have hwindow : 0 ≤ runtimeCallbackFreshness := by decide
  have hearly := checkRuntimeCallback_at
    (envelope.timestampUnixMs * 1000000 - runtimeCallbackFreshness) hcheck (by omega)
  have hlate := checkRuntimeCallback_at
    (envelope.timestampUnixMs * 1000000 + runtimeCallbackFreshness) hcheck (by omega)
  have hfirst : Accepted sha256 verify [] (request.at _) envelope :=
    accepted_iff.mpr ⟨hheader, hearly, by simp⟩
  refine ⟨[], _, [_], _, [], envelope, envelope, rfl, hfirst, ?_, rfl⟩
  refine accepted_iff.mpr ⟨hheader, hlate, ?_⟩
  -- the only nonce is older than the cutoff
  have hgone : (CallbackNonce.ofEnvelope envelope (envelope.timestampUnixMs * 1000000 -
      runtimeCallbackFreshness)).acceptedAt < envelope.timestampUnixMs * 1000000 +
        runtimeCallbackFreshness - effectiveRetention retention := by
    simp only [CallbackNonce.ofEnvelope]
    omega
  have hempty : noncesAfter sha256 verify [
      .deliver (request.at (envelope.timestampUnixMs * 1000000 - runtimeCallbackFreshness)),
      .cleanup retention (envelope.timestampUnixMs * 1000000 + runtimeCallbackFreshness)] = [] := by
    rw [noncesAfter, List.foldl_cons, hfirst.apply_deliver]
    simp only [List.foldl_cons, List.foldl_nil, NonceEvent.apply,
      cleanupExpiredRuntimeCallbackNonces, List.nil_append, CallbackRequest.at]
    rw [List.filter_singleton, decide_not, decide_eq_true hgone]
    simp
  simp [hempty]

/-- The clocks of a run: how far a stored time is behind the time of its check, how far a
cleanup is ahead of a later check, and a retention that makes up for both. -/
structure WellTimed (skew lag : Int) (events : List NonceEvent) : Prop where
  stored : ∀ request, .deliver request ∈ events → request.checkedAt - skew ≤ request.storedAt
  checked : events.Pairwise fun earlier later => ∀ retention now request,
    earlier = .cleanup retention now → later = .deliver request → now ≤ request.checkedAt + lag
  retained : ∀ retention now, .cleanup retention now ∈ events →
    2 * runtimeCallbackFreshness + skew + lag ≤ effectiveRetention retention

theorem not_acceptedTwice (skew lag : Int) {events : List NonceEvent}
    (htimed : WellTimed skew lag events) : ¬ AcceptedTwice sha256 verify events := by
  rintro ⟨before, first, between, second, after, envelope, again, rfl, hfirst, hsecond, hsame⟩
  have hstamp : envelope.timestampUnixMs = again.timestampUnixMs := by
    simpa using congrArg RuntimeCallbackEnvelope.timestampUnixMs hsame
  have hkey : (CallbackNonce.ofEnvelope envelope first.storedAt).key =
      (CallbackNonce.ofEnvelope again second.storedAt).key :=
    CallbackNonce.key_ofEnvelope_congr hsame _ _
  have hstored := htimed.stored first (by simp)
  have hfresh := hfirst.fresh
  have hfresh' := hsecond.fresh
  -- the first nonce is still there when the second delivery comes
  have hkept : CallbackNonce.ofEnvelope envelope first.storedAt ∈
      noncesAfter sha256 verify (before ++ .deliver first :: between) := by
    rw [noncesAfter, List.foldl_append, List.foldl_cons, ← noncesAfter, hfirst.apply_deliver]
    refine mem_foldl_apply (List.mem_append_right _ (List.mem_singleton_self _)) ?_
    intro retention now hmem
    have hretained := htimed.retained retention now (by simp [hmem])
    have hchecked : now ≤ second.checkedAt + lag := by
      have hpairs := htimed.checked
      rw [List.append_assoc, List.pairwise_append, List.cons_append, List.pairwise_cons,
        List.pairwise_append] at hpairs
      exact hpairs.2.1.2.2.2 _ hmem _ (by simp) retention now second rfl rfl
    simp only [CallbackNonce.ofEnvelope]
    omega
  exact (accepted_iff.mp hsecond).2.2 _ hkept hkey

end Runs

/-! A signature that is all sevens stands for a valid one. -/

def sampleVerify (_key _digest signature : List UInt8) : Bool :=
  decide (signature = List.replicate 64 7)

def sampleDigest (text : String) : List UInt8 := text.toByteArray.data.toList

def sampleEnvelope : RuntimeCallbackEnvelope where
  version := "runtime_callback.v1"
  tenantID := "acme"
  taskID := Uuid.string 1
  runtimeID := "runtime-1"
  callbackType := "complete"
  bodyDigest := "7b7d"
  timestampUnixMs := 1000000
  nonce := "n1"
  algorithm := "ed25519-sha256-canonical-json"
  signature := Text.base64Encode (List.replicate 64 7)

/-- The request arrives when the clock shows the time that is signed. -/
def sampleRequest : CallbackRequest where
  header := some (some sampleEnvelope)
  task := some {
    taskID := 1, tenantID := "acme", status := .dispatched, idempotencyKey := "k"
    taskDefinition := { text := "\x7b\x7d", taskType := .singleInference } }
  tenantID := "acme"
  callbackType := .complete
  body := "\x7b\x7d"
  registry := fun _ _ => some (Text.hexEncode (List.replicate 32 1))
  checkedAt := 1000000000000
  storedAt := 1000000000000

theorem checkRuntimeCallback_sampleRequest :
    checkRuntimeCallback sampleDigest sampleVerify sampleRequest sampleEnvelope = .ok () := by
  decide +kernel

/-- The sample request, a cleanup ten minutes later and the request again. -/
def sampleReplay (retention : Int) : List NonceEvent :=
  [.deliver (sampleRequest.at 700000000000), .cleanup retention 1300000000000,
    .deliver (sampleRequest.at 1300000000000)]

/-- With a retention of a minute the request is accepted again. -/
theorem sampleReplay_acceptedTwice :
    AcceptedTwice sampleDigest sampleVerify (sampleReplay 60000000000) :=
  replay_of_retention_lt rfl checkRuntimeCallback_sampleRequest (by decide)

/-- With the default retention it is refused. -/
theorem sampleReplay_not_acceptedTwice :
    ¬ AcceptedTwice sampleDigest sampleVerify (sampleReplay 0) := by
  apply not_acceptedTwice 0 0
  constructor
  · simp [sampleReplay, CallbackRequest.at]
  · simp [sampleReplay, CallbackRequest.at]
  · simp [sampleReplay, effectiveRetention, runtimeCallbackFreshness,
      runtimeCallbackNonceRetention]

end Api
end Igris
