import Igris.Coordinator.Canonical
import Igris.Lib.Reading
import Igris.Lib.Rounding

/-!
# Execution receipts

The runtime signs a receipt over a canonical map of texts.  The map is computed three
times: when the receipt is made, when the runtime verifies it, and when the coordinator
verifies the receipt that it received as JSON.

Main results:

- Theorem {lit}`canonicalReceiptEntries_toJson`: the coordinator's map is the runtime's map
  with the counters as floating-point numbers.
- Theorem {lit}`receipt_verifies_iff`: when the two verifications succeed.
-/

namespace Igris
namespace Executor

open Json

structure ExecutionReceipt where
  executionID : String
  agentID : String
  runtimeID : Option String
  transactionID : String
  transactionHash : String
  cpuTimeMs : UInt64
  wallTimeMs : UInt64
  memoryPeakMb : UInt64
  fsBytesWritten : UInt64
  toolCalls : UInt32
  violationOccurred : Bool
  timestampUTC : String
  previousHash : String
  hash : String
  signature : String
deriving DecidableEq, Repr

/-- What the caller reports about an execution. -/
structure ReceiptArguments where
  agentID : String
  runtimeID : Option String
  transactionID : String
  transactionHash : String
  cpuTimeMs : UInt64
  wallTimeMs : UInt64
  memoryPeakMb : UInt64
  fsBytesWritten : UInt64
  toolCalls : UInt32
  violationOccurred : Bool
deriving DecidableEq, Repr

/-- The text, unless it is empty. -/
def nonEmpty (text : String) : Option String := if text = "" then none else some text

/-- The canonical map: all members but the hash and the signature, as texts. -/
def ExecutionReceipt.canonicalEntries (receipt : ExecutionReceipt) : List (String × String) :=
  Assoc.ofFields [
    ("execution_id", some receipt.executionID),
    ("agent_id", some receipt.agentID),
    ("runtime_id", receipt.runtimeID.bind nonEmpty),
    ("transaction_id", nonEmpty receipt.transactionID),
    ("transaction_hash", nonEmpty receipt.transactionHash),
    ("cpu_time_ms", some receipt.cpuTimeMs.toNat.repr),
    ("wall_time_ms", some receipt.wallTimeMs.toNat.repr),
    ("memory_peak_mb", some receipt.memoryPeakMb.toNat.repr),
    ("fs_bytes_written", some receipt.fsBytesWritten.toNat.repr),
    ("tool_calls", some receipt.toolCalls.toNat.repr),
    ("violation_occurred", some (toString receipt.violationOccurred)),
    ("timestamp_utc", some receipt.timestampUTC),
    ("previous_hash", some receipt.previousHash)]

def ExecutionReceipt.canonicalBytes (receipt : ExecutionReceipt) : String :=
  serdeText (ofTexts receipt.canonicalEntries)

/-- The receipt before it is signed, with the runtime as the caller names it. -/
def ReceiptArguments.draft (args : ReceiptArguments)
    (executionID timestampUTC previousHash : String) : ExecutionReceipt where
  executionID := executionID
  agentID := args.agentID
  runtimeID := args.runtimeID
  transactionID := args.transactionID
  transactionHash := args.transactionHash
  cpuTimeMs := args.cpuTimeMs
  wallTimeMs := args.wallTimeMs
  memoryPeakMb := args.memoryPeakMb
  fsBytesWritten := args.fsBytesWritten
  toolCalls := args.toolCalls
  violationOccurred := args.violationOccurred
  timestampUTC := timestampUTC
  previousHash := previousHash
  hash := ""
  signature := ""

/-- Sign the canonical map, then drop the white space around the name of the runtime. -/
def ExecutionReceipt.new (scheme : Signing) (hasKey : Bool) (args : ReceiptArguments)
    (executionID timestampUTC previousHash : String) : ExecutionReceipt :=
  let draft := args.draft executionID timestampUTC previousHash
  { draft with
    runtimeID := (args.runtimeID.map Text.trimSpace).bind nonEmpty
    hash := Text.hexEncode (scheme.sha256 draft.canonicalBytes)
    signature := if hasKey then scheme.signText draft.canonicalBytes else "" }

def ExecutionReceipt.verifySignature (scheme : Signing) (receipt : ExecutionReceipt) :
    Except String Unit :=
  if receipt.signature = "" then .error "receipt has no signature"
  else Executor.verifySignature scheme receipt.canonicalBytes receipt.signature

/-! ## Transfer -/

def receiptJsonFields (receipt : ExecutionReceipt) : List (String × Option Json) :=
  [("execution_id", some (.string receipt.executionID)),
    ("agent_id", some (.string receipt.agentID)),
    ("runtime_id", receipt.runtimeID.map .string),
    ("transaction_id", (nonEmpty receipt.transactionID).map .string),
    ("transaction_hash", (nonEmpty receipt.transactionHash).map .string),
    ("cpu_time_ms", some (.number receipt.cpuTimeMs.toNat.repr)),
    ("wall_time_ms", some (.number receipt.wallTimeMs.toNat.repr)),
    ("memory_peak_mb", some (.number receipt.memoryPeakMb.toNat.repr)),
    ("fs_bytes_written", some (.number receipt.fsBytesWritten.toNat.repr)),
    ("tool_calls", some (.number receipt.toolCalls.toNat.repr)),
    ("violation_occurred", some (.bool receipt.violationOccurred)),
    ("timestamp_utc", some (.string receipt.timestampUTC)),
    ("previous_hash", some (.string receipt.previousHash)),
    ("hash", some (.string receipt.hash)),
    ("signature", some (.string receipt.signature))]

def ExecutionReceipt.toJson (receipt : ExecutionReceipt) : Json :=
  objectOf (receiptJsonFields receipt)

end Executor

namespace Coordinator

open Json

/-! ## Verification by the coordinator -/

/-- How the machine and the library treat numbers outside the range of the code. -/
structure NumberFormat where
  /-- The conversion of a float that does not fit into 64 bits. -/
  overflow : Nat → Int
  /-- The text of values that no receipt holds: fractions, lists and objects. -/
  other : Json → String

/-- A natural number after it was decoded into a float64. -/
def float64 (n : Nat) : Nat := Rounding.roundBits 53 n

/-- The text of a decoded number, converted to a signed 64-bit number. -/
def int64Text (format : NumberFormat) (n : Nat) : String :=
  if float64 n < 2 ^ 63 then (float64 n).repr else (format.overflow (float64 n)).repr

def receiptFieldString (format : NumberFormat) (receipt : Json) (key : String) : String :=
  match receipt.get key with
  | none => ""
  | some .null => ""
  | some (.string value) => value
  | some (.bool value) => toString value
  | some (.number literal) =>
      match literal.toNat? with
      | some n => int64Text format n
      | none => format.other (.number literal)
  | some value => format.other value

def canonicalReceiptEntries (format : NumberFormat) (receipt : Json) : List (String × String) :=
  Assoc.ofFields [
    ("agent_id", some (receiptFieldString format receipt "agent_id")),
    ("cpu_time_ms", some (receiptFieldString format receipt "cpu_time_ms")),
    ("execution_id", some (receiptFieldString format receipt "execution_id")),
    ("fs_bytes_written", some (receiptFieldString format receipt "fs_bytes_written")),
    ("memory_peak_mb", some (receiptFieldString format receipt "memory_peak_mb")),
    ("previous_hash", some (receiptFieldString format receipt "previous_hash")),
    ("timestamp_utc", some (receiptFieldString format receipt "timestamp_utc")),
    ("tool_calls", some (receiptFieldString format receipt "tool_calls")),
    ("violation_occurred", some (receiptFieldString format receipt "violation_occurred")),
    ("wall_time_ms", some (receiptFieldString format receipt "wall_time_ms")),
    ("runtime_id", Executor.nonEmpty (receiptFieldString format receipt "runtime_id")),
    ("transaction_hash", Executor.nonEmpty (receiptFieldString format receipt "transaction_hash")),
    ("transaction_id", Executor.nonEmpty (receiptFieldString format receipt "transaction_id"))]

def canonicalReceiptBytes (format : NumberFormat) (receipt : Json) : String :=
  goText (ofTexts (canonicalReceiptEntries format receipt))

structure ReceiptVerificationResult where
  runtimeKeyFound : Bool := false
  receiptPresent : Bool := false
  signaturePresent : Bool := false
  hashValid : Bool := false
  signatureValid : Bool := false
  computedHash : String := ""
  storedHash : String := ""
  reason : String := ""
deriving DecidableEq, Repr

def ReceiptVerificationResult.verified (result : ReceiptVerificationResult) : Bool :=
  result.runtimeKeyFound && result.receiptPresent && result.signaturePresent &&
    result.hashValid && result.signatureValid

/-- The text of a member; empty if it is missing or no text. -/
def textMember (receipt : Json) (key : String) : String :=
  ((receipt.get key).bind Json.asString).getD ""

def verifyReceiptCryptographic (format : NumberFormat) (scheme : Signing) (receipt : Json)
    (publicKeyHex : String) : ReceiptVerificationResult :=
  match receipt with
  | .object [] => { reason := "receipt is empty" }
  | _ =>
      let publicKeyHex := Text.trimSpace publicKeyHex
      if publicKeyHex = "" then
        { receiptPresent := true, reason := "runtime public key not found" }
      else
        match (Text.hexDecode publicKeyHex).filter fun key => decide (key.length = 32) with
        | none => { receiptPresent := true, reason := "runtime public key invalid" }
        | some key =>
            let digest := scheme.sha256 (canonicalReceiptBytes format receipt)
            let stored := textMember receipt "hash"
            let computed := Text.hexEncode digest
            let result : ReceiptVerificationResult := {
              receiptPresent := true
              runtimeKeyFound := true
              storedHash := stored
              computedHash := computed
              hashValid := decide (stored ≠ "") && decide (computed = stored) }
            let signature := textMember receipt "signature"
            if signature = "" then { result with reason := "receipt has no signature" }
            else
              match Text.base64Decode .std true signature with
              | none =>
                  { result with
                    signaturePresent := true
                    reason := "receipt signature base64 decode failed" }
              | some bytes =>
                  if scheme.verify key digest bytes then
                    { result with
                      signaturePresent := true
                      signatureValid := true
                      reason :=
                        if result.hashValid then "receipt cryptographically verified"
                        else "receipt hash does not match canonical re-computation" }
                  else
                    { result with
                      signaturePresent := true
                      reason := "receipt signature verification failed" }

end Coordinator

namespace Executor

open Json Coordinator

/-! ## The three canonical maps -/

/-- The members of the canonical map, with a way to write the counters. -/
def receiptFields (counter : Nat → String) (receipt : ExecutionReceipt) :
    List (String × Option String) :=
  [("execution_id", some receipt.executionID),
    ("agent_id", some receipt.agentID),
    ("runtime_id", receipt.runtimeID.bind nonEmpty),
    ("transaction_id", nonEmpty receipt.transactionID),
    ("transaction_hash", nonEmpty receipt.transactionHash),
    ("cpu_time_ms", some (counter receipt.cpuTimeMs.toNat)),
    ("wall_time_ms", some (counter receipt.wallTimeMs.toNat)),
    ("memory_peak_mb", some (counter receipt.memoryPeakMb.toNat)),
    ("fs_bytes_written", some (counter receipt.fsBytesWritten.toNat)),
    ("tool_calls", some (counter receipt.toolCalls.toNat)),
    ("violation_occurred", some (toString receipt.violationOccurred)),
    ("timestamp_utc", some receipt.timestampUTC),
    ("previous_hash", some receipt.previousHash)]

theorem nodup_receiptFields (counter : Nat → String) (receipt : ExecutionReceipt) :
    ((receiptFields counter receipt).map Prod.fst).Nodup := by
  simp [receiptFields]

theorem nonEmpty_inj {s t : String} : nonEmpty s = nonEmpty t ↔ s = t := by
  unfold nonEmpty
  constructor
  · intro h
    by_cases hs : s = ""
    · by_cases ht : t = ""
      · rw [hs, ht]
      · simp [hs, ht] at h
    · by_cases ht : t = ""
      · simp [hs, ht] at h
      · simpa [hs, ht] using h
  · intro h
    rw [h]

theorem nonEmpty_getD (member : Option String) :
    nonEmpty (member.getD "") = member.bind nonEmpty := by
  cases member with
  | none => rfl
  | some text => rfl

theorem nonEmpty_bind_nonEmpty (member : Option String) :
    (member.bind nonEmpty).bind nonEmpty = member.bind nonEmpty := by
  cases member with
  | none => rfl
  | some text =>
      by_cases htext : text = ""
      · simp [nonEmpty, htext]
      · simp [nonEmpty, htext]

section Lookup

variable {format : NumberFormat} {receipt : Json} {key : String}

theorem receiptFieldString_of_string {value : String} (h : receipt.get key = some (.string value)) :
    receiptFieldString format receipt key = value := by
  simp [receiptFieldString, h]

theorem receiptFieldString_of_bool {value : Bool} (h : receipt.get key = some (.bool value)) :
    receiptFieldString format receipt key = toString value := by
  simp [receiptFieldString, h]

theorem receiptFieldString_of_number {n : Nat} (h : receipt.get key = some (.number n.repr)) :
    receiptFieldString format receipt key = int64Text format n := by
  simp [receiptFieldString, h, Nat.toNat?_repr]

theorem nonEmpty_receiptFieldString {member : Option String}
    (h : receipt.get key = member.map .string) :
    nonEmpty (receiptFieldString format receipt key) = member.bind nonEmpty := by
  rw [← nonEmpty_getD]
  cases member with
  | none => simp [receiptFieldString, h]
  | some text => simp [receiptFieldString, h]

end Lookup

/-- The coordinator finds the members of the runtime's map, with the counters as they are
after the decoding. -/
theorem canonicalReceiptEntries_toJson (format : NumberFormat) (receipt : ExecutionReceipt) :
    canonicalReceiptEntries format receipt.toJson =
      Assoc.ofFields (receiptFields (int64Text format) receipt) := by
  have hkeys : ((receiptJsonFields receipt).map Prod.fst).Nodup := by simp [receiptJsonFields]
  have hget (key : String) : receipt.toJson.get key = _ := get_objectOf hkeys key
  unfold canonicalReceiptEntries
  rw [receiptFieldString_of_string (hget "agent_id"),
    receiptFieldString_of_number (hget "cpu_time_ms"),
    receiptFieldString_of_string (hget "execution_id"),
    receiptFieldString_of_number (hget "fs_bytes_written"),
    receiptFieldString_of_number (hget "memory_peak_mb"),
    receiptFieldString_of_string (hget "previous_hash"),
    receiptFieldString_of_string (hget "timestamp_utc"),
    receiptFieldString_of_number (hget "tool_calls"),
    receiptFieldString_of_bool (hget "violation_occurred"),
    receiptFieldString_of_number (hget "wall_time_ms"),
    nonEmpty_receiptFieldString (hget "runtime_id"),
    nonEmpty_receiptFieldString (hget "transaction_hash"),
    nonEmpty_receiptFieldString (hget "transaction_id")]
  have hid (text : String) : (nonEmpty text).bind nonEmpty = nonEmpty text :=
    nonEmpty_bind_nonEmpty (some text)
  rw [hid, hid]
  apply Assoc.ofFields_congr
  · simp
  · exact nodup_receiptFields _ _
  · simp [receiptFields]
  · simp [receiptFields]

/-! ## Counters -/

/-- The counter survives the decoding into a float and the conversion to a signed number:
it has at most 53 significant bits and fits, or the machine happens to yield it. -/
def CounterPreserved (format : NumberFormat) (n : Nat) : Prop :=
  (Rounding.Representable 53 n ∧ n < 2 ^ 63) ∨
    (2 ^ 63 ≤ float64 n ∧ format.overflow (float64 n) = n)

theorem int_repr_inj {a b : Int} (h : a.repr = b.repr) : a = b := by
  have hread := Int.toInt?_repr a
  rw [h, Int.toInt?_repr] at hread
  exact (Option.some.inj hread).symm

theorem int64Text_eq_repr_iff (format : NumberFormat) (n : Nat) :
    int64Text format n = n.repr ↔ CounterPreserved format n := by
  have hrepr (m : Nat) : (m : Int).repr = m.repr := rfl
  unfold int64Text CounterPreserved
  rw [← Rounding.roundBits_eq_self_iff, ← float64]
  by_cases hfits : float64 n < 2 ^ 63
  · rw [if_pos hfits]
    constructor
    · intro h
      have hsame : float64 n = n := by
        have hint : ((float64 n : Nat) : Int) = (n : Int) := int_repr_inj h
        exact_mod_cast hint
      exact .inl ⟨hsame, by omega⟩
    · rintro (⟨hsame, -⟩ | ⟨hlarge, -⟩)
      · rw [hsame]
      · omega
  · rw [if_neg hfits]
    constructor
    · intro h
      exact .inr ⟨by omega, int_repr_inj h⟩
    · rintro (⟨hsame, hlt⟩ | ⟨-, hyields⟩)
      · omega
      · rw [hyields, hrepr]

theorem counterPreserved_of_small (format : NumberFormat) {n : Nat} (h : n < 2 ^ 53) :
    CounterPreserved format n :=
  .inl ⟨Rounding.representable_of_lt h, by omega⟩

/-! ## When the receipt verifies -/

section Verification

variable (scheme : Signing) (format : NumberFormat) (args : ReceiptArguments)
  (executionID timestampUTC previousHash : String)

/-- There is no white space around the name of the runtime. -/
def Trimmed (runtimeID : Option String) : Prop :=
  ∀ name, runtimeID = some name → Text.trimSpace name = name

/-- All counters survive. -/
def CountersPreserved (format : NumberFormat) (args : ReceiptArguments) : Prop :=
  CounterPreserved format args.cpuTimeMs.toNat ∧ CounterPreserved format args.wallTimeMs.toNat ∧
    CounterPreserved format args.memoryPeakMb.toNat ∧
    CounterPreserved format args.fsBytesWritten.toNat

theorem trimmed_iff (runtimeID : Option String) :
    ((runtimeID.map Text.trimSpace).bind nonEmpty).bind nonEmpty = runtimeID.bind nonEmpty ↔
      Trimmed runtimeID := by
  rw [nonEmpty_bind_nonEmpty]
  cases runtimeID with
  | none => simp [Trimmed]
  | some name => simp [Trimmed, nonEmpty_inj]

/-- The map of the receipt is the one that was signed exactly if the name of the runtime
was not changed and the counters are written alike. -/
theorem ofFields_new_eq_iff (counter : Nat → String) (hasKey : Bool) :
    Assoc.ofFields (receiptFields counter
        (.new scheme hasKey args executionID timestampUTC previousHash)) =
      (args.draft executionID timestampUTC previousHash).canonicalEntries ↔
    Trimmed args.runtimeID ∧ counter args.cpuTimeMs.toNat = args.cpuTimeMs.toNat.repr ∧
      counter args.wallTimeMs.toNat = args.wallTimeMs.toNat.repr ∧
      counter args.memoryPeakMb.toNat = args.memoryPeakMb.toNat.repr ∧
      counter args.fsBytesWritten.toNat = args.fsBytesWritten.toNat.repr ∧
      counter args.toolCalls.toNat = args.toolCalls.toNat.repr := by
  have hcanonical : (args.draft executionID timestampUTC previousHash).canonicalEntries =
      Assoc.ofFields (receiptFields Nat.repr (args.draft executionID timestampUTC previousHash)) :=
    rfl
  rw [hcanonical, ← trimmed_iff]
  constructor
  · intro h
    have hmember (key : String) := congrArg (fun entries => Assoc.get entries key) h
    simp only [Assoc.get_ofFields (nodup_receiptFields _ _)] at hmember
    have hruntime := hmember "runtime_id"
    have hcpu := hmember "cpu_time_ms"
    have hwall := hmember "wall_time_ms"
    have hmemory := hmember "memory_peak_mb"
    have hfs := hmember "fs_bytes_written"
    have htools := hmember "tool_calls"
    exact ⟨hruntime, Option.some.inj hcpu, Option.some.inj hwall, Option.some.inj hmemory,
      Option.some.inj hfs, Option.some.inj htools⟩
  · rintro ⟨hruntime, hcpu, hwall, hmemory, hfs, htools⟩
    simp only [receiptFields, ExecutionReceipt.new, ReceiptArguments.draft, hruntime, hcpu, hwall,
      hmemory, hfs, htools]

theorem canonicalBytes_new_eq_iff (hasKey : Bool) :
    (ExecutionReceipt.new scheme hasKey args executionID timestampUTC previousHash).canonicalBytes =
      (args.draft executionID timestampUTC previousHash).canonicalBytes ↔
    Trimmed args.runtimeID := by
  have hentries := ofFields_new_eq_iff scheme args executionID timestampUTC previousHash Nat.repr
    hasKey
  constructor
  · intro h
    have hsame := printTexts_inj reads_serdeEscape reads_serdeEscape (String.ofList_inj.mp h)
    exact (hentries.mp hsame).1
  · intro htrimmed
    exact congrArg (fun entries => serdeText (ofTexts entries))
      (hentries.mpr ⟨htrimmed, rfl, rfl, rfl, rfl, rfl⟩)

theorem canonicalReceiptBytes_new_eq_iff (hasKey : Bool) :
    canonicalReceiptBytes format
        (ExecutionReceipt.new scheme hasKey args executionID timestampUTC previousHash).toJson =
      (args.draft executionID timestampUTC previousHash).canonicalBytes ↔
    Trimmed args.runtimeID ∧ CountersPreserved format args ∧
      HtmlFree (ofTexts (args.draft executionID timestampUTC previousHash).canonicalEntries) := by
  have hentries := ofFields_new_eq_iff scheme args executionID timestampUTC previousHash
    (int64Text format) hasKey
  have htools : CounterPreserved format args.toolCalls.toNat :=
    counterPreserved_of_small format (lt_trans args.toolCalls.toNat_lt (by norm_num))
  simp only [int64Text_eq_repr_iff] at hentries
  unfold canonicalReceiptBytes
  rw [canonicalReceiptEntries_toJson]
  constructor
  · intro h
    have hsame := printTexts_inj reads_goEscape reads_serdeEscape (String.ofList_inj.mp h)
    obtain ⟨htrimmed, hcpu, hwall, hmemory, hfs, -⟩ := hentries.mp hsame
    rw [hsame] at h
    exact ⟨htrimmed, ⟨hcpu, hwall, hmemory, hfs⟩, (serdeText_eq_goText_iff _).mp h.symm⟩
  · rintro ⟨htrimmed, ⟨hcpu, hwall, hmemory, hfs⟩, hplain⟩
    rw [hentries.mpr ⟨htrimmed, hcpu, hwall, hmemory, hfs, htools⟩]
    exact ((serdeText_eq_goText_iff _).mpr hplain).symm

theorem verifySignature_new_iff :
    (ExecutionReceipt.new scheme true args executionID timestampUTC previousHash).verifySignature
        scheme = .ok () ↔ Trimmed args.runtimeID := by
  rw [← canonicalBytes_new_eq_iff scheme args executionID timestampUTC previousHash true,
    ExecutionReceipt.verifySignature]
  have hsignature :
      (ExecutionReceipt.new scheme true args executionID timestampUTC previousHash).signature =
        scheme.signText (args.draft executionID timestampUTC previousHash).canonicalBytes := rfl
  rw [hsignature, if_neg (scheme.signText_ne_empty _), verifySignature_signText_iff]

/-- What the coordinator checks once it has a key and a signature. -/
theorem verified_iff {receipt : Json} {publicKeyHex : String} {bytes : List UInt8}
    (hpresent : receipt ≠ .object [])
    (hkey : Text.hexDecode (Text.trimSpace publicKeyHex) = some scheme.publicKey)
    (hsignature : textMember receipt "signature" ≠ "")
    (hbytes : Text.base64Decode .std true (textMember receipt "signature") = some bytes) :
    (verifyReceiptCryptographic format scheme receipt publicKeyHex).verified = true ↔
      scheme.verify scheme.publicKey (scheme.sha256 (canonicalReceiptBytes format receipt)) bytes =
          true ∧
        textMember receipt "hash" ≠ "" ∧
        Text.hexEncode (scheme.sha256 (canonicalReceiptBytes format receipt)) =
          textMember receipt "hash" := by
  have hnamed : Text.trimSpace publicKeyHex ≠ "" := by
    intro hempty
    have hlength := scheme.length_publicKey
    rw [hempty] at hkey
    rw [← Option.some.inj hkey] at hlength
    exact absurd hlength (by decide)
  unfold verifyReceiptCryptographic
  split
  · exact absurd rfl hpresent
  · simp only [hnamed, if_false, hkey, Option.filter, scheme.length_publicKey, decide_true, if_true,
      hsignature, hbytes]
    split
    · rename_i hverify
      simp [ReceiptVerificationResult.verified, hverify]
    · rename_i hverify
      simp [ReceiptVerificationResult.verified, hverify]

/-- The coordinator verifies a received receipt exactly if it computes the bytes that were
signed. -/
theorem verified_new_iff {publicKeyHex : String}
    (hkey : Text.hexDecode (Text.trimSpace publicKeyHex) = some scheme.publicKey) :
    (verifyReceiptCryptographic format scheme
        (ExecutionReceipt.new scheme true args executionID timestampUTC previousHash).toJson
        publicKeyHex).verified = true ↔
      canonicalReceiptBytes format
          (ExecutionReceipt.new scheme true args executionID timestampUTC previousHash).toJson =
        (args.draft executionID timestampUTC previousHash).canonicalBytes := by
  have hsigned :
      (ExecutionReceipt.new scheme true args executionID timestampUTC previousHash).signature =
        scheme.signText (args.draft executionID timestampUTC previousHash).canonicalBytes := rfl
  have hhash :
      (ExecutionReceipt.new scheme true args executionID timestampUTC previousHash).hash =
        Text.hexEncode (scheme.sha256
          (args.draft executionID timestampUTC previousHash).canonicalBytes) := rfl
  generalize args.draft executionID timestampUTC previousHash = draft at hsigned hhash ⊢
  generalize ExecutionReceipt.new scheme true args executionID timestampUTC previousHash = receipt
    at hsigned hhash ⊢
  have hkeys : ((receiptJsonFields receipt).map Prod.fst).Nodup := by simp [receiptJsonFields]
  have hget (key : String) : receipt.toJson.get key = _ := get_objectOf hkeys key
  have hpresent : receipt.toJson ≠ .object [] := by
    intro hempty
    have hagent : receipt.toJson.get "agent_id" = some (.string receipt.agentID) := hget "agent_id"
    simp [hempty, Json.get, Assoc.get] at hagent
  have hsignature : textMember receipt.toJson "signature" = scheme.signText draft.canonicalBytes := by
    rw [textMember, hget, ← hsigned]
    rfl
  have hstored : textMember receipt.toJson "hash" =
      Text.hexEncode (scheme.sha256 draft.canonicalBytes) := by
    rw [textMember, hget, ← hhash]
    rfl
  have hnonEmpty : Text.hexEncode (scheme.sha256 draft.canonicalBytes) ≠ "" := by
    intro hempty
    have hdecode := Text.hexDecode_hexEncode (scheme.sha256 draft.canonicalBytes)
    rw [hempty] at hdecode
    exact scheme.sha256_ne_nil _ (Option.some.inj hdecode).symm
  have hverified := verified_iff scheme format hpresent hkey
    (by rw [hsignature]; exact scheme.signText_ne_empty _)
    (by rw [hsignature]; exact Text.base64Decode_base64Encode _)
  rw [hverified, hstored, scheme.verify_sign_iff]
  constructor
  · exact fun h => h.1
  · intro h
    exact ⟨h, hnonEmpty, by rw [h]⟩

/-- The receipt verifies on the runtime exactly if the name of the runtime has no white
space around it.  The coordinator also needs counters that survive a float and texts without
characters that only the Go library escapes.  In both cases this is when the bytes are those
that were signed. -/
theorem receipt_verifies_iff (publicKeyHex : String)
    (hkey : Text.hexDecode (Text.trimSpace publicKeyHex) = some scheme.publicKey) :
    ((ExecutionReceipt.new scheme true args executionID timestampUTC previousHash).canonicalBytes =
        (args.draft executionID timestampUTC previousHash).canonicalBytes ↔
      Trimmed args.runtimeID) ∧
    ((ExecutionReceipt.new scheme true args executionID timestampUTC previousHash).verifySignature
        scheme = .ok () ↔ Trimmed args.runtimeID) ∧
    (canonicalReceiptBytes format
        (ExecutionReceipt.new scheme true args executionID timestampUTC previousHash).toJson =
        (args.draft executionID timestampUTC previousHash).canonicalBytes ↔
      Trimmed args.runtimeID ∧ CountersPreserved format args ∧
        HtmlFree (ofTexts (args.draft executionID timestampUTC previousHash).canonicalEntries)) ∧
    ((verifyReceiptCryptographic format scheme
        (ExecutionReceipt.new scheme true args executionID timestampUTC previousHash).toJson
        publicKeyHex).verified = true ↔
      Trimmed args.runtimeID ∧ CountersPreserved format args ∧
        HtmlFree (ofTexts (args.draft executionID timestampUTC previousHash).canonicalEntries)) := by
  refine ⟨canonicalBytes_new_eq_iff _ _ _ _ _ _, verifySignature_new_iff _ _ _ _ _,
    canonicalReceiptBytes_new_eq_iff _ _ _ _ _ _ _, ?_⟩
  rw [verified_new_iff scheme format args executionID timestampUTC previousHash hkey]
  exact canonicalReceiptBytes_new_eq_iff _ _ _ _ _ _ _

end Verification

/-! ## Three receipts -/

def plainArguments : ReceiptArguments where
  agentID := "planner"
  runtimeID := some "edge-1"
  transactionID := ""
  transactionHash := ""
  cpuTimeMs := 12
  wallTimeMs := 40
  memoryPeakMb := 0
  fsBytesWritten := 0
  toolCalls := 1
  violationOccurred := false

/-- Numbers that do not fit become the smallest one. -/
def plainFormat : NumberFormat where
  overflow _ := -2 ^ 63
  other _ := ""

theorem plain_receipt_verifies :
    (ExecutionReceipt.new default true plainArguments "e-1" "t" "").verifySignature default =
        .ok () ∧
      (verifyReceiptCryptographic plainFormat default
        (ExecutionReceipt.new default true plainArguments "e-1" "t" "").toJson
        (Text.hexEncode (default : Signing).publicKey)).verified = true := by
  have hkey : Text.hexDecode (Text.trimSpace (Text.hexEncode (default : Signing).publicKey)) =
      some (default : Signing).publicKey := by
    rw [Text.trimSpace_of_noSpace (Text.noSpace_hexEncode _), Text.hexDecode_hexEncode]
  have htrimmed : Trimmed plainArguments.runtimeID := by
    intro name hname
    obtain rfl := Option.some.inj hname
    decide
  have hcounters : CountersPreserved plainFormat plainArguments := by
    refine ⟨?_, ?_, ?_, ?_⟩
    all_goals exact counterPreserved_of_small plainFormat (by decide)
  have hplain : HtmlFree (ofTexts (plainArguments.draft "e-1" "t" "").canonicalEntries) := by
    rw [← serdeText_eq_goText_iff]
    decide +kernel
  have hiff := receipt_verifies_iff default plainFormat plainArguments "e-1" "t" "" _ hkey
  exact ⟨hiff.2.1.mpr htrimmed, hiff.2.2.2.mpr ⟨htrimmed, hcounters, hplain⟩⟩

/-- A blank before the name of the runtime is signed and not stored.  An ampersand is
escaped by the coordinator only.  A large counter is rounded by the coordinator. -/
theorem receipts_refused :
    (∀ scheme : Signing,
      (ExecutionReceipt.new scheme true { plainArguments with runtimeID := some " edge-1" }
        "e-1" "t" "").verifySignature scheme ≠ .ok ()) ∧
    (∀ scheme : Signing,
      canonicalReceiptBytes plainFormat
          (ExecutionReceipt.new scheme true { plainArguments with agentID := "r&d" }
            "e-1" "t" "").toJson ≠
        ({ plainArguments with agentID := "r&d" }.draft "e-1" "t" "").canonicalBytes) ∧
    ∀ scheme : Signing,
      canonicalReceiptBytes plainFormat
          (ExecutionReceipt.new scheme true { plainArguments with cpuTimeMs := 9007199254740993 }
            "e-1" "t" "").toJson ≠
        ({ plainArguments with cpuTimeMs := 9007199254740993 }.draft "e-1" "t" "").canonicalBytes := by
  refine ⟨?_, ?_, ?_⟩
  · intro scheme hverified
    rw [verifySignature_new_iff] at hverified
    exact absurd (hverified " edge-1" rfl) (by decide)
  · intro scheme hbytes
    rw [canonicalReceiptBytes_new_eq_iff, ← serdeText_eq_goText_iff] at hbytes
    exact absurd hbytes.2.2 (by decide +kernel)
  · intro scheme hbytes
    rw [canonicalReceiptBytes_new_eq_iff] at hbytes
    have hcpu := hbytes.2.1.1
    rw [← int64Text_eq_repr_iff] at hcpu
    exact absurd hcpu (by decide +kernel)

end Executor
end Igris
