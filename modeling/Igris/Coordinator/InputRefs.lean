import Igris.Lib.Encoding
import Igris.Lib.Numbers
import Igris.Lib.Signature
import Igris.Lib.Validation
import Igris.Task.Definition

/-!
# Encrypted execution inputs

Sensitive inputs of a task are stored encrypted, with the tenant, the task, the
identifier of the row and the purpose as associated data.  Rows can be revoked and can
expire, and the keys come from the environment, which may change between two calls.  A
row keeps the version of its key.

Main results:

- Theorem {lit}`jsonValuesEqual_stored_iff`: the associated data agrees with the column
  exactly if every part of it does.
- Theorem {lit}`mem_rows_run_iff`: which rows a history leaves.
- Theorem {lit}`decrypts_iff`: a request is answered with a plaintext exactly if this
  plaintext was stored for the request and the row and its key are still valid.
-/

namespace Igris

/-! ## Identifiers as text -/

/-- The thirty-two hexadecimal digits of an identifier. -/
def Uuid.digits (id : Uuid) : List Char :=
  (Text.hexEncode ((List.range 16).reverse.map fun i => UInt8.ofNat (id.toNat / 256 ^ i))).toList

/-- No digit is the dash between the groups. -/
theorem Uuid.digits_ne_dash {id : Uuid} {c : Char} (h : c ∈ id.digits) : c ≠ '-' := by
  obtain ⟨n, hn, rfl⟩ := Text.exists_of_mem_hexEncode h
  exact (by decide : ∀ n < 16, Text.hexDigit n ≠ '-') n hn

theorem Uuid.filter_string (id : Uuid) : id.string.toList.filter (· ≠ '-') = id.digits := by
  have hkeep (part : List Char) (hpart : part ⊆ id.digits) : part.filter (· ≠ '-') = part :=
    List.filter_eq_self.mpr fun c hc => by simpa using Uuid.digits_ne_dash (hpart hc)
  have hdash : ['-'].filter (· ≠ '-') = [] := by decide
  change (String.ofList (id.digits.take 8 ++ ['-'] ++ (id.digits.drop 8).take 4 ++ ['-'] ++
    (id.digits.drop 12).take 4 ++ ['-'] ++ (id.digits.drop 16).take 4 ++ ['-'] ++
    id.digits.drop 20)).toList.filter (· ≠ '-') = id.digits
  simp only [String.toList_ofList, List.filter_append, hdash, List.append_nil]
  have hmiddle (n : Nat) : (id.digits.drop n).take 4 ⊆ id.digits :=
    fun c hc => List.drop_subset _ _ (List.take_subset _ _ hc)
  have hjoin (n : Nat) : (id.digits.drop n).take 4 ++ id.digits.drop (n + 4) = id.digits.drop n := by
    rw [← List.drop_drop, List.take_append_drop]
  rw [hkeep _ (List.take_subset _ _), hkeep _ (List.drop_subset _ _), hkeep _ (hmiddle 8),
    hkeep _ (hmiddle 12), hkeep _ (hmiddle 16)]
  simp only [List.append_assoc]
  rw [hjoin 16, hjoin 12, hjoin 8, List.take_append_drop]

/-- The identifier that the digits of a text stand for. -/
def Uuid.ofText (text : String) : Option Uuid :=
  (Text.hexDecode (String.ofList (text.toList.filter (· ≠ '-')))).map fun bytes =>
    BitVec.ofNat 128 (bytes.foldl (fun n byte => n * 256 + byte.toNat) 0)

/-- The bytes of a number, most significant first, give its remainder. -/
theorem foldl_bytes (n k start : Nat) :
    ((List.range k).reverse.map fun i => UInt8.ofNat (n / 256 ^ i)).foldl
        (fun n byte => n * 256 + byte.toNat) start = start * 256 ^ k + n % 256 ^ k := by
  induction k generalizing start with
  | zero => simp [Nat.mod_one]
  | succ k ih =>
      rw [List.range_succ, List.reverse_append, List.reverse_singleton, List.singleton_append,
        List.map_cons, List.foldl_cons, ih, Nat.mod_pow_succ]
      have hbyte : (UInt8.ofNat (n / 256 ^ k)).toNat = n / 256 ^ k % 256 := by simp
      rw [hbyte]
      ring

theorem Uuid.ofText_string (id : Uuid) : Uuid.ofText id.string = some id := by
  have hdigits : String.ofList id.digits = Text.hexEncode ((List.range 16).reverse.map fun i =>
      UInt8.ofNat (id.toNat / 256 ^ i)) := String.ofList_toList
  rw [Uuid.ofText, Uuid.filter_string, hdigits, Text.hexDecode_hexEncode, Option.map_some,
    foldl_bytes, Nat.zero_mul, Nat.zero_add, Option.some.injEq]
  refine BitVec.eq_of_toNat_eq ?_
  have hlt := id.isLt
  rw [BitVec.toNat_ofNat]
  omega

theorem Uuid.string_injective {a b : Uuid} (h : a.string = b.string) : a = b := by
  have hsome := Uuid.ofText_string a
  rw [h, Uuid.ofText_string b] at hsome
  exact (Option.some.inj hsome).symm

namespace InputRefs

open Json (goText literals decodeNumbers)

/-! ## Keys -/

inductive InputRefError where
  | notFound
  | revoked
  | expired
  | scope
  | keyMissing
  | keyVersionMissing
  | decrypt
  | keyLength
  | keyringConfig (detail : String)
deriving DecidableEq, Repr

def InputRefError.message : InputRefError → String
  | .notFound => "execution input ref not found"
  | .revoked => "execution input ref revoked"
  | .expired => "execution input ref expired"
  | .scope => "execution input ref scope mismatch"
  | .keyMissing => "execution input ref encryption key missing"
  | .keyVersionMissing => "execution input ref key version missing"
  | .decrypt => "execution input ref decrypt denied"
  | .keyLength => "execution input ref key must decode to 32 bytes"
  | .keyringConfig detail => "execution input ref keyring config invalid: " ++ detail

/-- The short name of an error that leaves the coordinator. -/
def safeInputRefFailureCode : InputRefError → String
  | .notFound => "not_found"
  | .revoked => "revoked"
  | .expired => "expired"
  | .scope => "scope_mismatch"
  | .decrypt => "auth_failed"
  | .keyVersionMissing => "missing_key_version"
  | .keyMissing => "key_unavailable"
  | .keyLength | .keyringConfig _ => "internal_error"

/-- A key with its version.  Versions are trimmed and never empty. -/
structure Cipher where
  keyVersion : String
  key : List UInt8
  length_key : key.length = 32
  keyVersion_trimmed : Text.trimSpace keyVersion = keyVersion
  keyVersion_ne : keyVersion ≠ ""
deriving DecidableEq

def Cipher.keyFingerprint (sha256 : List UInt8 → List UInt8) (cipher : Cipher) : String :=
  Text.hexEncode (sha256 cipher.key)

def defaultExecutionInputRefKeyVersion : String := "env:v1"

/-- The version that a configured text stands for. -/
def versionOf (keyVersion : String) : String :=
  if Text.trimSpace keyVersion = "" then defaultExecutionInputRefKeyVersion
  else Text.trimSpace keyVersion

theorem trimSpace_versionOf (keyVersion : String) :
    Text.trimSpace (versionOf keyVersion) = versionOf keyVersion := by
  unfold versionOf
  split
  · decide +kernel
  · exact Text.trimSpace_trimSpace keyVersion

theorem versionOf_ne_empty (keyVersion : String) : versionOf keyVersion ≠ "" := by
  unfold versionOf
  split
  · decide
  · assumption

def newExecutionInputCipherFromKeyBytes (key : List UInt8) (keyVersion : String) :
    Except InputRefError Cipher :=
  if h : key.length = 32 then
    .ok ⟨versionOf keyVersion, key, h, trimSpace_versionOf keyVersion, versionOf_ne_empty keyVersion⟩
  else .error .keyLength

/-- The first decoding that gives thirty-two bytes. -/
def decodeKeyWith (decoders : List (String → Option (List UInt8))) (rawKey : String) :
    Option (List UInt8) :=
  decoders.findSome? fun decode => (decode rawKey).filter fun key => key.length = 32

def base64Decoders : List (String → Option (List UInt8)) :=
  [Text.base64Decode .std true, Text.base64Decode .std false,
    Text.base64Decode .url true, Text.base64Decode .url false]

def decodeExecutionInputKey (rawKey : String) : Except InputRefError (List UInt8) :=
  let rawKey := Text.trimSpace rawKey
  if rawKey = "" then .error .keyMissing
  else
    match decodeKeyWith (base64Decoders ++ [Text.hexDecode]) rawKey with
    | some key => .ok key
    | none =>
        -- the text itself is the key if it has the right length
        let bytes := rawKey.toByteArray.data.toList
        if bytes.length = 32 then .ok bytes else .error .keyLength

def decodeExecutionInputKeyringKey (rawKey : String) : Except InputRefError (List UInt8) :=
  let rawKey := Text.trimSpace rawKey
  if rawKey = "" then .error .keyMissing
  else
    match decodeKeyWith base64Decoders rawKey with
    | some key => .ok key
    | none => .error .keyLength

def newExecutionInputCipher (rawKey keyVersion : String) : Except InputRefError Cipher := do
  let key ← decodeExecutionInputKey rawKey
  newExecutionInputCipherFromKeyBytes key keyVersion

/-- Ciphers by version. -/
abbrev Ciphers : Type :=
  { ciphers : List (String × Cipher) //
    ∀ version cipher, Assoc.get ciphers version = some cipher → cipher.keyVersion = version }

def Ciphers.empty : Ciphers := ⟨[], by simp [Assoc.get]⟩

/-- File a cipher under its version. -/
def Ciphers.add (ciphers : Ciphers) (cipher : Cipher) : Ciphers :=
  ⟨Assoc.insert cipher.keyVersion cipher ciphers.1, by
    intro version found hfound
    rw [Assoc.get_insert] at hfound
    split at hfound
    · cases hfound
      exact Eq.symm ‹_›
    · exact ciphers.2 version found hfound⟩

def Ciphers.find (ciphers : Ciphers) (version : String) : Option Cipher :=
  Assoc.get ciphers.1 version

structure Keyring where
  activeKeyVersion : String
  ciphers : Ciphers
deriving DecidableEq

/-- Read the entries of a keyring, one after the other. -/
def parseEntries : List String → Ciphers → Except InputRefError Ciphers
  | [], ciphers => .ok ciphers
  | entry :: entries, ciphers =>
      let entry := Text.trimSpace entry
      if entry = "" then .error (.keyringConfig "empty keyring entry")
      else
        match Text.cut [':'] entry.toList with
        | none => .error (.keyringConfig "malformed keyring entry")
        | some (before, after) =>
            let version := Text.trimSpace (String.ofList before)
            let keyPart := Text.trimSpace (String.ofList after)
            if version = "" ∨ keyPart = "" then
              .error (.keyringConfig "malformed keyring entry")
            else if (ciphers.find version).isSome then
              .error (.keyringConfig "duplicate key version")
            else
              match decodeExecutionInputKeyringKey keyPart with
              | .error _ => .error (.keyringConfig ("invalid key for version " ++ version))
              | .ok key =>
                  -- the version is trimmed already, so the cipher has it unchanged
                  match newExecutionInputCipherFromKeyBytes key version with
                  | .error _ => .error (.keyringConfig ("invalid key for version " ++ version))
                  | .ok cipher => parseEntries entries (ciphers.add cipher)

def parseExecutionInputKeyring (raw activeVersionRaw : String) : Except InputRefError Keyring := do
  let activeVersion := Text.trimSpace activeVersionRaw
  if activeVersion = "" then .error (.keyringConfig "active key version is empty")
  else
    let ciphers ← parseEntries (Text.split ',' raw) .empty
    if ciphers.1 = [] then .error (.keyringConfig "keyring is empty")
    else if (ciphers.find activeVersion).isNone then
      .error (.keyringConfig "active key version not present in keyring")
    else .ok ⟨activeVersion, ciphers⟩

def ensureLegacyKeyConsistent (sha256 : List UInt8 → List UInt8) (ring : Keyring)
    (legacyKeyRaw legacyVersionRaw : String) : Except InputRefError Unit :=
  match newExecutionInputCipher legacyKeyRaw legacyVersionRaw with
  | .error _ => .error (.keyringConfig "legacy single key invalid")
  | .ok legacyCipher =>
      match ring.ciphers.find legacyCipher.keyVersion with
      | none => .error (.keyringConfig "legacy single key version not present in keyring")
      | some existing =>
          if existing.keyFingerprint sha256 ≠ legacyCipher.keyFingerprint sha256 then
            .error (.keyringConfig "legacy single key disagrees with keyring entry")
          else .ok ()

/-- The four variables that configure the keys. -/
structure KeyEnvironment where
  keys : String
  activeKeyVersion : String
  legacyKey : String
  legacyKeyVersion : String
deriving Repr

def buildExecutionInputKeyring (sha256 : List UInt8 → List UInt8) (env : KeyEnvironment) :
    Except InputRefError Keyring := do
  let keyringRaw := Text.trimSpace env.keys
  let legacyKeyRaw := Text.trimSpace env.legacyKey
  if keyringRaw ≠ "" then
    let ring ← parseExecutionInputKeyring keyringRaw env.activeKeyVersion
    if legacyKeyRaw ≠ "" then
      ensureLegacyKeyConsistent sha256 ring legacyKeyRaw env.legacyKeyVersion
    .ok ring
  else if legacyKeyRaw ≠ "" then
    let cipher ← newExecutionInputCipher legacyKeyRaw env.legacyKeyVersion
    let active := Text.trimSpace env.activeKeyVersion
    if active ≠ "" ∧ active ≠ cipher.keyVersion then
      .error (.keyringConfig "active key version does not match configured single key version")
    else .ok ⟨cipher.keyVersion, Ciphers.empty.add cipher⟩
  else .error .keyMissing

/-- The cipher that encrypts. -/
def Keyring.active (ring : Keyring) : Except InputRefError Cipher :=
  match ring.ciphers.find ring.activeKeyVersion with
  | none => .error .keyMissing
  | some cipher => .ok cipher

/-- The cipher of a stored version. -/
def Keyring.forVersion (ring : Keyring) (keyVersion : String) : Except InputRefError Cipher :=
  let keyVersion := Text.trimSpace keyVersion
  if keyVersion = "" then .error .keyVersionMissing
  else
    match ring.ciphers.find keyVersion with
    | none => .error .keyVersionMissing
    | some cipher => .ok cipher

variable {cipher : Cipher}

theorem Keyring.keyVersion_of_active {ring : Keyring} (h : ring.active = .ok cipher) :
    ring.ciphers.find cipher.keyVersion = some cipher := by
  unfold Keyring.active at h
  split at h
  · cases h
  · rename_i found hfound
    cases h
    rw [ring.ciphers.2 _ _ hfound]
    exact hfound

/-- The version of a cipher is looked up as it is stored. -/
theorem Keyring.forVersion_keyVersion (ring : Keyring) (cipher found : Cipher) :
    ring.forVersion cipher.keyVersion = .ok found ↔
      ring.ciphers.find cipher.keyVersion = some found := by
  unfold Keyring.forVersion
  dsimp only
  rw [cipher.keyVersion_trimmed, if_neg cipher.keyVersion_ne]
  split <;> simp_all

/-! ## Associated data -/

/-- An ideal cipher: a ciphertext opens to the plaintext that was sealed with the same key,
nonce and associated data. -/
structure Aead where
  encrypt : List UInt8 → List UInt8 → List UInt8 → String → List UInt8
  decrypt : List UInt8 → List UInt8 → List UInt8 → String → Option (List UInt8)
  decrypt_eq_some_iff : ∀ key nonce ciphertext aad plaintext,
    decrypt key nonce ciphertext aad = some plaintext ↔
      ciphertext = encrypt key nonce plaintext aad

/-- A JSON column.  It refuses some texts, and what is read back need not be the text that
was written, but its value. -/
structure Jsonb where
  store : String → Option String
  parse_store : ∀ text stored value, store text = some stored →
    Json.parse false text.toList = some value → literals value = [] →
      Json.parse false stored.toList = some value

/-- What the coordinator takes from its libraries. -/
structure Services where
  aead : Aead
  jsonb : Jsonb
  sha256 : List UInt8 → List UInt8
  /-- A number literal as a float64 is written; {lit}`none` if it is out of range. -/
  float64 : String → Option String

/-- What a reference is for. -/
structure Scope where
  tenantID : String
  taskID : Uuid
  inputRefID : Uuid
  purpose : String
deriving DecidableEq, Repr

/-- The fields of the associated data, in the order of the source. -/
def Scope.fields (scope : Scope) (keyVersion : String) : List (String × Json) :=
  [("tenant_id", .string scope.tenantID), ("task_id", .string scope.taskID.string),
    ("input_ref_id", .string scope.inputRefID.string), ("purpose", .string scope.purpose),
    ("key_version", .string keyVersion)]

def executionInputAssociatedData (scope : Scope) (keyVersion : String) : String :=
  goText (.object (scope.fields keyVersion))

/-- The value of a JSON text as the library decodes it. -/
def Services.unmarshal (services : Services) (text : String) : Option Json :=
  (Json.parse false text.toList).bind (decodeNumbers services.float64)

def jsonValuesEqual (services : Services) (a b : String) : Bool :=
  match services.unmarshal a, services.unmarshal b with
  | some a, some b => decide (a = b)
  | _, _ => false

section AssociatedData

variable {services : Services} {scope scope' : Scope} {keyVersion : String} {stored : String}

theorem literals_fields (scope : Scope) (keyVersion : String) :
    literals (.object (scope.fields keyVersion)) = [] := rfl

theorem literals_of_mem_fields {member : String × Json} (h : member ∈ scope.fields keyVersion) :
    literals member.2 = [] := by
  simp only [Scope.fields, List.mem_cons, List.not_mem_nil, or_false] at h
  obtain rfl | rfl | rfl | rfl | rfl := h <;> rfl

theorem parse_associatedData (scope : Scope) (keyVersion : String) :
    Json.parse false (executionInputAssociatedData scope keyVersion).toList =
      some (Json.normal (.object (scope.fields keyVersion))) := by
  rw [executionInputAssociatedData, goText, String.toList_ofList]
  refine Json.parse_print Json.scans_goEscape false ?_
  intro literal hmem
  rw [literals_fields] at hmem
  cases hmem

theorem normal_fields (scope : Scope) (keyVersion : String) :
    Json.normal (.object (scope.fields keyVersion)) =
      .object (Assoc.insertAll (scope.fields keyVersion) []) := rfl

/-- The members of the decoded data determine the scope. -/
theorem normal_fields_eq_iff :
    Json.normal (.object (scope.fields keyVersion)) =
        Json.normal (.object (scope'.fields keyVersion)) ↔ scope = scope' := by
  refine ⟨fun h => ?_, fun h => by rw [h]⟩
  rw [normal_fields, normal_fields, Json.object.injEq] at h
  have hget (key : String) {value value' : String}
      (hmem : (key, Json.string value) ∈ scope.fields keyVersion)
      (hmem' : (key, Json.string value') ∈ scope'.fields keyVersion) : value = value' := by
    have hfound {scope : Scope} {value : String}
        (hmem : (key, Json.string value) ∈ scope.fields keyVersion) :
        Assoc.get (Assoc.insertAll (scope.fields keyVersion) []) key = some (.string value) :=
      Assoc.get_insertAll_of_nodup (by simp [Scope.fields]) hmem
    simpa [h, hfound hmem'] using (hfound hmem).symm
  have htenant := hget "tenant_id" (.head _) (.head _)
  have htask := Uuid.string_injective (hget "task_id" (.tail _ (.head _)) (.tail _ (.head _)))
  have href := Uuid.string_injective
    (hget "input_ref_id" (.tail _ (.tail _ (.head _))) (.tail _ (.tail _ (.head _))))
  have hpurpose := hget "purpose" (.tail _ (.tail _ (.tail _ (.head _))))
    (.tail _ (.tail _ (.tail _ (.head _))))
  cases scope
  cases scope'
  simp_all

/-- The data of a request agrees with the column exactly if the row has the same scope. -/
theorem jsonValuesEqual_stored_iff
    (hstore : services.jsonb.store (executionInputAssociatedData scope keyVersion) = some stored) :
    jsonValuesEqual services (executionInputAssociatedData scope' keyVersion) stored = true ↔
      scope' = scope := by
  have hfree (scope : Scope) : literals (Json.normal (.object (scope.fields keyVersion))) = [] := by
    refine List.eq_nil_iff_forall_not_mem.mpr fun literal hmem => ?_
    rw [normal_fields, literals] at hmem
    obtain ⟨member, hmember, hliteral⟩ := Json.mem_literalsOfMembers.mp hmem
    obtain hfield | hnil := Assoc.mem_insertAll hmember
    · rw [literals_of_mem_fields hfield] at hliteral
      cases hliteral
    · cases hnil
  have hdecode (scope : Scope) :
      decodeNumbers services.float64 (Json.normal (.object (scope.fields keyVersion))) =
        some (Json.normal (.object (scope.fields keyVersion))) :=
    Json.decodeNumbers_eq_self (by simp [hfree])
  have hread := services.jsonb.parse_store _ _ _ hstore (parse_associatedData scope keyVersion)
    (hfree scope)
  rw [jsonValuesEqual, Services.unmarshal, Services.unmarshal, parse_associatedData, hread]
  simp only [Option.bind_some, hdecode, decide_eq_true_eq]
  exact normal_fields_eq_iff

end AssociatedData

/-! ## References -/

def inputReferenceRedactionPolicyVersion : String := "input-reference-redaction-v1"

/-- A reference as it is built, before it is stored. -/
structure ExecutionInputRef where
  id : Uuid
  tenantID : String
  taskID : Uuid
  purpose : String
  ciphertext : List UInt8
  nonce : List UInt8
  aad : String
  digestSHA256 : String
  plaintextBytes : Nat
  contentType : String
  redactionPolicyVersion : String
  keyVersion : String
  expiresAt : Option Int
deriving DecidableEq, Repr

/-- An input that is to be stored.  The identifier and the nonce are fresh random values. -/
structure Creation where
  scope : Scope
  inputRefID_ne : scope.inputRefID ≠ Uuid.nil
  nonce : List UInt8
  plaintext : List UInt8
  expiresAt : Option Int
deriving DecidableEq, Repr

def sha256InputBytes (services : Services) (value : List UInt8) : String :=
  Text.hexEncode (services.sha256 value)

def buildRef (services : Services) (cipher : Cipher) (creation : Creation) : ExecutionInputRef :=
  let aad := executionInputAssociatedData creation.scope cipher.keyVersion
  { id := creation.scope.inputRefID
    tenantID := creation.scope.tenantID
    taskID := creation.scope.taskID
    purpose := creation.scope.purpose
    ciphertext := services.aead.encrypt cipher.key creation.nonce creation.plaintext aad
    nonce := creation.nonce
    aad := aad
    digestSHA256 := sha256InputBytes services creation.plaintext
    plaintextBytes := creation.plaintext.length
    contentType := ""
    redactionPolicyVersion := inputReferenceRedactionPolicyVersion
    keyVersion := cipher.keyVersion
    expiresAt := creation.expiresAt }

/-- A stored reference.  The task is absent if its identifier is nil, and the associated
data is what the column gives back. -/
structure Row where
  ref : ExecutionInputRef
  taskID : Option Uuid
  aad : String
  revokedAt : Option Int
deriving DecidableEq, Repr

def Row.ofRef (ref : ExecutionInputRef) (aad : String) : Row where
  ref := ref
  taskID := if ref.taskID = Uuid.nil then none else some ref.taskID
  aad := aad
  revokedAt := none

/-- Insert a reference; an identifier that exists already is left alone.  The statement fails
if the column refuses the associated data. -/
def insertExecutionInputRef (services : Services) (rows : List Row) (ref : ExecutionInputRef) :
    Option (List Row) :=
  match services.jsonb.store ref.aad with
  | none => none
  | some aad =>
      if rows.any fun row => row.ref.id = ref.id then some rows
      else some (rows ++ [Row.ofRef ref aad])

/-- The condition on the row in both statements that select one. -/
def Row.selected (row : Row) (scope : Scope) : Bool :=
  row.ref.id = scope.inputRefID && row.ref.tenantID = scope.tenantID &&
    (row.taskID = some scope.taskID || row.taskID = none) && row.ref.purpose = scope.purpose

theorem selected_iff (row : Row) (scope : Scope) :
    row.selected scope = true ↔
      row.ref.id = scope.inputRefID ∧ row.ref.tenantID = scope.tenantID ∧
        (row.taskID = some scope.taskID ∨ row.taskID = none) ∧ row.ref.purpose = scope.purpose := by
  simp only [Row.selected, Bool.and_eq_true, Bool.or_eq_true, decide_eq_true_eq, and_assoc]

def loadExecutionInputRef (rows : List Row) (now : Int) (scope : Scope) :
    Except InputRefError Row :=
  match rows.find? fun row => row.selected scope with
  | none => .error .notFound
  | some row =>
      let taskID := row.taskID.getD Uuid.nil
      if taskID ≠ Uuid.nil ∧ taskID ≠ scope.taskID then .error .scope
      else if row.revokedAt.isSome then .error .revoked
      else if row.ref.expiresAt.any fun time => time < now then .error .expired
      else .ok row

/-- The table, the environment and the clock. -/
structure Store where
  rows : List Row
  env : KeyEnvironment
  now : Int

def decryptExecutionInputRef (services : Services) (store : Store) (scope : Scope) :
    Except InputRefError (List UInt8) := do
  let row ← loadExecutionInputRef store.rows store.now scope
  let keyring ← buildExecutionInputKeyring services.sha256 store.env
  let cipher ← keyring.forVersion row.ref.keyVersion
  let expectedAAD := executionInputAssociatedData scope row.ref.keyVersion
  if ¬jsonValuesEqual services expectedAAD row.aad then .error .scope
  else
    match services.aead.decrypt cipher.key row.ref.nonce row.ref.ciphertext expectedAAD with
    | none => .error .decrypt
    | some plaintext =>
        if sha256InputBytes services plaintext ≠ row.ref.digestSHA256 ∨
            plaintext.length ≠ row.ref.plaintextBytes then .error .decrypt
        else .ok plaintext

def revokeExecutionInputRef (rows : List Row) (now : Int) (scope : Scope) : List Row :=
  if scope.inputRefID = Uuid.nil then rows
  else
    rows.map fun row =>
      if row.selected scope then { row with revokedAt := row.revokedAt.or (some now) } else row

/-! ## Histories -/

inductive Step where
  | create (creation : Creation)
  | configure (env : KeyEnvironment)
  | revoke (scope : Scope)
  | advance (elapsed : Nat)

/-- The cipher that encrypts under an environment. -/
def activeCipher (services : Services) (env : KeyEnvironment) : Except InputRefError Cipher := do
  let keyring ← buildExecutionInputKeyring services.sha256 env
  keyring.active

def Store.step (services : Services) (store : Store) : Step → Store
  | .create creation =>
      match activeCipher services store.env with
      | .error _ => store
      | .ok cipher =>
          -- a failed statement rolls the whole submission back
          let inserted := insertExecutionInputRef services store.rows (buildRef services cipher creation)
          { store with rows := inserted.getD store.rows }
  | .configure env => { store with env := env }
  | .revoke scope => { store with rows := revokeExecutionInputRef store.rows store.now scope }
  | .advance elapsed => { store with now := store.now + elapsed }

def Store.run (services : Services) (store : Store) (steps : List Step) : Store :=
  steps.foldl (Store.step services) store

section Histories

variable {services : Services} {store : Store} {step : Step} {row : Row}

/-- What a step does to a row that exists. -/
def Row.revise (now : Int) (step : Step) (row : Row) : Row :=
  match step with
  | .revoke scope =>
      if scope.inputRefID ≠ Uuid.nil ∧ row.selected scope then
        { row with revokedAt := row.revokedAt.or (some now) }
      else row
  | _ => row

/-- The row that a step adds, if any. -/
def Store.added (services : Services) (store : Store) : Step → Option Row
  | .create creation =>
      match activeCipher services store.env with
      | .error _ => none
      | .ok cipher =>
          let ref := buildRef services cipher creation
          (services.jsonb.store ref.aad).bind fun aad =>
            if store.rows.any fun row => row.ref.id = ref.id then none else some (.ofRef ref aad)
  | _ => none

theorem rows_step (services : Services) (store : Store) (step : Step) :
    (store.step services step).rows =
      store.rows.map (Row.revise store.now step) ++ (store.added services step).toList := by
  have hkept {step : Step} (h : ∀ row, Row.revise store.now step row = row) :
      store.rows.map (Row.revise store.now step) = store.rows := List.map_id'' h store.rows
  cases step with
  | create creation =>
      rw [hkept fun row => rfl]
      simp only [Store.step, Store.added]
      cases activeCipher services store.env with
      | error error => simp
      | ok cipher =>
          simp only [insertExecutionInputRef]
          cases services.jsonb.store (buildRef services cipher creation).aad with
          | none => simp
          | some aad =>
              simp only [Option.bind_some]
              split <;> simp
  | configure | advance =>
      rw [hkept fun row => rfl]
      simp [Store.step, Store.added]
  | revoke scope =>
      simp only [Store.step, Store.added, revokeExecutionInputRef, Option.toList_none, List.append_nil]
      by_cases hnil : scope.inputRefID = Uuid.nil
      · rw [if_pos hnil, hkept fun row => by simp [Row.revise, hnil]]
      · rw [if_neg hnil]
        refine List.map_congr_left fun row _ => ?_
        simp [Row.revise, hnil]

/-- The step withdraws the row. -/
def Step.Revokes (step : Step) (row : Row) : Prop :=
  ∃ scope, step = .revoke scope ∧ scope.inputRefID ≠ Uuid.nil ∧ row.selected scope = true

/-- A revision changes the time of the revocation only. -/
theorem revise_eq (now : Int) (step : Step) (row : Row) :
    row.revise now step = { row with revokedAt := (row.revise now step).revokedAt } := by
  unfold Row.revise
  split
  · split <;> rfl
  · rfl

theorem isSome_revokedAt_revise (now : Int) (step : Step) (row : Row) :
    (row.revise now step).revokedAt.isSome ↔ row.revokedAt.isSome ∨ step.Revokes row := by
  cases step with
  | revoke scope =>
      by_cases hselected : scope.inputRefID ≠ Uuid.nil ∧ row.selected scope = true
      · have hrevokes : (Step.revoke scope).Revokes row := ⟨scope, rfl, hselected⟩
        simp [Row.revise, hselected, hrevokes]
      · have hkept : ¬(Step.revoke scope).Revokes row := by
          rintro ⟨_, heq, hboth⟩
          cases heq
          exact hselected hboth
        simp only [Row.revise, if_neg hselected, hkept, or_false]
  | _ => simp [Row.revise, Step.Revokes]

/-- What a history does to a row that exists. -/
def Row.after (services : Services) (store : Store) : List Step → Row → Row
  | [], row => row
  | step :: steps, row =>
      Row.after services (store.step services step) steps (row.revise store.now step)

theorem after_eq (steps : List Step) (store : Store) (row : Row) :
    row.after services store steps =
      { row with revokedAt := (row.after services store steps).revokedAt } := by
  induction steps generalizing store row with
  | nil => rfl
  | cons step steps ih =>
      rw [Row.after, ih, revise_eq]

theorem Revokes_of_eq {row' : Row} (href : row'.ref = row.ref) (htask : row'.taskID = row.taskID) :
    step.Revokes row' ↔ step.Revokes row := by
  simp only [Step.Revokes, Row.selected, href, htask]

theorem isSome_revokedAt_after (steps : List Step) (store : Store) (row : Row) :
    (row.after services store steps).revokedAt.isSome ↔
      row.revokedAt.isSome ∨ ∃ step ∈ steps, step.Revokes row := by
  induction steps generalizing store row with
  | nil => simp [Row.after]
  | cons step steps ih =>
      have hsame (later : Step) : later.Revokes (row.revise store.now step) ↔ later.Revokes row :=
        Revokes_of_eq (by rw [revise_eq]) (by rw [revise_eq])
      rw [Row.after, ih, isSome_revokedAt_revise]
      simp only [hsame, List.mem_cons, exists_eq_or_imp, or_assoc]

variable {steps : List Step} {now : Int} {creation : Creation} {aad : String}

theorem after_eq_self (hvalid : row.revokedAt = none) (hkept : ∀ step ∈ steps, ¬step.Revokes row) :
    row.after services store steps = row := by
  have hrevoked : (row.after services store steps).revokedAt = none := by
    rw [← Option.not_isSome_iff_eq_none, isSome_revokedAt_after, hvalid]
    rintro (hnone | ⟨step, hstep, hrevokes⟩)
    · cases hnone
    · exact hkept step hstep hrevokes
  rw [after_eq, hrevoked, ← hvalid]

theorem run_cons (services : Services) (store : Store) (step : Step) (steps : List Step) :
    store.run services (step :: steps) = (store.step services step).run services steps := rfl

/-- The rows after a history are those that were there and those that a step added, as the
steps after it revised them. -/
theorem mem_rows_run_iff (steps : List Step) (store : Store) :
    row ∈ (store.run services steps).rows ↔
      (∃ old ∈ store.rows, row = old.after services store steps) ∨
      ∃ before step after new, steps = before ++ step :: after ∧
        (store.run services before).added services step = some new ∧
        row = new.after services ((store.run services before).step services step) after := by
  induction steps generalizing store with
  | nil => simp [Store.run, Row.after]
  | cons step steps ih =>
      rw [run_cons, ih, rows_step]
      constructor
      · rintro (⟨old, hold, rfl⟩ | ⟨before, later, after, new, rfl, hnew, rfl⟩)
        · obtain hold | hadded := List.mem_append.mp hold
          · obtain ⟨older, hmem, rfl⟩ := List.mem_map.mp hold
            exact .inl ⟨older, hmem, rfl⟩
          · exact .inr ⟨[], step, steps, old, rfl, Option.mem_toList.mp hadded, rfl⟩
        · exact .inr ⟨step :: before, later, after, new, rfl, hnew, rfl⟩
      · rintro (⟨old, hold, rfl⟩ | ⟨before, later, after, new, hsplit, hnew, rfl⟩)
        · exact .inl ⟨_, List.mem_append_left _ (List.mem_map_of_mem hold), rfl⟩
        · cases before with
          | nil =>
              cases hsplit
              exact .inl ⟨new, List.mem_append_right _ (Option.mem_toList.mpr hnew), rfl⟩
          | cons first before =>
              cases hsplit
              exact .inr ⟨before, later, after, new, rfl, hnew, rfl⟩

/-- A step that adds a row is the creation of an input whose identifier is new. -/
theorem added_eq_some_iff :
    store.added services step = some row ↔
      ∃ creation cipher aad, step = .create creation ∧
        activeCipher services store.env = .ok cipher ∧
        services.jsonb.store (executionInputAssociatedData creation.scope cipher.keyVersion) =
          some aad ∧
        (∀ old ∈ store.rows, old.ref.id ≠ creation.scope.inputRefID) ∧
        row = .ofRef (buildRef services cipher creation) aad := by
  cases step with
  | create creation =>
      cases hactive : activeCipher services store.env with
      | error error => simp [Store.added, hactive]
      | ok cipher =>
          have hadded : store.added services (.create creation) =
              (services.jsonb.store
                (executionInputAssociatedData creation.scope cipher.keyVersion)).bind fun aad =>
                if store.rows.any fun row => row.ref.id = creation.scope.inputRefID then none
                else some (.ofRef (buildRef services cipher creation) aad) := by
            simp only [Store.added, hactive]
            rfl
          rw [hadded, Option.bind_eq_some_iff]
          constructor
          · rintro ⟨aad, hstore, hrow⟩
            split at hrow
            · cases hrow
            · rename_i hfresh
              cases hrow
              exact ⟨creation, cipher, aad, rfl, rfl, hstore, by simpa using hfresh, rfl⟩
          · rintro ⟨_, _, aad, heq, heq', hstore, hfresh, rfl⟩
            cases heq
            cases heq'
            exact ⟨aad, hstore, by simpa using hfresh⟩
  | _ => simp [Store.added]

theorem map_id_revise (now : Int) (step : Step) (rows : List Row) :
    (rows.map (Row.revise now step)).map (·.ref.id) = rows.map (·.ref.id) := by
  rw [List.map_map]
  refine List.map_congr_left fun row _ => ?_
  rw [Function.comp_apply, revise_eq]

/-- Every identifier has at most one row. -/
theorem nodup_ids_step (h : (store.rows.map (·.ref.id)).Nodup) :
    ((store.step services step).rows.map (·.ref.id)).Nodup := by
  rw [rows_step, List.map_append, map_id_revise]
  cases hadded : store.added services step with
  | none => simpa using h
  | some new =>
      obtain ⟨creation, cipher, aad, -, -, -, hfresh, rfl⟩ := added_eq_some_iff.mp hadded
      refine List.nodup_append.mpr ⟨h, by simp, ?_⟩
      intro id hid id' hid'
      obtain ⟨old, hold, rfl⟩ := List.mem_map.mp hid
      obtain rfl : id' = creation.scope.inputRefID := by
        simpa [Row.ofRef, buildRef] using hid'
      exact hfresh old hold

theorem nodup_ids_run (steps : List Step) (store : Store)
    (h : (store.rows.map (·.ref.id)).Nodup) :
    ((store.run services steps).rows.map (·.ref.id)).Nodup := by
  induction steps generalizing store with
  | nil => exact h
  | cons step steps ih => exact ih _ (nodup_ids_step h)

/-- The environments that a history sets. -/
def environments (steps : List Step) : List KeyEnvironment :=
  steps.filterMap fun
    | .configure env => some env
    | _ => none

theorem env_run_mem (steps : List Step) (store : Store) :
    (store.run services steps).env ∈ store.env :: environments steps := by
  induction steps generalizing store with
  | nil => simp [Store.run]
  | cons step steps ih =>
      rw [run_cons]
      have hrest := ih (store.step services step)
      cases step with
      | create creation =>
          have henv : (store.step services (.create creation)).env = store.env := by
            cases hactive : activeCipher services store.env <;> simp [Store.step, hactive]
          rw [henv] at hrest
          exact hrest
      | configure env => exact List.mem_cons_of_mem _ hrest
      | revoke scope => exact hrest
      | advance elapsed => exact hrest

/-! ## Answers -/

variable {scope : Scope}

/-- A row is found exactly if it is selected, valid and the only one with its identifier. -/
theorem load_eq_ok_iff {rows : List Row} (hnodup : (rows.map (·.ref.id)).Nodup) :
    loadExecutionInputRef rows now scope = .ok row ↔
      row ∈ rows ∧ row.selected scope = true ∧ row.revokedAt.isSome = false ∧
        ∀ time, row.ref.expiresAt = some time → now ≤ time := by
  have hfind : (rows.find? fun row => row.selected scope) = some row ↔
      row ∈ rows ∧ row.selected scope = true := by
    refine ⟨fun h => ⟨List.mem_of_find?_eq_some h, by simpa using List.find?_some h⟩, ?_⟩
    rintro ⟨hmem, hselected⟩
    cases hfound : rows.find? fun row => row.selected scope with
    | none => exact absurd hselected (by simpa using List.find?_eq_none.mp hfound row hmem)
    | some found =>
        have hselected' : found.selected scope = true := by simpa using List.find?_some hfound
        have hid {row : Row} (h : row.selected scope = true) : row.ref.id = scope.inputRefID :=
          ((selected_iff row scope).mp h).1
        rw [List.inj_on_of_nodup_map hnodup (List.mem_of_find?_eq_some hfound) hmem
          ((hid hselected').trans (hid hselected).symm)]
  have htask {row : Row} (h : row.selected scope = true) :
      ¬(row.taskID.getD Uuid.nil ≠ Uuid.nil ∧ row.taskID.getD Uuid.nil ≠ scope.taskID) := by
    obtain htask | htask := ((selected_iff row scope).mp h).2.2.1 <;> simp [htask]
  have hexpired (row : Row) : (row.ref.expiresAt.any fun time => decide (time < now)) = false ↔
      ∀ time, row.ref.expiresAt = some time → now ≤ time := by
    cases row.ref.expiresAt <;> simp
  unfold loadExecutionInputRef
  constructor
  · intro h
    split at h
    · cases h
    · rename_i found hfound
      dsimp only at h
      split at h
      · cases h
      · split at h
        · cases h
        · split at h
          · cases h
          · rename_i hrevoked hvalid
            cases h
            obtain ⟨hmem, hselected⟩ := hfind.mp hfound
            exact ⟨hmem, hselected, by simpa using hrevoked,
              (hexpired row).mp (by simpa using hvalid)⟩
  · rintro ⟨hmem, hselected, hrevoked, hvalid⟩
    rw [hfind.mpr ⟨hmem, hselected⟩]
    dsimp only
    rw [if_neg (htask hselected), if_neg (by simp [hrevoked]),
      if_neg (by simp [(hexpired row).mpr hvalid])]

theorem decrypt_eq_ok_iff {plaintext : List UInt8} :
    decryptExecutionInputRef services store scope = .ok plaintext ↔
      ∃ row keyring cipher, loadExecutionInputRef store.rows store.now scope = .ok row ∧
        buildExecutionInputKeyring services.sha256 store.env = .ok keyring ∧
        keyring.forVersion row.ref.keyVersion = .ok cipher ∧
        jsonValuesEqual services (executionInputAssociatedData scope row.ref.keyVersion) row.aad =
          true ∧
        services.aead.decrypt cipher.key row.ref.nonce row.ref.ciphertext
          (executionInputAssociatedData scope row.ref.keyVersion) = some plaintext ∧
        sha256InputBytes services plaintext = row.ref.digestSHA256 ∧
        plaintext.length = row.ref.plaintextBytes := by
  unfold decryptExecutionInputRef
  simp only [Validation.bind_eq_ok_iff, exists_and_left]
  refine exists_congr fun row => and_congr_right fun _ => exists_congr fun keyring =>
    and_congr_right fun _ => exists_congr fun cipher => and_congr_right fun _ => ?_
  by_cases hequal : jsonValuesEqual services
      (executionInputAssociatedData scope row.ref.keyVersion) row.aad = true
  · rw [if_neg (by simp [hequal])]
    cases services.aead.decrypt cipher.key row.ref.nonce row.ref.ciphertext
        (executionInputAssociatedData scope row.ref.keyVersion) with
    | none => simp
    | some found =>
        dsimp only
        split <;> rename_i hcheck
        · simp only [hequal, true_and, Option.some.injEq, reduceCtorEq, false_iff]
          rintro ⟨rfl, hdigest, hlength⟩
          simp [hdigest, hlength] at hcheck
        · simp only [not_or, not_not] at hcheck
          simp only [hequal, true_and, Option.some.injEq, Except.ok.injEq]
          exact ⟨fun h => ⟨h, h ▸ hcheck⟩, And.left⟩
  · simp [hequal]

/-- A stored reference opens for its own scope, and to its own plaintext. -/
theorem opens_iff {found : Cipher} {plaintext : List UInt8} (hkey : found.key = cipher.key)
    (hstore : services.jsonb.store
      (executionInputAssociatedData creation.scope cipher.keyVersion) = some aad) :
    (jsonValuesEqual services (executionInputAssociatedData scope cipher.keyVersion) aad = true ∧
      services.aead.decrypt found.key creation.nonce (buildRef services cipher creation).ciphertext
        (executionInputAssociatedData scope cipher.keyVersion) = some plaintext ∧
      sha256InputBytes services plaintext = sha256InputBytes services creation.plaintext ∧
      plaintext.length = creation.plaintext.length) ↔
    scope = creation.scope ∧ plaintext = creation.plaintext := by
  rw [jsonValuesEqual_stored_iff hstore, hkey]
  refine and_congr_right ?_
  rintro rfl
  have hopen : services.aead.decrypt cipher.key creation.nonce
      (buildRef services cipher creation).ciphertext
      (executionInputAssociatedData creation.scope cipher.keyVersion) = some creation.plaintext :=
    (services.aead.decrypt_eq_some_iff _ _ _ _ _).mpr rfl
  rw [hopen, Option.some.injEq]
  constructor
  · exact fun h => h.1.symm
  · rintro rfl
    exact ⟨rfl, rfl, rfl⟩

/-- The environments agree about the key of a version: a rotation may add and drop versions,
but does not use one for another key. -/
def KeysFixed (services : Services) (envs : List KeyEnvironment) : Prop :=
  ∀ env ∈ envs, ∀ env' ∈ envs, ∀ ring ring' version cipher cipher',
    buildExecutionInputKeyring services.sha256 env = .ok ring →
    buildExecutionInputKeyring services.sha256 env' = .ok ring' →
    ring.ciphers.find version = some cipher → ring'.ciphers.find version = some cipher' →
      cipher.key = cipher'.key

/-- The creation stores its input, with this cipher. -/
def Stores (services : Services) (store : Store) (creation : Creation) (cipher : Cipher) : Prop :=
  activeCipher services store.env = .ok cipher ∧
    (services.jsonb.store
      (executionInputAssociatedData creation.scope cipher.keyVersion)).isSome ∧
    ∀ old ∈ store.rows, old.ref.id ≠ creation.scope.inputRefID

/-- The step revokes the references of a scope.  One that was stored without a task is revoked
from every task. -/
def Step.Withdraws (step : Step) (scope : Scope) : Prop :=
  ∃ taskID, step = .revoke { scope with taskID := taskID } ∧
    (taskID = scope.taskID ∨ scope.taskID = Uuid.nil)

theorem selected_ofRef_iff :
    (Row.ofRef (buildRef services cipher creation) aad).selected scope = true ↔
      scope = { creation.scope with taskID := scope.taskID } ∧
        (scope.taskID = creation.scope.taskID ∨ creation.scope.taskID = Uuid.nil) := by
  have htask : (Row.ofRef (buildRef services cipher creation) aad).taskID = some scope.taskID ∨
      (Row.ofRef (buildRef services cipher creation) aad).taskID = none ↔
        scope.taskID = creation.scope.taskID ∨ creation.scope.taskID = Uuid.nil := by
    have hrow : (Row.ofRef (buildRef services cipher creation) aad).taskID =
        if creation.scope.taskID = Uuid.nil then none else some creation.scope.taskID := rfl
    rw [hrow]
    by_cases hnil : creation.scope.taskID = Uuid.nil
    · simp [hnil]
    · simp [hnil, eq_comm]
  rw [selected_iff, htask]
  constructor
  · rintro ⟨hid, htenant, hscope, hpurpose⟩
    refine ⟨?_, hscope⟩
    cases scope
    exact Scope.mk.injEq _ _ _ _ _ _ _ _ ▸ ⟨htenant.symm, rfl, hid.symm, hpurpose.symm⟩
  · rintro ⟨heq, hscope⟩
    rw [heq]
    exact ⟨rfl, rfl, hscope, rfl⟩

theorem revokes_ofRef_iff :
    step.Revokes (.ofRef (buildRef services cipher creation) aad) ↔
      step.Withdraws creation.scope := by
  constructor
  · rintro ⟨scope, rfl, -, hselected⟩
    obtain ⟨hscope, htask⟩ := selected_ofRef_iff.mp hselected
    exact ⟨scope.taskID, by rw [← hscope], htask⟩
  · rintro ⟨taskID, rfl, htask⟩
    exact ⟨_, rfl, creation.inputRefID_ne, selected_ofRef_iff.mpr ⟨rfl, htask⟩⟩

/-- A stored version is configured with the key that it was stored with. -/
theorem key_eq_of_history {env : KeyEnvironment} {before after : List Step} {found : Cipher}
    {keyring : Keyring} (hkeys : KeysFixed services (env :: environments steps))
    (hsteps : steps = before ++ step :: after)
    (hcipher : activeCipher services (Store.run services ⟨[], env, now⟩ before).env = .ok cipher)
    (hring : buildExecutionInputKeyring services.sha256
      (Store.run services ⟨[], env, now⟩ steps).env = .ok keyring)
    (hfound : keyring.ciphers.find cipher.keyVersion = some found) : found.key = cipher.key := by
  obtain ⟨ring, hbuild, hactive⟩ := Validation.bind_eq_ok_iff.mp hcipher
  refine hkeys _ (env_run_mem steps _) _ ?_ _ _ _ _ _ hring hbuild hfound
    (Keyring.keyVersion_of_active hactive)
  have hmem : (Store.run services ⟨[], env, now⟩ before).env ∈ env :: environments before :=
    env_run_mem before _
  rw [hsteps, environments, List.filterMap_append]
  exact List.cons_subset_cons _ (List.subset_append_left _ _) hmem

/-- A history that starts with an empty table lets exactly the rows be loaded that it stored
and neither revoked nor let expire. -/
theorem load_run_iff {env : KeyEnvironment} :
    loadExecutionInputRef (Store.run services ⟨[], env, now⟩ steps).rows
        (Store.run services ⟨[], env, now⟩ steps).now scope = .ok row ↔
      ∃ before creation after cipher aad, steps = before ++ .create creation :: after ∧
        Stores services (Store.run services ⟨[], env, now⟩ before) creation cipher ∧
        services.jsonb.store (executionInputAssociatedData creation.scope cipher.keyVersion) =
          some aad ∧
        row = .ofRef (buildRef services cipher creation) aad ∧ row.selected scope = true ∧
        (∀ step ∈ after, ¬step.Withdraws creation.scope) ∧
        ∀ time, creation.expiresAt = some time →
          (Store.run services ⟨[], env, now⟩ steps).now ≤ time := by
  have hnodup : ((Store.run services ⟨[], env, now⟩ steps).rows.map (·.ref.id)).Nodup :=
    nodup_ids_run steps _ (by simp)
  rw [load_eq_ok_iff hnodup, mem_rows_run_iff]
  constructor
  · rintro ⟨⟨_, hnil, -⟩ | ⟨before, step, after, new, hsteps, hadded, hrow⟩, hselected, hrevoked,
      hvalid⟩
    · cases hnil
    · obtain ⟨creation, cipher, aad, rfl, hcipher, hstore, hfresh, rfl⟩ :=
        added_eq_some_iff.mp hadded
      have hkept := hrow ▸ hrevoked
      rw [hrow, after_eq] at hvalid
      rw [Bool.eq_false_iff, ne_eq, isSome_revokedAt_after] at hkept
      have hsame : row = .ofRef (buildRef services cipher creation) aad := by
        have hnone : row.revokedAt = none := by simpa using hrevoked
        rw [hrow, after_eq, ← hrow, hnone]
        rfl
      refine ⟨before, creation, after, cipher, aad, hsteps, ⟨hcipher, by simp [hstore], hfresh⟩,
        hstore, hsame, hselected, ?_, hvalid⟩
      intro step hstep hwithdraws
      exact hkept (.inr ⟨step, hstep, revokes_ofRef_iff.mpr hwithdraws⟩)
  · rintro ⟨before, creation, after, cipher, aad, hsteps, ⟨hcipher, -, hfresh⟩, hstore, rfl,
      hselected, hkept, hvalid⟩
    have hadded := added_eq_some_iff.mpr ⟨creation, cipher, aad, rfl, hcipher, hstore, hfresh, rfl⟩
    refine ⟨.inr ⟨before, _, after, _, hsteps, hadded, Eq.symm (after_eq_self rfl ?_)⟩, hselected,
      rfl, hvalid⟩
    intro step hstep hrevokes
    exact hkept step hstep (revokes_ofRef_iff.mp hrevokes)

end Histories

/-- In every history a request is answered with a plaintext exactly if the plaintext was stored
for the scope of the request, its reference was not revoked since and has not expired, and the
version of its key is configured. -/
theorem decrypts_iff (services : Services) (env : KeyEnvironment) (now : Int) (steps : List Step)
    (hkeys : KeysFixed services (env :: environments steps)) (scope : Scope)
    (plaintext : List UInt8) :
    let final := Store.run services ⟨[], env, now⟩ steps
    decryptExecutionInputRef services final scope = .ok plaintext ↔
      ∃ before creation after cipher, steps = before ++ .create creation :: after ∧
        Stores services (Store.run services ⟨[], env, now⟩ before) creation cipher ∧
        creation.scope = scope ∧ creation.plaintext = plaintext ∧
        (∀ step ∈ after, ¬step.Withdraws scope) ∧
        (∀ time, creation.expiresAt = some time → final.now ≤ time) ∧
        ∃ keyring, buildExecutionInputKeyring services.sha256 final.env = .ok keyring ∧
          (keyring.ciphers.find cipher.keyVersion).isSome := by
  intro final
  rw [decrypt_eq_ok_iff]
  constructor
  · rintro ⟨row, keyring, found, hload, hring, hversion, hopens⟩
    obtain ⟨before, creation, after, cipher, aad, hsteps, hstores, hstore, rfl, -, hkept, hvalid⟩ :=
      load_run_iff.mp hload
    have hfind := (keyring.forVersion_keyVersion cipher found).mp hversion
    obtain ⟨rfl, rfl⟩ :=
      (opens_iff (key_eq_of_history hkeys hsteps hstores.1 hring hfind) hstore).mp hopens
    exact ⟨before, creation, after, cipher, hsteps, hstores, rfl, rfl, hkept, hvalid, keyring, hring,
      by simp [hfind]⟩
  · rintro ⟨before, creation, after, cipher, hsteps, hstores, rfl, rfl, hkept, hvalid, keyring,
      hring, hfind⟩
    obtain ⟨aad, hstore⟩ := Option.isSome_iff_exists.mp hstores.2.1
    obtain ⟨found, hfind⟩ := Option.isSome_iff_exists.mp hfind
    have hload := load_run_iff.mpr ⟨before, creation, after, cipher, aad, hsteps, hstores, hstore,
      rfl, selected_ofRef_iff.mpr ⟨rfl, .inl rfl⟩, hkept, hvalid⟩
    exact ⟨_, keyring, found, hload, hring, (keyring.forVersion_keyVersion cipher found).mpr hfind,
      (opens_iff (key_eq_of_history hkeys hsteps hstores.1 hring hfind) hstore).mpr ⟨rfl, rfl⟩⟩

/-- Services that do not hide anything. -/
def plainServices : Services where
  aead := {
    encrypt := fun _ _ plaintext _ => plaintext
    decrypt := fun _ _ ciphertext _ => some ciphertext
    decrypt_eq_some_iff := by simp }
  jsonb := { store := some, parse_store := by simp +contextual }
  sha256 := id
  float64 := some

def firstCipher : Cipher where
  keyVersion := "v1"
  key := List.replicate 32 0
  length_key := Text.length_zeros
  keyVersion_trimmed := by decide +kernel
  keyVersion_ne := by decide

def secondCipher : Cipher where
  keyVersion := "v2"
  key := List.replicate 32 255
  length_key := by simp
  keyVersion_trimmed := by decide +kernel
  keyVersion_ne := by decide

def firstEnvironment : KeyEnvironment where
  keys := "v1:AAAAAAAAAAAAAAAAAAAAAAAAAAAAAAAAAAAAAAAAAAA="
  activeKeyVersion := "v1"
  legacyKey := ""
  legacyKeyVersion := ""

/-- The key is rotated, and the old one stays. -/
def secondEnvironment : KeyEnvironment where
  keys := "v1:AAAAAAAAAAAAAAAAAAAAAAAAAAAAAAAAAAAAAAAAAAA=, " ++
    "v2://////////////////////////////////////////8="
  activeKeyVersion := "v2"
  legacyKey := ""
  legacyKeyVersion := ""

theorem build_firstEnvironment : buildExecutionInputKeyring id firstEnvironment =
    .ok ⟨"v1", Ciphers.empty.add firstCipher⟩ := by
  decide +kernel

theorem build_secondEnvironment : buildExecutionInputKeyring id secondEnvironment =
    .ok ⟨"v2", (Ciphers.empty.add firstCipher).add secondCipher⟩ := by
  decide +kernel

/-- The rotation adds a version. -/
theorem keysFixed_rotation : KeysFixed plainServices [firstEnvironment, secondEnvironment] := by
  have hkey : ∀ env ∈ [firstEnvironment, secondEnvironment], ∀ ring version cipher,
      buildExecutionInputKeyring id env = .ok ring → ring.ciphers.find version = some cipher →
        cipher.key = if version = "v1" then firstCipher.key else secondCipher.key := by
    intro env henv ring version cipher hring hfind
    have hversion := ring.ciphers.2 _ _ hfind
    simp only [List.mem_cons, List.not_mem_nil, or_false] at henv
    obtain rfl | rfl := henv
    · rw [build_firstEnvironment] at hring
      cases hring
      simp only [Ciphers.find, Ciphers.add, Ciphers.empty, Assoc.get_insert, Assoc.get] at hfind
      split at hfind
      · cases hfind
        simp_all [firstCipher]
      · cases hfind
    · rw [build_secondEnvironment] at hring
      cases hring
      simp only [Ciphers.find, Ciphers.add, Ciphers.empty, Assoc.get_insert, Assoc.get] at hfind
      split at hfind
      · cases hfind
        simp_all [secondCipher]
      · split at hfind
        · cases hfind
          simp_all [firstCipher]
        · cases hfind
  intro env henv env' henv' ring ring' version cipher cipher' hring hring' hfind hfind'
  rw [hkey env henv ring version cipher hring hfind,
    hkey env' henv' ring' version cipher' hring' hfind']

def storedInput : Creation where
  scope := { tenantID := "acme", taskID := 1, inputRefID := 2, purpose := "signed_url" }
  inputRefID_ne := by decide
  nonce := []
  plaintext := [104, 105]
  expiresAt := some 10

def rotation : List Step :=
  [.create storedInput, .configure secondEnvironment, .advance 10]

/-- An input that was stored before a rotation is still returned after it. -/
theorem decrypted_after_rotation :
    decryptExecutionInputRef plainServices
      (Store.run plainServices ⟨[], firstEnvironment, 0⟩ rotation) storedInput.scope =
        .ok [104, 105] := by
  refine (decrypts_iff plainServices firstEnvironment 0 rotation keysFixed_rotation _ _).mpr ?_
  refine ⟨[], storedInput, _, firstCipher, rfl, ?_, rfl, rfl, ?_, ?_, _, build_secondEnvironment, ?_⟩
  · exact ⟨Validation.bind_eq_ok_iff.mpr ⟨_, build_firstEnvironment, by decide +kernel⟩, rfl,
      by simp [Store.run]⟩
  · intro step hstep
    simp only [List.mem_cons, List.not_mem_nil, or_false] at hstep
    obtain rfl | rfl := hstep <;> simp [Step.Withdraws]
  · intro time htime
    cases htime
    decide +kernel
  · decide +kernel

end InputRefs
end Igris
