import Igris.Lib.Text
import Igris.Lib.Validation

/-!
# Python values in evidence

Arguments and results of guarded functions are graphs of objects, which may be cyclic.
The SDK replaces the values under sensitive names, converts what is left to a canonical
structure and hashes its JSON text.  Every step may raise: the redaction runs into the
recursion limit on a graph that is too deep, reading a field may fail, and a text with a
lone surrogate has no encoding.
-/

namespace Igris
namespace Sdk

/-! ## Objects -/

/-- A text of Python: its code points, lone surrogates included. -/
abbrev PyText := List Nat

instance : LawfulBEq PyText :=
  inferInstance

def pyText (text : String) : PyText := text.toList.map Char.toNat

/-- What an object looks like to the redactor.  Fields whose names are texts come first: data
classes and named tuples are {lit}`named`.  A field is {lit}`none` if reading it raises, a
key is {lit}`none` if it is no text.  No name and no key occurs twice. -/
inductive Shape (ι : Type) where
  | none
  | bool (value : Bool)
  | int (value : Int)
  | float (text : PyText) (isFinite : Bool)
  | str (text : PyText)
  | named (fields : List (PyText × Option ι))
  | dict (entries : List (Option PyText × ι))
  | sequence (items : List ι)
  | other

structure PyObject (ι : Type) where
  typeName : PyText
  shape : Shape ι

/-- The objects that exist, by their identity. -/
abbrev Heap (ι : Type) := ι → PyObject ι

/-- A finite value in containers of its own. -/
inductive PyValue where
  | none
  | bool (value : Bool)
  | int (value : Int)
  | float (text : PyText) (isFinite : Bool)
  | str (text : PyText)
  | list (items : List PyValue)
  | dict (entries : List (Option PyText × PyValue))
  | other (typeName : PyText)

inductive PyException where
  | canonicalizationError
  | recursionError
  | attributeError
  | valueError
  | unicodeEncodeError
deriving DecidableEq, Repr

/-- The interpreter that runs the SDK. -/
structure PyRuntime where
  lower : PyText → PyText
  /-- Calls that fit on the stack. -/
  stack : Nat
  /-- Longest decimal text of an integer. -/
  maxStrDigits : Nat
  sha256 : PyText → List UInt8

def sha256HexOf (py : PyRuntime) (text : PyText) : String := Text.hexEncode (py.sha256 text)

/-! ## Redaction -/

def redactedMarker : PyValue := .str (pyText "<REDACTED>")

/-- Names that are always sensitive, in lower case. -/
def sensitiveNames : List PyText :=
  ["api_key", "apikey", "password", "passwd", "secret", "token", "access_token",
    "refresh_token", "private_key", "credential", "authorization", "auth_header",
    "client_secret"].map pyText

def buildSensitiveSet (py : PyRuntime) (extraNames : List PyText) : List PyText :=
  sensitiveNames ++ extraNames.map py.lower

def isSensitiveName (py : PyRuntime) (sensitive : List PyText) (name : PyText) : Bool :=
  decide (py.lower name ∈ sensitive)

/-- The key is a sensitive name. -/
def isSensitiveKey (py : PyRuntime) (sensitive : List PyText) (key : Option PyText) : Bool :=
  key.any (isSensitiveName py sensitive)

variable {ι : Type}

/-- A field that is read. -/
def getAttribute (field : Option ι) : Except PyException ι :=
  match field with
  | none => .error .attributeError
  | some value => .ok value

/-- Redact what is under sensitive names; the number is that of the calls that still fit on
the stack. -/
def redactValue (py : PyRuntime) (sensitive : List PyText) (heap : Heap ι) :
    Nat → ι → Except PyException PyValue
  | 0, _ => .error .recursionError
  | stack + 1, value =>
      match (heap value).shape with
      | .named fields => do
          let entries ← fields.mapM fun field => do
            if isSensitiveName py sensitive field.1 then return (some field.1, redactedMarker)
            else
              let item ← getAttribute field.2
              return (some field.1, ← redactValue py sensitive heap stack item)
          return .dict entries
      | .dict entries => do
          let entries ← entries.mapM fun entry => do
            if isSensitiveKey py sensitive entry.1 then return (entry.1, redactedMarker)
            else return (entry.1, ← redactValue py sensitive heap stack entry.2)
          return .dict entries
      | .sequence items => do
          let items ← items.mapM (redactValue py sensitive heap stack)
          return .list items
      | .none => return .none
      | .bool value => return .bool value
      | .int value => return .int value
      | .float text isFinite => return .float text isFinite
      | .str text => return .str text
      | .other => return .other (heap value).typeName

/-- Redact the arguments of a call, by the names of the parameters. -/
def redactArguments (py : PyRuntime) (sensitive : List PyText) (heap : Heap ι)
    (arguments : List (PyText × ι)) : Except PyException PyValue := do
  let entries ← arguments.mapM fun argument => do
    if isSensitiveName py sensitive argument.1 then return (some argument.1, redactedMarker)
    else return (some argument.1, ← redactValue py sensitive heap py.stack argument.2)
  return .dict entries

/-- The texts of at least four characters that stand under sensitive names. -/
def walkSensitive (py : PyRuntime) (sensitive : List PyText) (heap : Heap ι) :
    Nat → Option PyText → ι → Except PyException (List PyText)
  | 0, _, _ => .error .recursionError
  | stack + 1, name, value =>
      if isSensitiveKey py sensitive name then
        match (heap value).shape with
        | .str text => return if 4 ≤ text.length then [text] else []
        | _ => return []
      else
        match (heap value).shape with
        | .named fields => do
            let found ← fields.mapM fun field => do
              let item ← getAttribute field.2
              walkSensitive py sensitive heap stack (some field.1) item
            return found.flatten
        | .dict entries => do
            let found ← entries.mapM fun entry =>
              walkSensitive py sensitive heap stack entry.1 entry.2
            return found.flatten
        | .sequence items => do
            let found ← items.mapM (walkSensitive py sensitive heap stack none)
            return found.flatten
        | _ => return []

def collectSensitiveRawValues (py : PyRuntime) (sensitive : List PyText) (heap : Heap ι)
    (arguments : List (PyText × ι)) : Except PyException (List PyText) := do
  let found ← arguments.mapM fun argument =>
    walkSensitive py sensitive heap py.stack (some argument.1) argument.2
  return found.flatten

/-! ## Canonical structure -/

def maxDepth : Nat := 64

def unsupportedMarker (typeName : PyText) : PyValue :=
  .str (pyText "<igris:unsupported:" ++ typeName ++ pyText ">")

def nonStringKeyMarker : PyValue := .str (pyText "<igris:unsupported:mapping-with-non-string-keys>")

/-- A call that is as deep as it says: the stack has room for it, and the nesting is allowed. -/
def enter (py : PyRuntime) (depth : Nat) (body : Except PyException PyValue) :
    Except PyException PyValue :=
  if py.stack ≤ depth then .error .recursionError
  else if maxDepth < depth then .error .canonicalizationError
  else body

mutual

/-- Convert a redacted value.  Its containers are new, so none of them contains itself. -/
def toCanonical (py : PyRuntime) (depth : Nat) : PyValue → Except PyException PyValue
  | .none => enter py depth (.ok .none)
  | .bool value => enter py depth (.ok (.bool value))
  | .int value => enter py depth (.ok (.int value))
  | .str text => enter py depth (.ok (.str text))
  | .float text isFinite => enter py depth
      (if isFinite then .ok (.float text isFinite) else .error .canonicalizationError)
  | .list items => enter py depth (do return .list (← toCanonicalItems py (depth + 1) items))
  | .dict entries => enter py depth
      (if entries.all fun entry => entry.1.isSome then do
        return .dict (← toCanonicalEntries py (depth + 1) entries)
      else .ok nonStringKeyMarker)
  | .other typeName => enter py depth (.ok (unsupportedMarker typeName))

def toCanonicalItems (py : PyRuntime) (depth : Nat) :
    List PyValue → Except PyException (List PyValue)
  | [] => .ok []
  | item :: items => do
      let item ← toCanonical py depth item
      return item :: (← toCanonicalItems py depth items)

def toCanonicalEntries (py : PyRuntime) (depth : Nat) :
    List (Option PyText × PyValue) → Except PyException (List (Option PyText × PyValue))
  | [] => .ok []
  | (key, value) :: entries => do
      let value ← toCanonical py depth value
      return (key, value) :: (← toCanonicalEntries py depth entries)

end

/-! ## JSON texts -/

/-- Characters that are written with a backslash and a letter. -/
def shortEscape (code : Nat) : Option PyText :=
  if code = 0x22 then some (pyText "\\\"")
  else if code = 0x5C then some (pyText "\\\\")
  else if code = 0x0A then some (pyText "\\n")
  else if code = 0x0D then some (pyText "\\r")
  else if code = 0x09 then some (pyText "\\t")
  else if code = 0x0C then some (pyText "\\f")
  else if code = 0x08 then some (pyText "\\b")
  else none

/-- Everything else that is no control character stands for itself, surrogates included. -/
def escapeCode (code : Nat) : PyText :=
  match shortEscape code with
  | some text => text
  | none =>
      if code < 0x20 then pyText "\\u00" ++ pyText (Text.hexEncode [UInt8.ofNat code])
      else [code]

def quoted (text : PyText) : PyText :=
  pyText "\"" ++ text.flatMap escapeCode ++ pyText "\""

def joined (separator : PyText) : List PyText → PyText
  | [] => []
  | [text] => text
  | text :: texts => text ++ separator ++ joined separator texts

def decimalText (py : PyRuntime) (value : Int) : Except PyException PyText :=
  if py.maxStrDigits < value.natAbs.repr.length then .error .valueError
  else .ok (pyText value.repr)

/-- Entries in the order of their keys. -/
def sortedByKey (entries : List (PyText × PyText)) : List (PyText × PyText) :=
  entries.insertionSort fun a b => a.1 ≤ b.1

mutual

/-- The JSON text of a canonical structure, with sorted keys.  The error for a value that is
not canonical is that of a wrong type or of a number that is not finite. -/
def dumps (py : PyRuntime) (comma colon : PyText) : PyValue → Except PyException PyText
  | .none => .ok (pyText "null")
  | .bool value => .ok (pyText (if value then "true" else "false"))
  | .int value => decimalText py value
  | .float text isFinite => if isFinite then .ok text else .error .valueError
  | .str text => .ok (quoted text)
  | .list items => do
      let texts ← dumpsItems py comma colon items
      return pyText "[" ++ joined comma texts ++ pyText "]"
  | .dict entries => do
      let texts ← dumpsEntries py comma colon entries
      return pyText "\x7b" ++ joined comma ((sortedByKey texts).map fun entry =>
        quoted entry.1 ++ colon ++ entry.2) ++ pyText "\x7d"
  | .other _ => .error .valueError

def dumpsItems (py : PyRuntime) (comma colon : PyText) :
    List PyValue → Except PyException (List PyText)
  | [] => .ok []
  | item :: items => do
      let text ← dumps py comma colon item
      return text :: (← dumpsItems py comma colon items)

def dumpsEntries (py : PyRuntime) (comma colon : PyText) :
    List (Option PyText × PyValue) → Except PyException (List (PyText × PyText))
  | [] => .ok []
  | (key, value) :: entries => do
      let text ← dumps py comma colon value
      return (key.getD [], text) :: (← dumpsEntries py comma colon entries)

end

def isSurrogate (code : Nat) : Bool := decide (0xD800 ≤ code ∧ code ≤ 0xDFFF)

/-- The canonical text.  It stands for its encoding; a lone surrogate has none, and that
error is raised outside of the block that catches the others. -/
def canonicalJsonBytesOf (py : PyRuntime) (value : PyValue) : Except PyException PyText :=
  match dumps py (pyText ",") (pyText ":") value with
  | .error _ => .error .canonicalizationError
  | .ok text => if text.any isSurrogate then .error .unicodeEncodeError else .ok text

/-! ## Summaries -/

def truncated (text : PyText) (limit : Nat) : PyText :=
  if text.length ≤ limit then text else text.take limit ++ pyText "...(truncated)"

def maxSummaryValueChars : Nat := 120
def maxSummaryTotalChars : Nat := 2000

/-- A short line for prompts and events. -/
def boundedSummary (py : PyRuntime) (value : PyValue) : Except PyException PyText :=
  match value with
  | .dict entries => do
      let texts ← dumpsEntries py (pyText ", ") (pyText ": ") entries
      return truncated (joined (pyText ", ") ((sortedByKey texts).map fun entry =>
        entry.1 ++ pyText "=" ++ truncated entry.2 maxSummaryValueChars)) maxSummaryTotalChars
  | value => do
      return truncated (← dumps py (pyText ", ") (pyText ": ") value) maxSummaryTotalChars

/-- Replace the occurrences of a text from left to right; the counter is the number of
characters that belong to an occurrence already replaced. -/
def replaced (needle new : PyText) : Nat → PyText → PyText
  | _, [] => []
  | skip + 1, _ :: codes => replaced needle new skip codes
  | 0, code :: codes =>
      if needle.isPrefixOf (code :: codes) then new ++ replaced needle new (needle.length - 1) codes
      else code :: replaced needle new 0 codes

def scrubText (text : PyText) (rawSensitiveValues : List PyText) : PyText :=
  truncated (rawSensitiveValues.foldl (fun text raw =>
    if raw.isEmpty then text else replaced raw (pyText "<REDACTED>") 0 text) text) 300

/-! ## What redaction raises -/

section Raises

variable {py : PyRuntime} {sensitive : List PyText} {heap : Heap ι}

open Validation

theorem getAttribute_error {field : Option ι} {err : PyException}
    (h : getAttribute field = .error err) : err = .attributeError := by
  cases field <;> simp_all [getAttribute]

/-- Redaction raises nothing that is caught when a result is hashed. -/
theorem redactValue_error {stack : Nat} {value : ι} {err : PyException}
    (h : redactValue py sensitive heap stack value = .error err) :
    err = .recursionError ∨ err = .attributeError := by
  induction stack generalizing value err with
  | zero =>
      cases h
      exact .inl rfl
  | succ stack ih =>
      simp only [redactValue] at h
      split at h
      case h_1 fields _ =>
        simp only [bind_eq_error_iff, pure, Except.pure, reduceCtorEq, and_false, exists_false,
          or_false] at h
        obtain ⟨field, -, hfield⟩ := exists_of_mapM_eq_error h
        split at hfield
        · cases hfield
        · simp only [bind_eq_error_iff, reduceCtorEq, and_false, exists_false, or_false] at hfield
          rcases hfield with hattribute | ⟨item, -, hitem⟩
          · exact .inr (getAttribute_error hattribute)
          · exact ih hitem
      case h_2 entries _ =>
        simp only [bind_eq_error_iff, pure, Except.pure, reduceCtorEq, and_false, exists_false,
          or_false] at h
        obtain ⟨entry, -, hentry⟩ := exists_of_mapM_eq_error h
        split at hentry
        · cases hentry
        · simp only [bind_eq_error_iff, reduceCtorEq, and_false, exists_false, or_false] at hentry
          exact ih hentry
      case h_3 items _ =>
        simp only [bind_eq_error_iff, pure, Except.pure, reduceCtorEq, and_false, exists_false,
          or_false] at h
        obtain ⟨item, -, hitem⟩ := exists_of_mapM_eq_error h
        exact ih hitem
      all_goals cases h

end Raises

end Sdk
end Igris
