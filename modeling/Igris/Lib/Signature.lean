import Igris.Lib.Encoding
import Igris.Lib.Json

/-!
# Signatures over JSON texts

Signatures are made over the digest of a compact JSON text.  The party that verifies
prints the value again, possibly with another library.

Main results:

- Structure {lit}`Signing`: what is assumed about the digest and the signature.
- Theorem {lit}`serdeText_eq_goText_iff`: two libraries print the same text exactly if the
  value has no character that only one of them escapes.
-/

/-- Signing with one key.  A signature verifies for the text that it was made for and for
no other; one of the wrong length does not verify. -/
structure Signing where
  sha256 : String → List UInt8
  sha256_ne_nil : ∀ text, sha256 text ≠ []
  publicKey : List UInt8
  length_publicKey : publicKey.length = 32
  sign : List UInt8 → List UInt8
  sign_ne_nil : ∀ digest, sign digest ≠ []
  verify : List UInt8 → List UInt8 → List UInt8 → Bool
  verify_sign_iff : ∀ text signed,
    verify publicKey (sha256 text) (sign (sha256 signed)) = true ↔ text = signed

namespace Signing

-- the requirements are consistent: the text itself serves as digest and as signature
instance : Inhabited Signing where
  default := {
    sha256 := fun text => 0 :: text.toByteArray.data.toList
    sha256_ne_nil := by simp
    publicKey := List.replicate 32 0
    length_publicKey := by simp
    sign := fun digest => 0 :: digest
    sign_ne_nil := by simp
    verify := fun _ digest signature => decide (signature = 0 :: digest)
    verify_sign_iff := by
      intro text signed
      simp [Array.toList_inj, ← ByteArray.ext_iff, String.toByteArray_inj, eq_comm] }

/-- The signature over a text, in base64. -/
def signText (scheme : Signing) (text : String) : String :=
  Text.base64Encode (scheme.sign (scheme.sha256 text))

theorem signText_ne_empty (scheme : Signing) (text : String) : scheme.signText text ≠ "" := by
  intro hempty
  have hdecode := Text.base64Decode_base64Encode (scheme.sign (scheme.sha256 text))
  rw [← signText, hempty] at hdecode
  have hnil : scheme.sign (scheme.sha256 text) = [] := by
    simpa [Text.base64Decode, Text.base64DecodeChars] using hdecode.symm
  exact scheme.sign_ne_nil _ hnil

end Signing

namespace Json

/-- No text of the value has a character that only one of the libraries escapes. -/
def HtmlFree (value : Json) : Prop :=
  ∀ text ∈ texts value, ∀ c ∈ text.toList, htmlEscaped c = false

/-- Text of a value as the Go library writes it. -/
def goText (value : Json) : String := String.ofList (print goEscape value)

/-- Text of a value as serde writes it. -/
def serdeText (value : Json) : String := String.ofList (print serdeEscape value)

theorem serdeText_eq_goText_iff (value : Json) :
    serdeText value = goText value ↔ HtmlFree value := by
  rw [serdeText, goText, String.ofList_inj]
  exact print_serde_eq_print_go_iff value

end Json
