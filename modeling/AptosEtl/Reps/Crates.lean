import AptosEtl.Lib.Outcome
import AptosEtl.Proto.Input

/-!
# Other crates

Parsing JSON, formatting a date and encoding base64 or hexadecimal text are done by crates that are
not part of the repository, so they are the fields of `Crates`, a parameter of the transformation.
Nothing is assumed of them, except that `hex` writes what it is documented to write.
-/

namespace AptosEtl.Reps

open Rust Input

/-- One hexadecimal digit, in lower case. -/
def hexDigit (n : ℕ) : Char := Nat.digitChar n

/-- Two lower-case digits for each byte. -/
def lowerHex (bytes : Bytes) : String :=
  String.ofList (bytes.flatMap fun b => [hexDigit (b.toNat / 16), hexDigit (b.toNat % 16)])

/-- What the transformation takes from other crates. -/
structure Crates where
  /-- `serde_json::from_str::<serde_json::Value>` accepts the text. -/
  isJson : String → Bool
  /-- `chrono::DateTime::from_timestamp` has a value for these seconds and nanoseconds. -/
  isUtc : ℤ → ℕ → Bool
  /-- `chrono::DateTime::format`, with a format that chrono accepts. -/
  format : String → ℤ → ℕ → String
  /-- The format that `get_timestamp_format` finds in the environment, unless loading it fails. -/
  timestampFormat : Option String
  /-- `BASE64_STANDARD.encode`. -/
  base64 : Bytes → String
  /-- `hex::encode`. -/
  hexEncode : Bytes → String
  /-- It writes two lower-case digits for each byte. -/
  hexEncode_eq : ∀ bytes, hexEncode bytes = lowerHex bytes

/-- The two digits of a byte are its own. -/
theorem byte_eq_of_hexDigits {a b : UInt8}
    (hhigh : hexDigit (a.toNat / 16) = hexDigit (b.toNat / 16))
    (hlow : hexDigit (a.toNat % 16) = hexDigit (b.toNat % 16)) : a = b := by
  have hdigit : ∀ m < 16, ∀ n < 16, hexDigit m = hexDigit n → m = n := by decide
  have ha := a.toNat_lt
  have hb := b.toNat_lt
  have hdiv := hdigit _ (by omega) _ (by omega) hhigh
  have hmod := hdigit _ (by omega) _ (by omega) hlow
  exact UInt8.toNat_inj.1 (by omega)

/-- Different bytes are encoded differently. -/
theorem Crates.hexEncode_injective (crates : Crates) : Function.Injective crates.hexEncode := by
  intro xs ys h
  rw [crates.hexEncode_eq, crates.hexEncode_eq] at h
  have hdigits := String.ofList_injective h
  clear h
  -- byte by byte, each of which takes two digits
  induction xs generalizing ys with
  | nil =>
    cases ys with
    | nil => rfl
    | cons y ys => exact nomatch hdigits
  | cons x xs ih =>
    cases ys with
    | nil => exact nomatch hdigits
    | cons y ys =>
      rw [List.flatMap_cons, List.flatMap_cons] at hdigits
      obtain ⟨hhigh, hdigits⟩ := List.cons.inj hdigits
      obtain ⟨hlow, hdigits⟩ := List.cons.inj hdigits
      rw [byte_eq_of_hexDigits hhigh hlow, ih hdigits]

/-- The crates at the texts of the samples: `{}` is JSON and the empty text is not, the epoch is a
date, and only empty bytes are written as base64. -/
def sampleCrates : Crates where
  isJson text := text = "\x7b\x7d"
  isUtc _ _ := true
  format _ _ _ := "1970-01-01 00:00:00"
  timestampFormat := some "%Y-%m-%d %H:%M:%S"
  base64 _ := ""
  hexEncode := lowerHex
  hexEncode_eq _ := rfl

end AptosEtl.Reps
