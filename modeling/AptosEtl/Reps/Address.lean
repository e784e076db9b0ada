import AptosEtl.Reps.Crates

/-!
# Addresses and hashes

`reps/address.rs` and `reps/hashval.rs`. An address arrives as bytes or as text and is published
as `0x` and 64 hexadecimal digits. `tryFixString` gets there by validating and repairing, at most
ten times, and has an `unreachable!` after the last attempt. A repaired text has the prefix and
at least 66 bytes, which are the two defects that are repaired, so two attempts are enough
(`tryFixString_settles`).
-/

namespace AptosEtl.Reps

open Rust Input

/-! ## Texts -/

/-- `char::is_ascii_hexdigit`. -/
def isAsciiHexdigit (c : Char) : Bool :=
  ('0' ≤ c && c ≤ '9') || ('a' ≤ c && c ≤ 'f') || ('A' ≤ c && c ≤ 'F')

/-- A string has at least as many bytes as characters. -/
theorem length_le_utf8ByteSize (s : String) : s.length ≤ s.utf8ByteSize := by
  -- every character takes at least one byte, by induction on the list of them
  have key : ∀ l : List Char, l.length ≤ (String.ofList l).utf8ByteSize := by
    intro l
    induction l with
    | nil => simp
    | cons c l ih =>
      have hc := c.utf8Size_pos
      rw [← List.singleton_append, String.ofList_append, String.utf8ByteSize_append,
        ← String.singleton_eq_ofList, String.utf8ByteSize_singleton]
      simp only [List.singleton_append, List.length_cons]
      omega
  have h := key s.toList
  rwa [String.ofList_toList, String.length_toList] at h

/-! ## Addresses -/

/-- The reasons for which an address text is refused. -/
inductive AddressErrorType where
  | MissingPrefix
  | TooLong (length : ℕ)
  | TooShort (length : ℕ)
  | NonHexChars (chars : String)
  deriving DecidableEq, Repr

/-- An address, as bytes or as text. -/
inductive Address where
  | bytes (value : Bytes)
  | string (value : String)
  deriving DecidableEq, Repr

/-- A refused address with the reason. -/
structure AddressError where
  address : Address
  error : AddressErrorType
  deriving DecidableEq, Repr

namespace Address

/-- `ADDRESS_PREFIX`. -/
def addressPrefix : List Char := ['0', 'x']

/-- `ADDRESS_FORMATTED_LENGTH`. -/
def addressFormattedLength : ℕ := 64

/-- `NUMBER_ATTEMPTS`. -/
def numberAttempts : ℕ := 10

/-- `str::starts_with(ADDRESS_PREFIX)`. -/
def hasPrefix (string : String) : Bool := addressPrefix.isPrefixOf string.toList

/-- `Address::strip_prefix`. -/
def stripPrefix (string : String) : String :=
  if hasPrefix string then String.ofList (string.toList.drop addressPrefix.length) else string

/-- `format!("0x{:0>64}", s)`: the width counts characters. -/
def padded (string : String) : String :=
  String.ofList (addressPrefix ++
    (List.replicate (addressFormattedLength - string.length) '0' ++ string.toList))

/-- `Address::validate_string`: the first defect found, where the length counts bytes. -/
def validateString (string : String) : Except AddressErrorType Unit :=
  if !hasPrefix string then
    .error .MissingPrefix
  else if string.utf8ByteSize < addressFormattedLength + addressPrefix.length then
    .error (.TooShort string.utf8ByteSize)
  else if string.utf8ByteSize > addressFormattedLength + addressPrefix.length then
    .error (.TooLong string.utf8ByteSize)
  else if !(stripPrefix string).toList.all isAsciiHexdigit then
    -- the offending characters of the whole text, so the `x` of the prefix is among them
    .error (.NonHexChars (String.ofList (string.toList.filter fun c => !isAsciiHexdigit c)))
  else
    .ok ()

/-- The loop of `Address::try_fix_string` with `n` attempts left. A text that is too short is
repaired from the original one, a text without the prefix from the current one. -/
def tryFixStringLoop (string : String) : ℕ → String → Outcome AddressErrorType String
  | 0, _ => .panic "Should have returned from inside the loop."
  | n + 1, address =>
    match validateString address with
    | .ok () => .ok address
    | .error .MissingPrefix => tryFixStringLoop string n (padded address)
    | .error (.TooShort _) => tryFixStringLoop string n (padded (stripPrefix string))
    -- `TooLong` and `NonHexChars` cannot be repaired
    | .error badError => .err badError

/-- `Address::try_fix_string`. -/
def tryFixString (string : String) : Outcome AddressErrorType String :=
  tryFixStringLoop string numberAttempts string

/-- `Address::try_encode`. -/
def tryEncode (crates : Crates) (self : Address) : Outcome AddressError String :=
  (tryFixString (match self with
    | .bytes b => crates.hexEncode b
    | .string s => s)).mapErr fun error => ⟨self, error⟩

/-- A padded text starts with the prefix. -/
theorem hasPrefix_padded (s : String) : hasPrefix (padded s) = true := by
  simp [hasPrefix, padded, addressPrefix]

/-- A padded text has at least the 66 characters of a formatted address. -/
theorem le_length_padded (s : String) :
    addressFormattedLength + addressPrefix.length ≤ (padded s).length := by
  simp only [padded, String.length_ofList, List.length_append, List.length_replicate,
    String.length_toList]
  omega

/-- A padded text has neither of the defects that are repaired: the loop returns on it. -/
theorem tryFixStringLoop_padded_settles (string s : String) (n : ℕ) :
    (tryFixStringLoop string (n + 1) (padded s)).Settles := by
  have hlen := le_length_padded s
  have hbytes := length_le_utf8ByteSize (padded s)
  have hpre := hasPrefix_padded s
  have hshort : ¬ (padded s).utf8ByteSize < addressFormattedLength + addressPrefix.length := by
    omega
  unfold tryFixStringLoop validateString
  simp only [hpre, Bool.not_true, Bool.false_eq_true, if_false, hshort]
  -- what is left of the chain of checks either accepts the text or refuses it for good
  split_ifs <;> simp

/-- The repair loop returns: the `unreachable!` after it is dead. -/
theorem tryFixString_settles (string : String) : (tryFixString string).Settles := by
  unfold tryFixString numberAttempts tryFixStringLoop
  -- a first repair leaves a padded text, and a padded text is not repaired again
  split
  · exact Outcome.settles_ok _
  · exact tryFixStringLoop_padded_settles _ _ _
  · exact tryFixStringLoop_padded_settles _ _ _
  · exact Outcome.settles_err _

/-- Encoding an address returns. -/
theorem tryEncode_settles {crates : Crates} (self : Address) :
    (self.tryEncode crates).Settles := by
  unfold tryEncode
  rw [Outcome.settles_mapErr]
  exact tryFixString_settles _

end Address

/-! ## Encoded addresses are standardized -/

/-- `0x` and exactly 64 hexadecimal digits. -/
def Standardized (address : String) : Prop :=
  ∃ digits : List Char, address.toList = Address.addressPrefix ++ digits ∧
    digits.length = Address.addressFormattedLength ∧
      ∀ digit ∈ digits, isAsciiHexdigit digit = true

/-- A hexadecimal digit is ASCII. -/
theorem toNat_le_of_isAsciiHexdigit {c : Char} (h : isAsciiHexdigit c = true) :
    c.toNat ≤ 127 := by
  simp only [isAsciiHexdigit, Bool.or_eq_true, Bool.and_eq_true, decide_eq_true_eq,
    Char.le_def, UInt32.le_iff_toNat_le] at h
  have h9 : '9'.val.toNat = 57 := rfl
  have hf : 'f'.val.toNat = 102 := rfl
  have hF : 'F'.val.toNat = 70 := rfl
  change c.val.toNat ≤ 127
  omega

/-- A hexadecimal digit takes one byte. -/
theorem utf8Size_of_isAsciiHexdigit {c : Char} (h : isAsciiHexdigit c = true) :
    c.utf8Size = 1 := by
  have hle : c.val.toNat ≤ 127 := toNat_le_of_isAsciiHexdigit h
  unfold Char.utf8Size
  rw [if_pos (UInt32.le_iff_toNat_le.2 hle)]

/-- A list of characters of one byte each has as many bytes as characters. -/
theorem utf8ByteSize_eq_length {chars : List Char} (h : ∀ c ∈ chars, c.utf8Size = 1) :
    (String.ofList chars).utf8ByteSize = chars.length := by
  induction chars with
  | nil => simp
  | cons c chars ih =>
    rw [← List.singleton_append, String.ofList_append, String.utf8ByteSize_append,
      ← String.singleton_eq_ofList, String.utf8ByteSize_singleton, h c List.mem_cons_self,
      ih fun d hd => h d (List.mem_cons_of_mem c hd), List.length_append, List.length_singleton]

namespace Address

/-- A text that is valid is standardized: the length counts bytes, of which a digit takes one. -/
theorem standardized_of_validateString {string : String} (h : validateString string = .ok ()) :
    Standardized string := by
  unfold validateString at h
  split_ifs at h with hprefix hshort hlong hdigits
  have hprefix : addressPrefix <+: string.toList := by
    simpa [hasPrefix] using hprefix
  obtain ⟨digits, hdigits'⟩ := hprefix
  have hstripped : (stripPrefix string).toList = digits := by
    rw [stripPrefix, if_pos (by simpa using ‹¬ (!hasPrefix string) = true›), ← hdigits',
      String.toList_ofList, List.drop_left]
  have hhex : ∀ digit ∈ digits, isAsciiHexdigit digit = true := by
    rw [hstripped] at hdigits
    simpa using hdigits
  refine ⟨digits, hdigits'.symm, ?_, hhex⟩
  have hprefixAscii : ∀ c ∈ addressPrefix, c.utf8Size = 1 :=
    List.forall_mem_cons.2 ⟨rfl, List.forall_mem_singleton.2 rfl⟩
  -- every character is ASCII, so the 66 bytes are 66 characters
  have hsize : string.utf8ByteSize = string.toList.length := by
    have hascii : ∀ c ∈ string.toList, c.utf8Size = 1 := by
      intro c hc
      rw [← hdigits', List.mem_append] at hc
      rcases hc with hc | hc
      · exact hprefixAscii c hc
      · exact utf8Size_of_isAsciiHexdigit (hhex c hc)
    rw [← utf8ByteSize_eq_length hascii, String.ofList_toList]
  rw [← hdigits', List.length_append] at hsize
  omega

/-- What the repair loop returns is valid. -/
theorem validateString_of_tryFixStringLoop {string fixed : String} {n : ℕ} {address : String}
    (h : tryFixStringLoop string n address = .ok fixed) : validateString fixed = .ok () := by
  induction n generalizing address with
  | zero => exact nomatch h
  | succ n ih =>
    rw [tryFixStringLoop] at h
    split at h
    case h_1 hvalid =>
      obtain rfl := Outcome.ok.inj h
      exact hvalid
    case h_2 => exact ih h
    case h_3 => exact ih h
    case h_4 => exact nomatch h

/-- An encoded address is standardized. -/
theorem standardized_of_tryEncode {crates : Crates} {self : Address} {encoded : String}
    (h : self.tryEncode crates = .ok encoded) : Standardized encoded :=
  standardized_of_validateString
    (validateString_of_tryFixStringLoop (Outcome.mapErr_eq_ok.1 h))

end Address

/-! ## Hashes -/

/-- `HashValue`. -/
structure HashValue where
  bytes : Bytes
  deriving DecidableEq, Repr

/-- `HashValue::encode`. -/
def HashValue.encode (crates : Crates) (self : HashValue) : String :=
  "0x" ++ crates.hexEncode self.bytes

/-- Different hashes are encoded differently. -/
theorem HashValue.encode_injective (crates : Crates) :
    Function.Injective (HashValue.encode crates) := by
  intro x y h
  obtain ⟨bytes⟩ := x
  obtain ⟨bytes'⟩ := y
  have hbytes : bytes = bytes' := crates.hexEncode_injective (String.append_right_inj "0x" |>.1 h)
  rw [hbytes]

end AptosEtl.Reps
