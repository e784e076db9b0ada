import Mathlib.Data.Nat.Digits.Defs
import AptosEtl.Reps.Address

/-!
# What standardizing an address accepts

`Address::try_fix_string` validates and repairs in a loop, so what it accepts is not read off the
text of any one of its tests. It comes to this (`tryFixString_eq_ok`): without one leading `0x` the
text has at most 64 characters, all hexadecimal digits, and then the result is that text padded.
The length is measured in bytes and the padding in characters, which makes no difference where
the text is accepted, since a digit is one of both.
-/

namespace AptosEtl.Reps

open Rust Input

namespace Address

/-! ## Texts that are valid -/

/-- The prefix is its own two bytes. -/
theorem utf8ByteSize_addressPrefix_append {digits : List Char}
    (h : ∀ digit ∈ digits, isAsciiHexdigit digit = true) :
    (String.ofList (addressPrefix ++ digits)).utf8ByteSize =
      addressPrefix.length + digits.length := by
  have hstarts : ∀ c ∈ addressPrefix, c.utf8Size = 1 := by
    rintro c hc
    rcases List.mem_cons.1 hc with rfl | hc
    · rfl
    · rw [List.mem_singleton.1 hc]
      rfl
  have hascii : ∀ c ∈ addressPrefix ++ digits, c.utf8Size = 1 := by
    intro c hc
    rcases List.mem_append.1 hc with hc | hc
    · exact hstarts c hc
    · exact utf8Size_of_isAsciiHexdigit (h c hc)
  rw [utf8ByteSize_eq_length hascii, List.length_append]

/-- A text with the prefix is the prefix and what is left without it. -/
theorem toList_of_hasPrefix {string : String} (h : hasPrefix string = true) :
    string.toList = addressPrefix ++ (stripPrefix string).toList := by
  obtain ⟨rest, hrest⟩ : addressPrefix <+: string.toList := by simpa [hasPrefix] using h
  rw [stripPrefix, if_pos h, ← hrest, String.toList_ofList, List.drop_left]

/-- A text that does not have the prefix is its own stripped text. -/
theorem stripPrefix_of_not_hasPrefix {string : String} (h : hasPrefix string = false) :
    stripPrefix string = string := by
  rw [stripPrefix, h]
  rfl

/-- Stripping a text that is the prefix and something leaves that. -/
theorem toList_stripPrefix_of_toList {string : String} {digits : List Char}
    (h : string.toList = addressPrefix ++ digits) : (stripPrefix string).toList = digits := by
  have hstarts : hasPrefix string = true := by
    rw [hasPrefix, h, List.isPrefixOf_iff_prefix]
    exact List.prefix_append _ _
  exact List.append_cancel_left ((toList_of_hasPrefix hstarts).symm.trans h)

/-- A text is valid exactly when it is standardized. -/
theorem validateString_eq_ok {string : String} :
    validateString string = .ok () ↔ Standardized string := by
  constructor
  · exact standardized_of_validateString
  · rintro ⟨digits, hdigits, hlength, hhex⟩
    have hstarts : hasPrefix string = true := by
      rw [hasPrefix, hdigits, List.isPrefixOf_iff_prefix]
      exact List.prefix_append _ _
    have hsize : string.utf8ByteSize = addressFormattedLength + addressPrefix.length := by
      have hbytes := utf8ByteSize_addressPrefix_append hhex
      rw [← hdigits, String.ofList_toList, hlength] at hbytes
      omega
    have hall : (stripPrefix string).toList.all isAsciiHexdigit = true := by
      rw [toList_stripPrefix_of_toList hdigits]
      simpa using hhex
    simp only [validateString, hstarts, hsize, hall, Bool.not_true, Bool.false_eq_true, if_false,
      lt_irrefl]

/-- Only a text without the prefix is refused for that. -/
theorem not_hasPrefix_of_validateString {string : String}
    (h : validateString string = .error .MissingPrefix) : hasPrefix string = false := by
  unfold validateString at h
  by_contra hstarts
  rw [Bool.not_eq_false] at hstarts
  rw [hstarts, Bool.not_true, if_neg Bool.false_ne_true] at h
  split_ifs at h <;> simp at h

/-- Only a text of fewer bytes than a formatted address is refused as too short. -/
theorem lt_of_validateString {string : String} {length : ℕ}
    (h : validateString string = .error (.TooShort length)) :
    string.utf8ByteSize < addressFormattedLength + addressPrefix.length := by
  unfold validateString at h
  by_contra hlong
  rw [if_neg hlong] at h
  split_ifs at h <;> simp at h

/-- At most 64 hexadecimal digits: what a padded text must be padded from. -/
def Paddable (digits : List Char) : Prop :=
  digits.length ≤ addressFormattedLength ∧ ∀ digit ∈ digits, isAsciiHexdigit digit = true

/-- A padded text is standardized exactly when it was padded from at most 64 digits. -/
theorem standardized_padded {string : String} :
    Standardized (padded string) ↔ Paddable string.toList := by
  have hlist : (padded string).toList = addressPrefix ++
      (List.replicate (addressFormattedLength - string.length) '0' ++ string.toList) :=
    String.toList_ofList
  constructor
  · rintro ⟨digits, hdigits, hlength, hhex⟩
    obtain rfl := List.append_cancel_left (hdigits.symm.trans hlist)
    refine ⟨?_, fun digit hdigit => hhex digit (List.mem_append_right _ hdigit)⟩
    rw [List.length_append] at hlength
    omega
  · rintro ⟨hlength, hhex⟩
    refine ⟨_, hlist, ?_, ?_⟩
    · rw [List.length_append, List.length_replicate, String.length_toList]
      rw [String.length_toList] at hlength
      omega
    · intro digit hdigit
      rcases List.mem_append.1 hdigit with hzero | hdigit
      · rw [List.eq_of_mem_replicate hzero]
        rfl
      · exact hhex digit hdigit

/-- A standardized text is what its digits are padded to. -/
theorem padded_stripPrefix_of_standardized {string : String} (h : Standardized string) :
    padded (stripPrefix string) = string := by
  obtain ⟨digits, hdigits, hlength, -⟩ := h
  have hstripped := toList_stripPrefix_of_toList hdigits
  have hfull : (stripPrefix string).length = addressFormattedLength := by
    rw [← String.length_toList, hstripped, hlength]
  rw [padded, hfull, Nat.sub_self, List.replicate_zero, List.nil_append, hstripped, ← hdigits,
    String.ofList_toList]

/-! ## The repair loop -/

/-- On a padded text the loop returns that text or refuses it for good. -/
theorem tryFixStringLoop_padded_eq_ok {string s fixed : String} {n : ℕ} :
    tryFixStringLoop string (n + 1) (padded s) = .ok fixed ↔
      Paddable s.toList ∧ fixed = padded s := by
  have hlen := le_length_padded s
  have hbytes := length_le_utf8ByteSize (padded s)
  rw [tryFixStringLoop, ← standardized_padded, ← validateString_eq_ok]
  -- a padded text has the prefix and is not too short
  split
  case h_1 hvalid => simp [hvalid, eq_comm]
  case h_2 hmissing =>
    have hstarts := not_hasPrefix_of_validateString hmissing
    exact absurd (hstarts.symm.trans (hasPrefix_padded s)) Bool.false_ne_true
  case h_3 hshort =>
    have hlt := lt_of_validateString hshort
    omega
  case h_4 hbad => simp [hbad]

/-- A text that is neither valid nor repaired is not the prefix and at most 64 digits. -/
theorem not_paddable_of_validateString {string : String} {error : AddressErrorType}
    (h : validateString string = .error error) (hmissing : error ≠ .MissingPrefix)
    (hshort : ∀ length, error ≠ .TooShort length) : ¬ Paddable (stripPrefix string).toList := by
  rintro ⟨hlength, hhex⟩
  have hstarts : hasPrefix string = true := by
    by_contra hnot
    rw [validateString, if_pos (by simpa using hnot)] at h
    exact hmissing (Except.error.inj h).symm
  have hlist := toList_of_hasPrefix hstarts
  have hsize : string.utf8ByteSize = addressPrefix.length + (stripPrefix string).toList.length := by
    rw [← utf8ByteSize_addressPrefix_append hhex, ← hlist, String.ofList_toList]
  rcases Nat.lt_or_eq_of_le hlength with hlt | heq
  · -- fewer digits: the text is too short, which is repaired
    rw [validateString, if_neg (by simp [hstarts]), if_pos (by omega)] at h
    exact hshort _ (Except.error.inj h).symm
  · -- exactly 64 of them: the text is valid
    have hvalid := validateString_eq_ok.2 ⟨_, hlist, heq, hhex⟩
    exact nomatch h.symm.trans hvalid

/-- What `tryFixString` accepts and what it makes of it. -/
theorem tryFixString_eq_ok {string fixed : String} :
    tryFixString string = .ok fixed ↔
      Paddable (stripPrefix string).toList ∧ fixed = padded (stripPrefix string) := by
  unfold tryFixString numberAttempts
  rw [tryFixStringLoop]
  split
  case h_1 hvalid =>
    have hstandard := validateString_eq_ok.1 hvalid
    have hpadded := padded_stripPrefix_of_standardized hstandard
    have hpaddable : Paddable (stripPrefix string).toList := by
      rw [← standardized_padded, hpadded]
      exact hstandard
    rw [hpadded]
    simp [hpaddable, eq_comm]
  case h_2 hmissing =>
    have hstarts := not_hasPrefix_of_validateString hmissing
    rw [tryFixStringLoop_padded_eq_ok, stripPrefix_of_not_hasPrefix hstarts]
  case h_3 => exact tryFixStringLoop_padded_eq_ok
  case h_4 error hmissing hshort hbad =>
    have hnot := not_paddable_of_validateString hbad hmissing hshort
    simp [hnot]

/-! ## Bytes -/

/-- The two digits of each byte are hexadecimal. -/
theorem isAsciiHexdigit_lowerHex {bytes : Bytes} :
    ∀ digit ∈ (lowerHex bytes).toList, isAsciiHexdigit digit = true := by
  have hdigit : ∀ n < 16, isAsciiHexdigit (hexDigit n) = true := by decide
  intro digit h
  rw [lowerHex, String.toList_ofList, List.mem_flatMap] at h
  obtain ⟨byte, -, h⟩ := h
  have hbyte := byte.toNat_lt
  rcases List.mem_cons.1 h with rfl | h
  · exact hdigit _ (by omega)
  · rw [List.mem_singleton.1 h]
    exact hdigit _ (by omega)

/-- There are two digits for each byte. -/
theorem length_lowerHex (bytes : Bytes) : (lowerHex bytes).toList.length = 2 * bytes.length := by
  rw [lowerHex, String.toList_ofList, List.length_flatMap]
  simp [mul_comm]

/-- Hexadecimal digits do not have the prefix, of which the second character is not one. -/
theorem hasPrefix_of_isAsciiHexdigit {string : String}
    (h : ∀ digit ∈ string.toList, isAsciiHexdigit digit = true) : hasPrefix string = false := by
  by_contra hstarts
  have hlist := toList_of_hasPrefix (by simpa using hstarts)
  have hx : 'x' ∈ string.toList := by
    rw [hlist]
    simp [addressPrefix]
  exact absurd (h 'x' hx) (by decide)

/-! ## Numeric value -/

/-- The number that a hexadecimal digit, in either case, stands for. -/
def digitValue (digit : Char) : ℕ :=
  if '0' ≤ digit ∧ digit ≤ '9' then digit.toNat - '0'.toNat
  else if 'a' ≤ digit ∧ digit ≤ 'f' then digit.toNat - 'a'.toNat + 10
  else digit.toNat - 'A'.toNat + 10

/-- The number that hexadecimal digits stand for, the first of them the most significant. -/
def numericValue (digits : List Char) : ℕ := Nat.ofDigits 16 (digits.reverse.map digitValue)

/-- Zeros in front do not change the number. -/
theorem numericValue_replicate_append (n : ℕ) (digits : List Char) :
    numericValue (List.replicate n '0' ++ digits) = numericValue digits := by
  have hzero : digitValue '0' = 0 := rfl
  rw [numericValue, List.reverse_append, List.map_append, List.reverse_replicate,
    List.map_replicate, hzero, Nat.ofDigits_append_replicate_zero, numericValue]

/-- The digits of a padded text stand for the number that they stood for before. -/
theorem numericValue_padded (string : String) :
    numericValue (stripPrefix (padded string)).toList = numericValue string.toList := by
  have hlist : (stripPrefix (padded string)).toList =
      List.replicate (addressFormattedLength - string.length) '0' ++ string.toList :=
    toList_stripPrefix_of_toList String.toList_ofList
  rw [hlist, numericValue_replicate_append]

/-! ## Standardization -/

/-- A text that standardization returns is returned again. -/
theorem tryFixString_fixed {string fixed : String} (h : tryFixString string = .ok fixed) :
    tryFixString fixed = .ok fixed := by
  obtain ⟨hpaddable, rfl⟩ := tryFixString_eq_ok.1 h
  have hstandard := standardized_padded.2 hpaddable
  have hpadded := padded_stripPrefix_of_standardized hstandard
  rw [tryFixString_eq_ok, ← standardized_padded, hpadded]
  exact ⟨hstandard, rfl⟩

/-- Bytes are encoded exactly when there are at most 32 of them. -/
theorem tryEncode_bytes_eq_ok (crates : Crates) (bytes : Bytes) :
    (∃ encoded, (Address.bytes bytes).tryEncode crates = .ok encoded) ↔ bytes.length ≤ 32 := by
  have hhex : ∀ digit ∈ (lowerHex bytes).toList, isAsciiHexdigit digit = true :=
    isAsciiHexdigit_lowerHex
  have hstrip := stripPrefix_of_not_hasPrefix (hasPrefix_of_isAsciiHexdigit hhex)
  have hpaddable : Paddable (lowerHex bytes).toList ↔ bytes.length ≤ 32 := by
    rw [Paddable, and_iff_left hhex, length_lowerHex, addressFormattedLength]
    omega
  rw [← hpaddable]
  simp only [tryEncode, crates.hexEncode_eq, Outcome.mapErr_eq_ok, tryFixString_eq_ok, hstrip,
    exists_and_left, exists_eq, and_true]

/-- Standardization returns for every text, and accepts a text exactly when it is at most 64
hexadecimal digits after at most one `0x`. The result is these digits padded with zeros to 64 of
them: the same number, and a text that is left as it is. As bytes, 32 of them are the most. -/
theorem standardization_exact (crates : Crates) :
    (∀ string : String,
      (tryFixString string).Settles ∧
        ((∃ fixed, tryFixString string = .ok fixed) ↔ Paddable (stripPrefix string).toList) ∧
        ∀ fixed, tryFixString string = .ok fixed →
          fixed.toList = ['0', 'x'] ++ (List.replicate (64 - (stripPrefix string).length) '0' ++
              (stripPrefix string).toList) ∧
            fixed.length = 66 ∧
            numericValue (stripPrefix fixed).toList = numericValue (stripPrefix string).toList ∧
            tryFixString fixed = .ok fixed) ∧
      ∀ bytes : Bytes,
        (∃ encoded, (Address.bytes bytes).tryEncode crates = .ok encoded) ↔ bytes.length ≤ 32 := by
  refine ⟨fun string => ⟨tryFixString_settles string, ?_, ?_⟩, tryEncode_bytes_eq_ok crates⟩
  · simp only [tryFixString_eq_ok, exists_and_left, exists_eq, and_true]
  · intro fixed h
    have hfixed := tryFixString_fixed h
    obtain ⟨hpaddable, rfl⟩ := tryFixString_eq_ok.1 h
    have hlist : (padded (stripPrefix string)).toList = addressPrefix ++
        (List.replicate (addressFormattedLength - (stripPrefix string).length) '0' ++
          (stripPrefix string).toList) := String.toList_ofList
    obtain ⟨digits, hdigits, hlength, -⟩ := standardized_padded.2 hpaddable
    refine ⟨hlist, ?_, numericValue_padded _, hfixed⟩
    rw [← String.length_toList, hdigits, List.length_append, hlength]
    rfl

/-- The text with the most digits that are accepted, without a prefix, and 32 bytes. -/
theorem standardization_exact_full :
    tryFixString (String.ofList (List.replicate 64 'F')) =
        .ok (String.ofList (addressPrefix ++ List.replicate 64 'F')) ∧
      tryFixString (String.ofList (addressPrefix ++ List.replicate 64 'F')) =
        .ok (String.ofList (addressPrefix ++ List.replicate 64 'F')) ∧
      ∃ encoded, (Address.bytes (List.replicate 32 255)).tryEncode sampleCrates = .ok encoded := by
  have hfixed : tryFixString (String.ofList (List.replicate 64 'F')) =
      .ok (String.ofList (addressPrefix ++ List.replicate 64 'F')) := by decide +kernel
  obtain ⟨hstrings, hbytes⟩ := standardization_exact sampleCrates
  obtain ⟨-, -, hstandard⟩ := hstrings (String.ofList (List.replicate 64 'F'))
  obtain ⟨-, -, -, hagain⟩ := hstandard _ hfixed
  exact ⟨hfixed, hagain, (hbytes _).2 (by decide)⟩

end Address

end AptosEtl.Reps
