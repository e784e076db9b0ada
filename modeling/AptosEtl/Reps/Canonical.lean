import AptosEtl.Reps.Standardize

/-!
# Canonical addresses

An address is published in 64 hexadecimal digits, whether it came as bytes or as text. The bytes
are written in lower case, and a text keeps the case of its letters. So two addresses are published
alike exactly when they denote the same number and the letters of their digits are in the same case
(`eq_iff_of_tryEncode`).
-/

namespace AptosEtl.Reps.Address

open Rust Input

/-! ## Digits and numbers -/

/-- The hexadecimal digits of an address, without the prefix. -/
def digits : Address → List Char
  | .bytes b => (lowerHex b).toList
  | .string s => (stripPrefix s).toList

/-- The number that bytes stand for, the first of them the most significant. -/
def bytesValue (bytes : Bytes) : ℕ := Nat.ofDigits 256 (bytes.reverse.map UInt8.toNat)

/-- The number that an address denotes. -/
def value : Address → ℕ
  | .bytes b => bytesValue b
  | .string s => numericValue (stripPrefix s).toList

/-- The case of a letter, true for upper case, and none for a decimal digit. -/
def letterCase (digit : Char) : Option Bool :=
  if 'a' ≤ digit ∧ digit ≤ 'f' then some false
  else if 'A' ≤ digit ∧ digit ≤ 'F' then some true
  else none

/-- The cases of the letters among some digits, in order. -/
def letterCases (digits : List Char) : List Bool := digits.filterMap letterCase

/-- The first digit is the most significant. -/
theorem numericValue_cons (digit : Char) (digits : List Char) :
    numericValue (digit :: digits) =
      numericValue digits + 16 ^ digits.length * digitValue digit := by
  rw [numericValue, numericValue, List.map_reverse, List.map_reverse, List.map_cons,
    Nat.ofDigits_reverse_cons, List.length_map]

/-- The first byte is the most significant. -/
theorem bytesValue_cons (byte : UInt8) (bytes : Bytes) :
    bytesValue (byte :: bytes) = bytesValue bytes + 256 ^ bytes.length * byte.toNat := by
  rw [bytesValue, bytesValue, List.map_reverse, List.map_reverse, List.map_cons,
    Nat.ofDigits_reverse_cons, List.length_map]

/-- The digits of bytes stand for the number of the bytes. -/
theorem numericValue_lowerHex (bytes : Bytes) :
    numericValue (lowerHex bytes).toList = bytesValue bytes := by
  have hdigit : ∀ n < 16, digitValue (hexDigit n) = n := by decide
  rw [lowerHex, String.toList_ofList]
  induction bytes with
  | nil => rfl
  | cons byte bytes ih =>
    have hbyte := byte.toNat_lt
    have hlength : (bytes.flatMap fun b =>
        [hexDigit (b.toNat / 16), hexDigit (b.toNat % 16)]).length = 2 * bytes.length := by
      rw [← length_lowerHex, lowerHex, String.toList_ofList]
    have hpow : 16 ^ (2 * bytes.length) = 256 ^ bytes.length := pow_mul 16 2 _
    rw [List.flatMap_cons, List.cons_append, List.singleton_append, numericValue_cons,
      numericValue_cons, ih, List.length_cons, hlength, hdigit _ (by omega), hdigit _ (by omega),
      bytesValue_cons, pow_succ, hpow]
    have hsplit := Nat.div_add_mod byte.toNat 16
    conv_rhs => rw [← hsplit]
    ring

/-- The digits of an address stand for its number. -/
theorem numericValue_digits (self : Address) : numericValue self.digits = self.value := by
  cases self with
  | bytes b => exact numericValue_lowerHex b
  | string s => rfl

/-! ## Digits that stand for one number -/

/-- A digit is determined by its value and its case. The values from 10 on are those of letters. -/
theorem digit_cases {c : Char} (h : isAsciiHexdigit c = true) :
    (letterCase c = none ∧ digitValue c < 10 ∧ c.toNat = digitValue c + 48) ∨
    (letterCase c = some false ∧ 10 ≤ digitValue c ∧ digitValue c < 16 ∧
      c.toNat = digitValue c + 87) ∨
    (letterCase c = some true ∧ 10 ≤ digitValue c ∧ digitValue c < 16 ∧
      c.toNat = digitValue c + 55) := by
  have hle : ∀ a b : Char, a ≤ b ↔ a.toNat ≤ b.toNat := fun _ _ => UInt32.le_iff_toNat_le
  have h0 : '0'.toNat = 48 := rfl
  have h9 : '9'.toNat = 57 := rfl
  have ha : 'a'.toNat = 97 := rfl
  have hf : 'f'.toNat = 102 := rfl
  have hA : 'A'.toNat = 65 := rfl
  have hF : 'F'.toNat = 70 := rfl
  simp only [isAsciiHexdigit, Bool.or_eq_true, Bool.and_eq_true, decide_eq_true_eq, hle, h0, h9,
    ha, hf, hA, hF] at h
  simp only [letterCase, digitValue, hle, h0, h9, ha, hf, hA, hF]
  obtain (hdecimal | hlower) | hupper := h
  · left
    rw [if_neg (by omega), if_neg (by omega), if_pos hdecimal]
    exact ⟨rfl, by omega, by omega⟩
  · right; left
    rw [if_pos hlower, if_neg (by omega), if_pos hlower]
    exact ⟨rfl, by omega, by omega, by omega⟩
  · right; right
    rw [if_neg (by omega), if_pos hupper, if_neg (by omega), if_neg (by omega)]
    exact ⟨rfl, by omega, by omega, by omega⟩

/-- Of digits with one value, both are letters or none is, and they are the same exactly when their
cases are. -/
theorem eq_iff_letterCase {c d : Char} (hc : isAsciiHexdigit c = true)
    (hd : isAsciiHexdigit d = true) (h : digitValue c = digitValue d) :
    ((letterCase c).isSome ↔ (letterCase d).isSome) ∧
      (c = d ↔ letterCase c = letterCase d) := by
  rw [← Char.toNat_inj]
  obtain ⟨hcase, hvalue⟩ | ⟨hcase, hvalue⟩ | ⟨hcase, hvalue⟩ := digit_cases hc <;>
    obtain ⟨hcase', hvalue'⟩ | ⟨hcase', hvalue'⟩ | ⟨hcase', hvalue'⟩ := digit_cases hd <;>
    rw [hcase, hcase'] <;> simp <;> omega

/-- Digits that stand for one number, place by place, are the same exactly when the cases of their
letters are. -/
theorem eq_iff_letterCases {xs ys : List Char} (hxs : ∀ c ∈ xs, isAsciiHexdigit c = true)
    (hys : ∀ c ∈ ys, isAsciiHexdigit c = true) (h : xs.map digitValue = ys.map digitValue) :
    xs = ys ↔ letterCases xs = letterCases ys := by
  induction xs generalizing ys with
  | nil =>
    rw [List.map_nil, eq_comm, List.map_eq_nil_iff] at h
    rw [h]
    simp
  | cons x xs ih =>
    cases ys with
    | nil => cases h
    | cons y ys =>
      obtain ⟨hdigit, hrest⟩ := List.cons.inj h
      obtain ⟨hx, hxs⟩ := List.forall_mem_cons.1 hxs
      obtain ⟨hy, hys⟩ := List.forall_mem_cons.1 hys
      obtain ⟨hletter, heq⟩ := eq_iff_letterCase hx hy hdigit
      have hih := ih hxs hys hrest
      unfold letterCases at hih ⊢
      rw [List.cons.injEq, heq, hih, List.filterMap_cons, List.filterMap_cons]
      -- both are letters or none is
      cases hcx : letterCase x with
      | none =>
        cases hcy : letterCase y with
        | none => simp
        | some cy => simp [hcx, hcy] at hletter
      | some cx =>
        cases hcy : letterCase y with
        | none => simp [hcx, hcy] at hletter
        | some cy => simp

/-- Digits of one length that stand for one number stand for it place by place. -/
theorem map_digitValue_eq {xs ys : List Char} (hxs : ∀ c ∈ xs, isAsciiHexdigit c = true)
    (hys : ∀ c ∈ ys, isAsciiHexdigit c = true) (hlength : xs.length = ys.length)
    (h : numericValue xs = numericValue ys) : xs.map digitValue = ys.map digitValue := by
  have hlt : ∀ zs : List Char, (∀ c ∈ zs, isAsciiHexdigit c = true) →
      ∀ n ∈ zs.reverse.map digitValue, n < 16 := by
    intro zs hzs n hn
    obtain ⟨c, hc, rfl⟩ := List.mem_map.1 hn
    have hcases := digit_cases (hzs c (List.mem_reverse.1 hc))
    omega
  have hreverse := Nat.ofDigits_inj_of_len_eq (by decide : 1 < 16) (by simp [hlength])
    (hlt xs hxs) (hlt ys hys) h
  rw [List.map_reverse, List.map_reverse] at hreverse
  exact List.reverse_injective hreverse

/-! ## Addresses that are encoded -/

/-- What an address is encoded to: its digits, padded. -/
theorem tryEncode_eq_ok {crates : Crates} {self : Address} {encoded : String}
    (h : self.tryEncode crates = .ok encoded) :
    Paddable self.digits ∧ encoded = padded (String.ofList self.digits) := by
  obtain ⟨hpaddable, hencoded⟩ := tryFixString_eq_ok.1 (Outcome.mapErr_eq_ok.1 h)
  cases self with
  | bytes b =>
    -- the digits of bytes do not have the prefix
    have hstrip : stripPrefix (lowerHex b) = lowerHex b :=
      stripPrefix_of_not_hasPrefix (hasPrefix_of_isAsciiHexdigit isAsciiHexdigit_lowerHex)
    simp only [crates.hexEncode_eq, hstrip] at hpaddable hencoded
    exact ⟨hpaddable, by rw [hencoded, digits, String.ofList_toList]⟩
  | string s => exact ⟨hpaddable, by rw [hencoded, digits, String.ofList_toList]⟩

/-- The digits that an address is published with. -/
def paddedDigits (self : Address) : List Char :=
  List.replicate (addressFormattedLength - self.digits.length) '0' ++ self.digits

/-- Zeros in front are no letters. -/
theorem letterCases_paddedDigits (self : Address) :
    letterCases self.paddedDigits = letterCases self.digits := by
  have hzero : letterCase '0' = none := rfl
  rw [paddedDigits, letterCases, List.filterMap_append, List.filterMap_replicate_of_none hzero,
    List.nil_append, letterCases]

/-- Zeros in front do not change the number. -/
theorem numericValue_paddedDigits (self : Address) :
    numericValue self.paddedDigits = self.value := by
  rw [paddedDigits, numericValue_replicate_append, numericValue_digits]

/-- There are 64 digits, all hexadecimal. -/
theorem paddedDigits_spec {self : Address} (h : Paddable self.digits) :
    self.paddedDigits.length = addressFormattedLength ∧
      ∀ c ∈ self.paddedDigits, isAsciiHexdigit c = true := by
  obtain ⟨hlength, hhex⟩ := h
  constructor
  · rw [paddedDigits, List.length_append, List.length_replicate]
    omega
  · intro c hc
    rcases List.mem_append.1 hc with hzero | hdigit
    · rw [List.eq_of_mem_replicate hzero]
      rfl
    · exact hhex c hdigit

/-- Padding writes the prefix and these digits. -/
theorem padded_digits (self : Address) :
    padded (String.ofList self.digits) = String.ofList (addressPrefix ++ self.paddedDigits) := by
  rw [padded, paddedDigits, String.length_ofList, String.toList_ofList]

/-- Two addresses that are encoded are encoded alike exactly when they denote the same number and
the letters of their digits are in the same case. -/
theorem eq_iff_of_tryEncode {crates : Crates} {a b : Address} {encodedA encodedB : String}
    (ha : a.tryEncode crates = .ok encodedA) (hb : b.tryEncode crates = .ok encodedB) :
    encodedA = encodedB ↔ a.value = b.value ∧ letterCases a.digits = letterCases b.digits := by
  obtain ⟨hpaddableA, rfl⟩ := tryEncode_eq_ok ha
  obtain ⟨hpaddableB, rfl⟩ := tryEncode_eq_ok hb
  obtain ⟨hlengthA, hhexA⟩ := paddedDigits_spec hpaddableA
  obtain ⟨hlengthB, hhexB⟩ := paddedDigits_spec hpaddableB
  rw [padded_digits, padded_digits, String.ofList_inj, List.append_right_inj,
    ← numericValue_paddedDigits a, ← numericValue_paddedDigits b, ← letterCases_paddedDigits a,
    ← letterCases_paddedDigits b]
  constructor
  · intro h
    rw [h]
    exact ⟨rfl, rfl⟩
  · rintro ⟨hvalue, hcases⟩
    have hdigits := map_digitValue_eq hhexA hhexB (hlengthA.trans hlengthB.symm) hvalue
    exact (eq_iff_letterCases hhexA hhexB hdigits).2 hcases

/-- Two forms of one address are encoded alike exactly when their letters are in the same case. -/
theorem canonical_iff {crates : Crates} {a b : Address} {encodedA encodedB : String}
    (ha : a.tryEncode crates = .ok encodedA) (hb : b.tryEncode crates = .ok encodedB)
    (h : a.value = b.value) :
    encodedA = encodedB ↔ letterCases a.digits = letterCases b.digits := by
  rw [eq_iff_of_tryEncode ha hb, and_iff_right h]

/-- A text in lower case and the byte that it stands for. -/
theorem canonical_iff_sample :
    ∃ encodedA encodedB, (Address.string "0xa").tryEncode sampleCrates = .ok encodedA ∧
      (Address.bytes [10]).tryEncode sampleCrates = .ok encodedB ∧
        (encodedA = encodedB ↔
          letterCases (Address.string "0xa").digits = letterCases (Address.bytes [10]).digits) := by
  have ha : (Address.string "0xa").tryEncode sampleCrates =
      .ok (String.ofList (addressPrefix ++ (List.replicate 63 '0' ++ ['a']))) := by decide +kernel
  have hb : (Address.bytes [10]).tryEncode sampleCrates =
      .ok (String.ofList (addressPrefix ++ (List.replicate 63 '0' ++ ['a']))) := by decide +kernel
  exact ⟨_, _, ha, hb, canonical_iff ha hb (by decide)⟩

/-- A text in upper case keeps its letter, and is not encoded as the byte that it stands for. -/
theorem not_canonical_of_upper_case :
    ¬ ∀ (a b : Address) (encodedA encodedB : String), a.tryEncode sampleCrates = .ok encodedA →
      b.tryEncode sampleCrates = .ok encodedB → a.value = b.value → encodedA = encodedB := by
  intro h
  have ha : (Address.string "0xA").tryEncode sampleCrates =
      .ok (String.ofList (addressPrefix ++ (List.replicate 63 '0' ++ ['A']))) := by decide +kernel
  have hb : (Address.bytes [10]).tryEncode sampleCrates =
      .ok (String.ofList (addressPrefix ++ (List.replicate 63 '0' ++ ['a']))) := by decide +kernel
  exact absurd (h _ _ _ _ ha hb (by decide)) (by decide +kernel)

end AptosEtl.Reps.Address
