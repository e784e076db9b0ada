import Mathlib.Data.Int.Notation
import Mathlib.Data.Nat.Notation
import Mathlib.Tactic.NormNum

/-!
# Unsigned numbers in signed columns

A store whose integers are signed, of `w` bits and a sign, receives numbers that a program holds
unsigned. The program casts such a number, copies it, or checks it first. Only the check keeps what
does not fit out of the store (`fits_convert_iff`).
-/

namespace Signed

/-- How an unsigned number is put into a signed column. -/
inductive Conversion where
  /-- The bits of the number are taken for those of a signed one. -/
  | Cast
  /-- The number is passed on as it is. -/
  | Copy
  /-- The number is passed on if the signed type has it, and left out otherwise. -/
  | Check
  deriving DecidableEq, Repr

/-- What a column of `w` bits and a sign receives. -/
def Conversion.convert (w : ℕ) : Conversion → ℕ → Option ℤ
  | Cast, n => some (Int.bmod n (2 ^ (w + 1)))
  | Copy, n => some n
  | Check, n => if n < 2 ^ w then some n else none

/-- A column fits a source: it has no value, or the one of the source, and its type has it. -/
def Fits (w : ℕ) (published : Option ℤ) (source : Option ℕ) : Prop :=
  ∀ n ∈ published, ∃ s ∈ source, n = s ∧ n < 2 ^ w

/-- A cast keeps exactly the numbers that the signed type has. -/
theorem bmod_eq_iff {w n : ℕ} : Int.bmod n (2 ^ (w + 1)) = n ↔ n < 2 ^ w := by
  have hdouble : 2 ^ (w + 1) = 2 * 2 ^ w := by rw [Nat.pow_succ, Nat.mul_comm]
  have hpos : 0 < 2 ^ w := Nat.two_pow_pos w
  constructor
  · intro h
    have hlt : Int.bmod n (2 ^ (w + 1)) < (((2 ^ (w + 1) : ℕ) : ℤ) + 1) / 2 :=
      Int.bmod_lt (Nat.two_pow_pos _)
    rw [h, hdouble] at hlt
    omega
  · intro h
    exact Int.bmod_eq_of_le_mul_two (by omega) (by omega)

/-- A number that the signed type has fits, however it is put there. -/
theorem fits_convert_of_lt {w n : ℕ} (h : n < 2 ^ w) (conversion : Conversion) :
    Fits w (conversion.convert w n) (some n) := by
  have hvalue : conversion.convert w n = some (n : ℤ) := by
    cases conversion with
    | Cast => rw [Conversion.convert, bmod_eq_iff.2 h]
    | Copy => rfl
    | Check => rw [Conversion.convert, if_pos h]
  rw [hvalue]
  rintro _ ⟨⟩
  exact ⟨n, rfl, rfl, by exact_mod_cast h⟩

/-- A column fits its source exactly when the number is checked, or else in range. -/
theorem fits_convert_iff {w : ℕ} {conversion : Conversion} {source : Option ℕ} :
    Fits w (source.bind (conversion.convert w)) source ↔
      (conversion ≠ .Check → ∀ s ∈ source, s < 2 ^ w) := by
  cases source with
  | none => exact iff_of_true nofun fun _ => nofun
  | some s =>
    rw [Option.bind_some]
    constructor
    · rintro hfits hconversion _ ⟨⟩
      cases conversion with
      | Cast =>
        obtain ⟨_, ⟨⟩, hsame, -⟩ := hfits _ rfl
        exact bmod_eq_iff.1 hsame
      | Copy =>
        obtain ⟨_, ⟨⟩, -, hlt⟩ := hfits _ rfl
        exact_mod_cast hlt
      | Check => exact absurd rfl hconversion
    · intro h
      by_cases hlt : s < 2 ^ w
      · exact fits_convert_of_lt hlt conversion
      · -- out of range only the check leaves the number out
        cases conversion with
        | Cast => exact absurd (h nofun s rfl) hlt
        | Copy => exact absurd (h nofun s rfl) hlt
        | Check =>
          rw [Conversion.convert, if_neg hlt]
          exact nofun

end Signed
