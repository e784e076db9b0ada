import AptosEtl.Lib.Delimited

/-!
# Numbers as text

The decimal text of a number determines it and is made of digits, so that a number at the end of a
text, behind a character that is no digit, is determined together with what is before it.
-/

namespace Decimal

open Delimited

/-- The text of a number determines it. -/
theorem toString_nat_injective : Function.Injective (toString : ℕ → String) := by
  intro m n h
  have hdigits : Nat.toDigits 10 m = Nat.toDigits 10 n := by
    rw [Nat.toString_eq_ofList_toDigits, Nat.toString_eq_ofList_toDigits] at h
    exact String.ofList_injective h
  calc m = Nat.ofDigitChars 10 (Nat.toDigits 10 m) 0 := Nat.ofDigitChars_ten_toDigits.symm
    _ = Nat.ofDigitChars 10 (Nat.toDigits 10 n) 0 := by rw [hdigits]
    _ = n := Nat.ofDigitChars_ten_toDigits

/-- The text of a number is made of digits. -/
theorem isDigit_of_mem_toString {n : ℕ} {c : Char} (h : c ∈ (toString n).toList) :
    c.isDigit = true := by
  rw [Nat.toString_eq_ofList_toDigits, String.toList_ofList] at h
  exact Nat.isDigit_of_mem_toDigits (b := 10) (by decide) (by decide) h

/-- A number behind a character that is no digit is determined, and so is what is before it. -/
theorem append_toString_inj {sep : Char} (hsep : sep.isDigit = false) {s t : List Char} {m n : ℕ}
    (h : s ++ sep :: (toString m).toList = t ++ sep :: (toString n).toList) : s = t ∧ m = n := by
  have hdigits : ∀ k : ℕ, Word (· = sep) (toString k).toList.reverse := by
    rintro k c hc rfl
    have hdigit := isDigit_of_mem_toString (List.mem_reverse.1 hc)
    exact absurd (hdigit.symm.trans hsep) (by decide)
  -- read backwards, the number is a word and the character after it stops it
  have hreverse := congrArg List.reverse h
  simp only [List.reverse_append, List.reverse_cons, List.append_assoc, List.singleton_append]
    at hreverse
  obtain ⟨hnumber, -, hrest⟩ := (hdigits m).append_cons_inj (hdigits n) rfl rfl hreverse
  have htexts : toString m = toString n := String.toList_inj.1 (List.reverse_injective hnumber)
  exact ⟨List.reverse_injective hrest, toString_nat_injective htexts⟩

end Decimal
