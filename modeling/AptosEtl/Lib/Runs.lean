import AptosEtl.Lib.Spans
import Mathlib.Algebra.Order.Ring.Int
import Mathlib.Data.List.Pairwise

/-!
# Maximal runs of integers

`Runs p spans` describes the maximal intervals of integers with a property, in increasing order:
they are not empty, they cover what has the property, and no two of them are adjacent. A run then
cannot be extended at either end (`Runs.maximal`).
-/

namespace Span

/-- The spans are the maximal runs of the integers with a property, in order. -/
structure Runs (p : ℤ → Prop) (spans : List (Span ℤ)) : Prop where
  /-- No run is empty. -/
  nonempty : ∀ s ∈ spans, s.start ≤ s.stop
  /-- Each run ends before the next starts, and leaves at least one integer between them. -/
  separated : spans.Pairwise fun s t => s.stop + 1 < t.start
  /-- An integer is in a run exactly if it has the property. -/
  covers : ∀ v, (∃ s ∈ spans, s.Includes v) ↔ p v

namespace Runs

variable {p q : ℤ → Prop} {spans : List (Span ℤ)}

/-- Nothing has no runs. -/
theorem nil (h : ∀ v, ¬ p v) : Runs p [] where
  nonempty := by simp
  separated := List.Pairwise.nil
  covers v := by simp [h v]

/-- Runs are of any property that holds of the same integers. -/
theorem congr (h : Runs p spans) (hiff : ∀ v, p v ↔ q v) : Runs q spans where
  nonempty := h.nonempty
  separated := h.separated
  covers v := (h.covers v).trans (hiff v)

/-- The start of a run has the property. -/
theorem start_mem (h : Runs p spans) {s : Span ℤ} (hs : s ∈ spans) : p s.start :=
  (h.covers _).1 ⟨s, hs, le_refl _, h.nonempty s hs⟩

/-- The stop of a run has the property. -/
theorem stop_mem (h : Runs p spans) {s : Span ℤ} (hs : s ∈ spans) : p s.stop :=
  (h.covers _).1 ⟨s, hs, h.nonempty s hs, le_refl _⟩

/-- An interval that ends before anything else, and is not adjacent to it, is a run before the
others. -/
theorem cons (h : Runs p spans) {start stop : ℤ} (hle : start ≤ stop)
    (hafter : ∀ v, p v → stop + 1 < v) :
    Runs (fun v => start ≤ v ∧ v ≤ stop ∨ p v) (⟨start, stop⟩ :: spans) where
  nonempty t ht := by
    rcases List.mem_cons.1 ht with rfl | ht
    · exact hle
    · exact h.nonempty t ht
  separated := List.pairwise_cons.2 ⟨fun _ ht => hafter _ (h.start_mem ht), h.separated⟩
  covers v := by rw [List.exists_mem_cons_iff, h.covers, Includes]

/-- Of two runs, one ends before the other starts. -/
theorem separated_of_ne (h : Runs p spans) {s t : Span ℤ} (hs : s ∈ spans) (ht : t ∈ spans)
    (hne : s ≠ t) : s.stop + 1 < t.start ∨ t.stop + 1 < s.start := by
  have hsymm : Std.Symm fun s t : Span ℤ => s.stop + 1 < t.start ∨ t.stop + 1 < s.start :=
    ⟨fun _ _ hrel => hrel.symm⟩
  have heither : spans.Pairwise fun s t => s.stop + 1 < t.start ∨ t.stop + 1 < s.start :=
    h.separated.imp Or.inl
  exact heither.forall hs ht hne

/-- Neither of the integers next to the ends of a run has the property. -/
theorem maximal (h : Runs p spans) {s : Span ℤ} (hs : s ∈ spans) :
    ¬ p (s.start - 1) ∧ ¬ p (s.stop + 1) := by
  have hle := h.nonempty s hs
  constructor
  · intro hp
    obtain ⟨t, ht, hstart, hstop⟩ := (h.covers _).2 hp
    -- the run of this integer is another one, and is adjacent
    have hne : s ≠ t := by rintro rfl; omega
    rcases h.separated_of_ne hs ht hne with hgap | hgap <;> omega
  · intro hp
    obtain ⟨t, ht, hstart, hstop⟩ := (h.covers _).2 hp
    have hne : s ≠ t := by rintro rfl; omega
    rcases h.separated_of_ne hs ht hne with hgap | hgap <;> omega

end Runs

end Span
