import AptosEtl.Coordinator.PublishRanges
import Mathlib.Data.Int.Range

/-!
# The generator divides its range

`range_generator` for any start, end and step of at least one. Iterating over it ends, and its
ranges, as Python reads them, divide the values from the start up to the end in order
(`rangeGenerator_partitions`). With a smaller step it would go on for ever (`generate_eq_none`).
-/

namespace AptosEtl.Coordinator

open Span

/-! ## Iterating -/

/-- The ranges that iterating over `range_generator` yields from a position on, and `none` if it has
not ended after some iterations. -/
def generate («end» step : ℤ) : ℕ → ℤ → Option (List (Span ℤ))
  | 0, _ => none
  | fuel + 1, current =>
    if current < «end» then
      let next_position := min (current + step - 1) («end» - 1)
      (generate «end» step fuel (next_position + 1)).map
        (⟨current, next_position + 1⟩ :: ·)
    else
      some []

variable {start «end» step : ℤ}

/-- What is left shrinks with each range, so one iteration for each value and one to see the end are
enough. -/
theorem generate_eq_loop (hstep : 0 < step) {fuel bound : ℕ} {current : ℤ}
    (hfuel : («end» - current).toNat < fuel) (hbound : («end» - current).toNat ≤ bound) :
    generate «end» step fuel current =
      some (rangeGenerator.loop «end» step bound current) := by
  induction fuel generalizing bound current with
  | zero => exact absurd hfuel (Nat.not_lt_zero _)
  | succ fuel ih =>
    unfold generate
    split_ifs with hlt
    · obtain ⟨bound, rfl⟩ : ∃ n, bound = n + 1 := ⟨bound - 1, by omega⟩
      have hrest : generate «end» step fuel (min (current + step - 1) («end» - 1) + 1) =
          some (rangeGenerator.loop «end» step bound
            (min (current + step - 1) («end» - 1) + 1)) := ih (by omega) (by omega)
      rw [rangeGenerator.loop, if_pos hlt]
      simp only [hrest, Option.map_some]
    · cases bound with
      | zero => rfl
      | succ bound => rw [rangeGenerator.loop, if_neg hlt]

/-- Without a step of at least one, the position never comes closer to the end. -/
theorem generate_eq_none (hstep : step ≤ 0) {current : ℤ} (hlt : current < «end») (fuel : ℕ) :
    generate «end» step fuel current = none := by
  induction fuel generalizing current with
  | zero => rfl
  | succ fuel ih =>
    have hnext : min (current + step - 1) («end» - 1) + 1 < «end» := by omega
    rw [generate, if_pos hlt]
    simp only [ih hnext, Option.map_none]

/-! ## The ranges -/

/-- No range has more values than a step. -/
theorem length_le_of_mem_loop {fuel : ℕ} {current : ℤ} {r : Span ℤ}
    (hr : r ∈ rangeGenerator.loop «end» step fuel current) : r.stop - r.start ≤ step := by
  induction fuel generalizing current with
  | zero => exact absurd hr List.not_mem_nil
  | succ fuel ih =>
    unfold rangeGenerator.loop at hr
    split_ifs at hr with hlt
    · rcases List.mem_cons.1 hr with rfl | hr
      · show min (current + step - 1) («end» - 1) + 1 - current ≤ step
        omega
      · exact ih hr
    · exact absurd hr List.not_mem_nil

/-- There is nothing in a Python range that stops where it starts. -/
theorem range_self (a : ℤ) : Int.range a a = [] := by
  rw [Int.range, sub_self]
  rfl

/-- Two Python ranges that meet make up one. -/
theorem range_append {a b c : ℤ} (hab : a ≤ b) (hbc : b ≤ c) :
    Int.range a b ++ Int.range b c = Int.range a c := by
  have hsplit : (c - a).toNat = (b - a).toNat + (c - b).toNat := by omega
  have hoffset : ((b - a).toNat : ℤ) = b - a := Int.toNat_of_nonneg (by omega)
  rw [Int.range, Int.range, Int.range, hsplit, List.range_add, List.map_append, List.map_map]
  congr 1
  refine List.map_congr_left fun k _ => ?_
  show b + (k : ℤ) = a + (((b - a).toNat + k : ℕ) : ℤ)
  omega

/-- The ranges divide the values from the start up to the end. -/
structure Partitions (start «end» step : ℤ) (ranges : List (Span ℤ)) : Prop where
  /-- No range is empty, or has more values than a step. -/
  sizes : ∀ r ∈ ranges, r.start < r.stop ∧ r.stop - r.start ≤ step
  /-- Each range starts where the one before it stops. -/
  consecutive : ranges.IsChain fun r r' => r.stop = r'.start
  /-- The first range starts at the start. -/
  first : ∀ r ∈ ranges.head?, r.start = start
  /-- The last range stops at the end. -/
  last : ∀ r ∈ ranges.getLast?, r.stop = «end»
  /-- One after the other, the ranges have the values from the start up to the end. -/
  values : ranges.flatMap (fun r => Int.range r.start r.stop) = Int.range start «end»
  /-- There are none exactly when there is nothing to divide. -/
  none_iff : ranges = [] ↔ «end» ≤ start

/-- Iterating over the generator ends, and its ranges divide the values from the start up to the
end. -/
theorem rangeGenerator_partitions (start «end» : ℤ) (hstep : 1 ≤ step) :
    (∀ fuel, («end» - start).toNat < fuel →
      generate «end» step fuel start = some (rangeGenerator start «end» step)) ∧
    Partitions start «end» step (rangeGenerator start «end» step) := by
  refine ⟨fun fuel hfuel => generate_eq_loop hstep hfuel (le_refl _), ?_⟩
  rcases lt_or_ge start «end» with hlt | hle
  · have htiles := rangeGenerator_tiles hstep hlt.le
    refine ⟨fun r hr => ⟨(htiles.bounds hr).2.1, length_le_of_mem_loop hr⟩, htiles.isChain,
      htiles.start_of_head?, htiles.stop_of_getLast?, ?_, ?_⟩
    · exact htiles.flatMap_eq range_self fun _ _ _ => range_append
    · rw [htiles.eq_nil_iff]
      omega
  · -- nothing is yielded, and nothing is between the start and the end
    rw [rangeGenerator_of_le hle]
    refine ⟨nofun, List.isChain_nil, nofun, nofun, ?_, by simpa using hle⟩
    have hzero : («end» - start).toNat = 0 := by omega
    rw [Int.range, hzero]
    rfl

/-- Three ranges, the last of them clipped. -/
theorem rangeGenerator_partitions_clipped :
    (∀ fuel, ((2000 : ℤ) - 0).toNat < fuel →
      generate 2000 999 fuel 0 = some (rangeGenerator 0 2000 999)) ∧
    Partitions 0 2000 999 (rangeGenerator 0 2000 999) :=
  rangeGenerator_partitions 0 2000 (by decide)

end AptosEtl.Coordinator
