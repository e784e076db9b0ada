import AptosEtl.Airflow.Backfill

/-!
# The gaps of a day

`dayRanges` is what the tasks of a day compute of its versions, which the first of them hands over
in ascending order. `dayRanges_maximalGaps` says that these are the gaps between the first version
and the last one, each of them whole. It holds in any order, since only the two ends of the list
and what it contains matter.
-/

namespace AptosEtl.Airflow

open Span Coordinator

/-- The missing versions of a day, from its versions on. -/
def dayMissing (all_versions : List ℤ) : Option (List ℤ) :=
  (generateArray all_versions).map (checkMissingValues all_versions)

/-- The ranges that the missing versions of a day are divided into. -/
def dayRanges (all_versions : List ℤ) : Option (List (Span ℤ)) :=
  (dayMissing all_versions).map missingRanges

/-- The messages for the missing versions of a day. -/
def dayMessages (all_versions : List ℤ) : Option (List IndexingRange) :=
  (dayMissing all_versions).map publishRange

/-- The run of a day publishes the messages for its versions, if there are any. -/
theorem dailyBackfill_eq (transactions : List TransactionsRow) (day : ℤ) :
    dailyBackfill transactions day = (dayMessages
      (bigqueryAllVersions transactions (midnight day) (midnight (day + 1)))).getD [] := by
  simp only [dailyBackfill, dayMessages, dayMissing]
  generalize bigqueryAllVersions transactions (midnight day) (midnight (day + 1)) = all_versions
  cases generateArray all_versions <;> rfl

/-- The ranges are the gaps between the first and the last of the versions: in order, not adjacent,
and with a version that is present on both sides. -/
structure MaximalGaps (all_versions : List ℤ) (ranges : List (Span ℤ)) : Prop where
  /-- A version is in a range exactly if it is missing. -/
  covers : ∀ v, (∃ r ∈ ranges, r.Includes v) ↔
    (∃ first ∈ all_versions.head?, first ≤ v) ∧ (∃ last ∈ all_versions.getLast?, v ≤ last) ∧
      v ∉ all_versions
  /-- The ranges are in increasing order, disjoint and not adjacent. -/
  separated : ranges.Pairwise fun r r' => r.stop + 1 < r'.start
  /-- A range is not empty, and what is next to it on both sides is present. -/
  between : ∀ r ∈ ranges,
    r.start ≤ r.stop ∧ r.start - 1 ∈ all_versions ∧ r.stop + 1 ∈ all_versions

/-- The missing versions are those between the first and the last that are not present. -/
theorem dayMissing_spec {all_versions : List ℤ} (hne : all_versions ≠ []) :
    ∃ first last missing_values, all_versions.head? = some first ∧
      all_versions.getLast? = some last ∧ dayMissing all_versions = some missing_values ∧
      missing_values.Pairwise (· < ·) ∧
      ∀ v, v ∈ missing_values ↔ first ≤ v ∧ v ≤ last ∧ v ∉ all_versions := by
  have hhead := List.head?_eq_some_head hne
  have hlast := List.getLast?_eq_some_getLast hne
  generalize all_versions.head hne = first at hhead
  generalize all_versions.getLast hne = last at hlast
  have hincreasing := listRange_pairwise first (last + 1)
  refine ⟨first, last, (listRange first (last + 1)).filter fun n => n ∉ all_versions, hhead, hlast,
    ?_, hincreasing.filter _, fun v => ?_⟩
  · rw [dayMissing, generateArray, hhead, hlast, Option.map_some, checkMissingValues_eq hincreasing]
  · rw [List.mem_filter, mem_listRange, decide_eq_true_iff, Int.lt_add_one_iff, and_assoc]

/-- The runs of the missing versions are the maximal gaps. -/
theorem maximalGaps_of_runs {all_versions : List ℤ} {first last : ℤ} {ranges : List (Span ℤ)}
    (hhead : all_versions.head? = some first) (hlast : all_versions.getLast? = some last)
    (hruns : Runs (fun v => first ≤ v ∧ v ≤ last ∧ v ∉ all_versions) ranges) :
    MaximalGaps all_versions ranges where
  covers v := by simp [hruns.covers, hhead, hlast]
  separated := hruns.separated
  between r hr := by
    obtain ⟨hstart, -, hstartMissing⟩ := hruns.start_mem hr
    obtain ⟨-, hstop, hstopMissing⟩ := hruns.stop_mem hr
    obtain ⟨hbefore, hafter⟩ := hruns.maximal hr
    have hle := hruns.nonempty r hr
    -- the first and the last version are present, so a range is strictly between them
    have hfirst : r.start ≠ first := by
      rintro heq
      exact hstartMissing (heq ▸ List.mem_of_head? hhead)
    have hend : r.stop ≠ last := by
      rintro heq
      exact hstopMissing (heq ▸ List.mem_of_getLast? hlast)
    refine ⟨hle, ?_, ?_⟩
    · by_contra habsent
      exact hbefore ⟨by omega, by omega, habsent⟩
    · by_contra habsent
      exact hafter ⟨by omega, by omega, habsent⟩

/-- The ranges of a day are the maximal gaps between its versions, and if the versions are those of
a message, then these ranges are what is published. -/
theorem dayRanges_maximalGaps {all_versions : List ℤ} (hne : all_versions ≠ []) :
    ∃ ranges, dayRanges all_versions = some ranges ∧ MaximalGaps all_versions ranges ∧
      ((∀ v ∈ all_versions, 0 ≤ v ∧ v < 2 ^ 64) →
        (dayMessages all_versions).map (·.map IndexingRange.span) = some ranges) := by
  obtain ⟨first, last, missing_values, hhead, hlast, hmissing, hincreasing, hmem⟩ :=
    dayMissing_spec hne
  have hruns := (missingRanges_runs hincreasing).congr hmem
  have hgaps := maximalGaps_of_runs hhead hlast hruns
  refine ⟨missingRanges missing_values, ?_, hgaps, fun hbounds => ?_⟩
  · rw [dayRanges, hmissing, Option.map_some]
  · have hmissingBounds : ∀ n ∈ missing_values, 0 ≤ n ∧ n < 2 ^ 64 := by
      intro n hn
      obtain ⟨hlo, hhi, -⟩ := (hmem n).1 hn
      exact ⟨(hbounds first (List.mem_of_head? hhead)).1.trans hlo,
        hhi.trans_lt (hbounds last (List.mem_of_getLast? hlast)).2⟩
    rw [dayMessages, hmissing, Option.map_some, Option.map_some,
      publishRange_span hincreasing hmissingBounds]

/-- Two gaps, one of them of a single version, among versions of which one is repeated. -/
theorem dayRanges_maximalGaps_sample :
    ∃ ranges, dayRanges [3, 4, 6, 6, 10] = some ranges ∧ MaximalGaps [3, 4, 6, 6, 10] ranges ∧
      ((∀ v ∈ [3, 4, 6, 6, 10], (0 : ℤ) ≤ v ∧ v < 2 ^ 64) →
        (dayMessages [3, 4, 6, 6, 10]).map (·.map IndexingRange.span) = some ranges) :=
  dayRanges_maximalGaps nofun

example : dayRanges [3, 4, 6, 6, 10] = some [⟨5, 5⟩, ⟨7, 9⟩] := by decide

end AptosEtl.Airflow
