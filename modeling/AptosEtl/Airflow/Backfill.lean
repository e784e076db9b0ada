import AptosEtl.Airflow.Warehouse
import AptosEtl.Coordinator.PublishRanges
import AptosEtl.Lib.Runs
import AptosEtl.Lib.Sql
import Mathlib.Data.List.Sort

/-!
# The daily backfill

`daily_backfill_mainnet.py`: the versions of a day, midnights included, all integers from the first
of them to the last, those that are missing, and the ranges that are published for them.

Each day looks between its own first and last version, so what is covered over several days depends
on how these intervals meet. `backfill_covers_iff` says which missing versions are.
-/

namespace AptosEtl.Airflow

open Span Coordinator

/-! ## The tasks of a day -/

/-- `bigquery_all_versions_f`: the versions with a timestamp between two dates, in order. -/
def bigqueryAllVersions (transactions : List TransactionsRow) (yesterdate todate : ℤ) : List ℤ :=
  ((Sql.filter (fun row => Sql.between (some row.block_timestamp) yesterdate todate)
    transactions).map (·.tx_version)).insertionSort (· ≤ ·)

/-- Python's `list(range(start, stop))`. -/
def listRange (start stop : ℤ) : List ℤ :=
  (List.range (stop - start).toNat).map fun k : ℕ => start + k

/-- `generate_array`: all integers between the first and the last version, and an `IndexError` if
there is no version. -/
def generateArray (all_versions : List ℤ) : Option (List ℤ) :=
  match all_versions.head?, all_versions.getLast? with
  | some min_version, some max_version => some (listRange min_version (max_version + 1))
  | _, _ => none

/-- `check_missing_values_f`: the integers that are not among the versions, in order. -/
def checkMissingValues (all_versions all_integers : List ℤ) : List ℤ :=
  (all_integers.filter fun n => n ∉ all_versions).insertionSort (· ≤ ·)

/-- The loop of `publish_range_f`: the current range grows while the next value is adjacent. -/
def extendRange (cur_start cur_end : ℤ) : List ℤ → List (Span ℤ)
  | [] => [⟨cur_start, cur_end⟩]
  | n :: missing_values =>
    if n > cur_end + 1 then
      ⟨cur_start, cur_end⟩ :: extendRange n n missing_values
    else
      extendRange cur_start n missing_values

/-- The ranges that `publish_range_f` divides the missing values into. -/
def missingRanges : List ℤ → List (Span ℤ)
  | [] => []
  | [n] => [⟨n, n⟩]
  | n :: missing_values => extendRange n n missing_values

/-- The rest of `publish_range_f`: one message for each range, up to the first that cannot be built.
The exception that this raises is swallowed. -/
def publishRanges : List (Span ℤ) → List IndexingRange
  | [] => []
  | r :: ranges =>
    match IndexingRange.new r with
    | some m => m :: publishRanges ranges
    -- an exception ends the loop, and is not passed on
    | none => []

/-- `publish_range_f`. -/
def publishRange (missing_values : List ℤ) : List IndexingRange :=
  publishRanges (missingRanges missing_values)

/-- The run of a day, which publishes nothing if one of its tasks fails. -/
def dailyBackfill (transactions : List TransactionsRow) (day : ℤ) : List IndexingRange :=
  let all_versions := bigqueryAllVersions transactions (midnight day) (midnight (day + 1))
  match generateArray all_versions with
  | some all_integers => publishRange (checkMissingValues all_versions all_integers)
  | none => []

/-- The runs of some days. -/
def backfill (transactions : List TransactionsRow) (days : List ℤ) : List IndexingRange :=
  days.flatMap (dailyBackfill transactions)

/-! ## What a day covers -/

/-- The versions of a day are those with a timestamp between its midnights. -/
theorem mem_bigqueryAllVersions {transactions : List TransactionsRow} {yesterdate todate v : ℤ} :
    v ∈ bigqueryAllVersions transactions yesterdate todate ↔ ∃ row ∈ transactions,
      row.tx_version = v ∧ yesterdate ≤ row.block_timestamp ∧ row.block_timestamp ≤ todate := by
  simp only [bigqueryAllVersions, List.mem_insertionSort, List.mem_map, Sql.mem_filter,
    Sql.holds_between]
  constructor
  · rintro ⟨row, ⟨hrow, timestamp, heq, hlo, hhi⟩, rfl⟩
    obtain rfl := Option.some.inj heq
    exact ⟨row, hrow, rfl, hlo, hhi⟩
  · rintro ⟨row, hrow, rfl, hlo, hhi⟩
    exact ⟨row, ⟨hrow, _, rfl, hlo, hhi⟩, rfl⟩

/-- The versions of a day are in order. -/
theorem bigqueryAllVersions_pairwise (transactions : List TransactionsRow)
    (yesterdate todate : ℤ) :
    (bigqueryAllVersions transactions yesterdate todate).Pairwise (· ≤ ·) :=
  List.pairwise_insertionSort _ _

/-- The integers of a Python range are those from its start up to its stop. -/
@[simp] theorem mem_listRange {start stop v : ℤ} :
    v ∈ listRange start stop ↔ start ≤ v ∧ v < stop := by
  simp only [listRange, List.mem_map, List.mem_range]
  constructor
  · rintro ⟨k, hk, rfl⟩
    omega
  · rintro ⟨hstart, hstop⟩
    exact ⟨(v - start).toNat, by omega, by omega⟩

/-- They are in order. -/
theorem listRange_pairwise (start stop : ℤ) : (listRange start stop).Pairwise (· < ·) := by
  rw [listRange, List.pairwise_map]
  exact List.pairwise_lt_range.imp fun h => by omega

/-- A day with versions has the integers between two of them, in order. -/
theorem generateArray_spec {all_versions : List ℤ} (hne : all_versions ≠ [])
    (hsorted : all_versions.Pairwise (· ≤ ·)) :
    ∃ all_integers, generateArray all_versions = some all_integers ∧
      all_integers.Pairwise (· < ·) ∧ ∀ v, v ∈ all_integers ↔
        (∃ u ∈ all_versions, u ≤ v) ∧ ∃ w ∈ all_versions, v ≤ w := by
  -- the versions are in order, so the first one is the least and the last one the greatest
  obtain ⟨min_version, tail, hfirst⟩ := List.exists_cons_of_ne_nil hne
  obtain ⟨init, max_version, hlast⟩ := all_versions.eq_nil_or_concat'.resolve_left hne
  have hmin : ∀ u ∈ all_versions, min_version ≤ u := by
    intro u hu
    rw [hfirst] at hu hsorted
    rcases List.mem_cons.1 hu with rfl | hu
    · exact le_refl u
    · exact (List.pairwise_cons.1 hsorted).1 u hu
  have hmax : ∀ w ∈ all_versions, w ≤ max_version := by
    intro w hw
    rw [hlast] at hw hsorted
    rcases List.mem_append.1 hw with hw | hw
    · exact (List.pairwise_append.1 hsorted).2.2 w hw max_version (List.mem_singleton_self _)
    · exact (List.mem_singleton.1 hw).le
  have hminMem : min_version ∈ all_versions := by rw [hfirst]; exact List.mem_cons_self
  have hmaxMem : max_version ∈ all_versions := by rw [hlast]; simp
  have harray : generateArray all_versions = some (listRange min_version (max_version + 1)) := by
    have hhead : all_versions.head? = some min_version := by rw [hfirst]; rfl
    have hgetLast : all_versions.getLast? = some max_version := by rw [hlast]; simp
    rw [generateArray, hhead, hgetLast]
  refine ⟨_, harray, listRange_pairwise _ _, fun v => ?_⟩
  rw [mem_listRange]
  constructor
  · rintro ⟨hlo, hhi⟩
    exact ⟨⟨min_version, hminMem, hlo⟩, max_version, hmaxMem, by omega⟩
  · rintro ⟨⟨u, hu, hlo⟩, w, hw, hhi⟩
    have hmin := hmin u hu
    have hmax := hmax w hw
    omega

/-- Integers in order stay in order when the missing ones are taken, which sorting does not
change. -/
theorem checkMissingValues_eq {all_versions all_integers : List ℤ}
    (hsorted : all_integers.Pairwise (· < ·)) :
    checkMissingValues all_versions all_integers =
      all_integers.filter fun n => n ∉ all_versions := by
  have hfilter : (all_integers.filter fun n => n ∉ all_versions).Pairwise (· ≤ ·) :=
    (hsorted.filter _).imp fun h => h.le
  exact hfilter.insertionSort_eq

/-- Growing a range over increasing values gives the runs of the range and the values. -/
theorem extendRange_runs {cur_start cur_end : ℤ} {missing_values : List ℤ}
    (hle : cur_start ≤ cur_end) (hsorted : (cur_end :: missing_values).Pairwise (· < ·)) :
    Runs (fun v => cur_start ≤ v ∧ v ≤ cur_end ∨ v ∈ missing_values)
      (extendRange cur_start cur_end missing_values) := by
  induction missing_values generalizing cur_start cur_end with
  | nil =>
    have hnone : Runs (fun v => v ∈ ([] : List ℤ)) [] := Runs.nil fun v => List.not_mem_nil
    exact hnone.cons hle fun v hv => absurd hv List.not_mem_nil
  | cons n missing_values ih =>
    obtain ⟨hafter, hsorted⟩ := List.pairwise_cons.1 hsorted
    have hn := hafter n List.mem_cons_self
    have hrest := (List.pairwise_cons.1 hsorted).1
    unfold extendRange
    split_ifs with hgap
    · -- the current range is complete, and a new one starts
      have hafter : ∀ v, n ≤ v ∧ v ≤ n ∨ v ∈ missing_values → cur_end + 1 < v := by
        rintro v (hv | hv)
        · omega
        · exact hgap.trans (hrest v hv)
      refine ((ih (le_refl n) hsorted).cons hle hafter).congr fun v => ?_
      have hsingle : n ≤ v ∧ v ≤ n ↔ v = n := by omega
      rw [hsingle, List.mem_cons]
    · refine (ih (by omega) hsorted).congr fun v => ?_
      have hgrow : cur_start ≤ v ∧ v ≤ n ↔ cur_start ≤ v ∧ v ≤ cur_end ∨ v = n := by omega
      rw [hgrow, or_assoc, List.mem_cons]

/-- A single missing value is the range that the loop starts from. -/
theorem missingRanges_cons (n : ℤ) (missing_values : List ℤ) :
    missingRanges (n :: missing_values) = extendRange n n missing_values := by
  cases missing_values <;> rfl

/-- The ranges for increasing missing values are the runs of these values. -/
theorem missingRanges_runs {missing_values : List ℤ}
    (hsorted : missing_values.Pairwise (· < ·)) :
    Runs (fun v => v ∈ missing_values) (missingRanges missing_values) := by
  cases missing_values with
  | nil => exact Runs.nil fun v => List.not_mem_nil
  | cons n missing_values =>
    rw [missingRanges_cons]
    refine (extendRange_runs (le_refl n) hsorted).congr fun v => ?_
    have hsingle : n ≤ v ∧ v ≤ n ↔ v = n := by omega
    rw [hsingle, List.mem_cons]

/-- Ranges that fit into messages are all published. -/
theorem publishRanges_span {ranges : List (Span ℤ)}
    (hbounds : ∀ r ∈ ranges, 0 ≤ r.start ∧ r.start ≤ r.stop ∧ r.stop < 2 ^ 64) :
    (publishRanges ranges).map IndexingRange.span = ranges := by
  induction ranges with
  | nil => rfl
  | cons r ranges ih =>
    obtain ⟨hstart, hle, hstop⟩ := hbounds r List.mem_cons_self
    obtain ⟨m, hm⟩ := IndexingRange.exists_new hstart hle hstop
    rw [publishRanges, hm, List.map_cons, IndexingRange.new_span hm,
      ih fun r' hr' => hbounds r' (List.mem_cons_of_mem r hr')]

/-- What is published for missing values that fit into a message are their ranges. -/
theorem publishRange_span {missing_values : List ℤ} (hsorted : missing_values.Pairwise (· < ·))
    (hbounds : ∀ n ∈ missing_values, 0 ≤ n ∧ n < 2 ^ 64) :
    (publishRange missing_values).map IndexingRange.span = missingRanges missing_values := by
  have hruns := missingRanges_runs hsorted
  -- the ends of a range are among the values that it covers
  exact publishRanges_span fun r hr => ⟨(hbounds _ (hruns.start_mem hr)).1, hruns.nonempty r hr,
    (hbounds _ (hruns.stop_mem hr)).2⟩

/-- What is published for missing values that fit into a message covers these values and no
other. -/
theorem exists_includes_publishRange {missing_values : List ℤ} {v : ℤ}
    (hsorted : missing_values.Pairwise (· < ·))
    (hbounds : ∀ n ∈ missing_values, 0 ≤ n ∧ n < 2 ^ 64) :
    (∃ m ∈ publishRange missing_values, m.span.Includes v) ↔ v ∈ missing_values := by
  rw [← (missingRanges_runs hsorted).covers v, ← publishRange_span hsorted hbounds]
  simp only [List.mem_map, exists_exists_and_eq_and]

/-- The row has a timestamp between the midnights of a day. -/
def OnDay (day : ℤ) (row : TransactionsRow) : Prop :=
  midnight day ≤ row.block_timestamp ∧ row.block_timestamp ≤ midnight (day + 1)

/-- The rows are of versions that fit into a message. -/
def Versions (transactions : List TransactionsRow) : Prop :=
  ∀ row ∈ transactions, 0 ≤ row.tx_version ∧ row.tx_version < 2 ^ 64

/-- The run of a day covers what is missing between two of its versions. -/
theorem dailyBackfill_covers_iff {transactions : List TransactionsRow} {day v : ℤ}
    (hversions : Versions transactions) :
    (∃ m ∈ dailyBackfill transactions day, m.span.Includes v) ↔
      (∀ row ∈ transactions, OnDay day row → row.tx_version ≠ v) ∧
      (∃ row ∈ transactions, OnDay day row ∧ row.tx_version ≤ v) ∧
      ∃ row ∈ transactions, OnDay day row ∧ v ≤ row.tx_version := by
  set all_versions := bigqueryAllVersions transactions (midnight day) (midnight (day + 1))
    with hall
  have hmem : ∀ u, u ∈ all_versions ↔ ∃ row ∈ transactions, OnDay day row ∧ row.tx_version = u := by
    intro u
    rw [hall, mem_bigqueryAllVersions]
    simp only [OnDay, and_comm]
  have hsorted : all_versions.Pairwise (· ≤ ·) := bigqueryAllVersions_pairwise _ _ _
  have hspec : (∀ row ∈ transactions, OnDay day row → row.tx_version ≠ v) ∧
      (∃ row ∈ transactions, OnDay day row ∧ row.tx_version ≤ v) ∧
      (∃ row ∈ transactions, OnDay day row ∧ v ≤ row.tx_version) ↔
        v ∉ all_versions ∧ (∃ u ∈ all_versions, u ≤ v) ∧ ∃ w ∈ all_versions, v ≤ w := by
    simp only [hmem]
    refine and_congr (by simp) (and_congr ?_ ?_) <;> constructor
    · rintro ⟨row, hrow, hday, hle⟩
      exact ⟨_, ⟨row, hrow, hday, rfl⟩, hle⟩
    · rintro ⟨_, ⟨row, hrow, hday, rfl⟩, hle⟩
      exact ⟨row, hrow, hday, hle⟩
    · rintro ⟨row, hrow, hday, hle⟩
      exact ⟨_, ⟨row, hrow, hday, rfl⟩, hle⟩
    · rintro ⟨_, ⟨row, hrow, hday, rfl⟩, hle⟩
      exact ⟨row, hrow, hday, hle⟩
  rw [hspec]
  by_cases hne : all_versions = []
  · have hrun : dailyBackfill transactions day = [] := by
      simp only [dailyBackfill, ← hall, hne, generateArray, List.head?_nil]
    simp [hrun, hne]
  obtain ⟨all_integers, harray, hincreasing, hbetween⟩ := generateArray_spec hne hsorted
  -- what is missing lies between two versions of the day, so it fits as they do
  have hbounds : ∀ n ∈ all_integers.filter (fun n => n ∉ all_versions), 0 ≤ n ∧ n < 2 ^ 64 := by
    intro n hn
    obtain ⟨⟨u, hu, hlo⟩, w, hw, hhi⟩ := (hbetween n).1 (List.mem_filter.1 hn).1
    obtain ⟨row, hrow, -, rfl⟩ := (hmem u).1 hu
    obtain ⟨row', hrow', -, rfl⟩ := (hmem w).1 hw
    exact ⟨(hversions row hrow).1.trans hlo, hhi.trans_lt (hversions row' hrow').2⟩
  have hrun : dailyBackfill transactions day =
      publishRange (all_integers.filter fun n => n ∉ all_versions) := by
    simp only [dailyBackfill, ← hall, harray, checkMissingValues_eq hincreasing]
  rw [hrun, exists_includes_publishRange (hincreasing.filter _) hbounds, List.mem_filter,
    hbetween, decide_eq_true_iff, and_comm]

/-! ## What a period covers -/

/-- Some days in a row. -/
def consecutive (first : ℤ) (n : ℕ) : List ℤ := (List.range n).map fun k : ℕ => first + k

/-- Over a period, a version that is absent from the table is covered exactly when it lies between
two versions that are present on one and the same day. -/
theorem backfill_covers_iff {transactions : List TransactionsRow} {first v : ℤ} {n : ℕ}
    (hversions : Versions transactions) (habsent : ∀ row ∈ transactions, row.tx_version ≠ v) :
    (∃ m ∈ backfill transactions (consecutive first n), m.span.Includes v) ↔
      ∃ day ∈ consecutive first n, (∃ row ∈ transactions, OnDay day row ∧ row.tx_version < v) ∧
        ∃ row ∈ transactions, OnDay day row ∧ v < row.tx_version := by
  have hday : ∀ day, (∃ m ∈ dailyBackfill transactions day, m.span.Includes v) ↔
      (∃ row ∈ transactions, OnDay day row ∧ row.tx_version < v) ∧
        ∃ row ∈ transactions, OnDay day row ∧ v < row.tx_version := by
    intro day
    rw [dailyBackfill_covers_iff hversions]
    constructor
    · rintro ⟨-, ⟨row, hrow, hday, hle⟩, row', hrow', hday', hle'⟩
      exact ⟨⟨row, hrow, hday, lt_of_le_of_ne hle (habsent row hrow)⟩,
        row', hrow', hday', lt_of_le_of_ne hle' (habsent row' hrow').symm⟩
    · rintro ⟨⟨row, hrow, hday, hlt⟩, row', hrow', hday', hlt'⟩
      exact ⟨fun row hrow _ => habsent row hrow, ⟨row, hrow, hday, hlt.le⟩,
        row', hrow', hday', hlt'.le⟩
  constructor
  · rintro ⟨m, hm, hv⟩
    obtain ⟨day, hmem, hm⟩ := List.mem_flatMap.1 hm
    exact ⟨day, hmem, (hday day).1 ⟨m, hm, hv⟩⟩
  · rintro ⟨day, hmem, hbetween⟩
    obtain ⟨m, hm, hv⟩ := (hday day).2 hbetween
    exact ⟨m, List.mem_flatMap.2 ⟨day, hmem, hm⟩, hv⟩

/-- A row of a transaction without changes, events and signatures. -/
def sampleRow (tx_version block_timestamp : ℤ) : TransactionsRow where
  tx_version := tx_version
  block_timestamp := block_timestamp
  num_changes := ⟨0, 0, 0, 0, 0, 0, 0⟩
  num_events := none
  num_signatures := none

/-- Version 1 is missing at noon of the first day. -/
theorem backfill_covers_iff_sample :
    (∃ m ∈ backfill [sampleRow 0 0, sampleRow 2 86400000000] (consecutive 0 2),
        m.span.Includes 1) ↔
      ∃ day ∈ consecutive 0 2,
        (∃ row ∈ [sampleRow 0 0, sampleRow 2 86400000000], OnDay day row ∧ row.tx_version < 1) ∧
          ∃ row ∈ [sampleRow 0 0, sampleRow 2 86400000000], OnDay day row ∧ 1 < row.tx_version :=
  backfill_covers_iff (by unfold Versions; decide) (by decide)

/-- A period closes every gap: a version that is absent from the table, at or after a version of the
first day and at or before one of the last day, is covered. -/
def ClosesEveryGap (transactions : List TransactionsRow) (first : ℤ) (n : ℕ) : Prop :=
  ∀ v, (∀ row ∈ transactions, row.tx_version ≠ v) →
    (∃ row ∈ transactions, OnDay first row ∧ row.tx_version ≤ v) →
    (∃ row ∈ transactions, OnDay (first + n - 1) row ∧ v ≤ row.tx_version) →
    ∃ m ∈ backfill transactions (consecutive first n), m.span.Includes v

/-- Blocks at six and at eighteen o'clock: the last version of the first day is missing, and is not
covered by the first two days. -/
theorem not_closesEveryGap_at_midnight :
    ¬ ∀ (timestamp : UInt64 → ℤ) (transactions : List TransactionsRow) (first : ℤ) (n : ℕ),
      (∀ u v, u ≤ v → timestamp u ≤ timestamp v) →
      (∀ row ∈ transactions, ∃ v : UInt64, row.tx_version = v.toNat ∧
        row.block_timestamp = timestamp v) →
      ClosesEveryGap transactions first n := by
  intro h
  have hmono : ∀ u v : UInt64, u ≤ v →
      ((12 * u.toNat + 6) * 3600000000 : ℤ) ≤ (12 * v.toNat + 6) * 3600000000 := by
    intro u v hle
    have hnat : u.toNat ≤ v.toNat := UInt64.le_iff_toNat_le.1 hle
    omega
  have hrows : ∀ row ∈ [sampleRow 0 21600000000, sampleRow 2 108000000000],
      ∃ v : UInt64, row.tx_version = v.toNat ∧
        row.block_timestamp = (12 * v.toNat + 6) * 3600000000 := by
    intro row hrow
    rcases List.mem_pair.1 hrow with rfl | rfl
    · exact ⟨0, by decide⟩
    · exact ⟨2, by decide⟩
  obtain ⟨m, hm, -⟩ := h _ _ 0 2 hmono hrows 1 (by decide) (by unfold OnDay; decide)
    (by unfold OnDay; decide)
  have hnothing : backfill [sampleRow 0 21600000000, sampleRow 2 108000000000]
      (consecutive 0 2) = [] := by decide
  rw [hnothing] at hm
  simp at hm

end AptosEtl.Airflow
