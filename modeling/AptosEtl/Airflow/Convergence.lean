import AptosEtl.Airflow.Gaps
import AptosEtl.Lib.Filling
import Mathlib.Data.Int.ConditionallyCompleteOrder
import Mathlib.Order.ConditionallyCompleteLattice.Basic

/-!
# Convergence of the backfill

The runs of `daily_backfill_mainnet.py` as a machine: a run reads the versions of a day, and
publishes messages for what it has found missing later on, once or again where the task is retried.
An exception while it does is swallowed, so that only the first of the messages are published. In
between, rows that were asked for are loaded in any order, the runs of other days do the same, and
the dedupe job takes duplicates out.

The machine simulates the one of `Lib/Filling` (`backfill_simulates`), with the days as windows,
since the timestamps of the blocks go up with the versions. So it converges: once the rows of all
messages are loaded, and no day was left with a part of its messages, a day that was run has nothing
more to publish (`backfill_converges`).
-/

namespace AptosEtl.Airflow

open Span Coordinator Machine

/-! ## The machine -/

/-- The transactions table, the runs with the day and the rows that each has read, the messages that
were published, the days of which all messages were, and those where publishing them has failed. -/
structure Backfilling where
  transactions : List TransactionsRow
  runs : List (ℤ × List TransactionsRow)
  published : List IndexingRange
  days : List ℤ
  failed : List ℤ

/-- What happens next. -/
inductive BackfillEvent where
  | query (day : ℤ)
  | publish (k : ℕ)
  /-- The publisher raises an exception after some messages. -/
  | fail (k sent : ℕ)
  | load (row : TransactionsRow)
  | dedupe (transactions : List TransactionsRow)

/-- A table for which no run was started. -/
def Backfilling.new (transactions : List TransactionsRow) : Backfilling :=
  ⟨transactions, [], [], [], []⟩

/-- One step. -/
def backfillStep (s : Backfilling) : BackfillEvent → Option Backfilling
  | .query day => some { s with runs := s.runs ++ [(day, s.transactions)] }
  | .publish k =>
    match s.runs[k]? with
    -- the tasks compute from what the first of them has read
    | some (day, seen) =>
      some { s with published := s.published ++ dailyBackfill seen day, days := s.days ++ [day] }
    | none => none
  | .fail k sent =>
    match s.runs[k]? with
    -- `finally: return` swallows the exception
    | some (day, seen) =>
      let published := s.published ++ (dailyBackfill seen day).take sent
      some { s with published, failed := s.failed ++ [day] }
    | none => none
  | .load row => some { s with transactions := s.transactions ++ [row] }
  | .dedupe transactions => some { s with transactions }

/-- A publish that goes through is that of a run, with all of its messages. -/
theorem exists_run_of_publish {s s' : Backfilling} {k : ℕ}
    (h : backfillStep s (.publish k) = some s') :
    ∃ run ∈ s.runs, s' = { s with
      published := s.published ++ dailyBackfill run.2 run.1
      days := s.days ++ [run.1] } := by
  rw [backfillStep] at h
  cases hrun : s.runs[k]? with
  | none =>
    rw [hrun] at h
    cases h
  | some run =>
    rw [hrun] at h
    exact ⟨run, List.mem_of_getElem? hrun, (Option.some.inj h).symm⟩

/-- A publish that fails is that of a run, with some of its messages. -/
theorem exists_run_of_fail {s s' : Backfilling} {k sent : ℕ}
    (h : backfillStep s (.fail k sent) = some s') :
    ∃ run ∈ s.runs, s' = { s with
      published := s.published ++ (dailyBackfill run.2 run.1).take sent
      failed := s.failed ++ [run.1] } := by
  rw [backfillStep] at h
  cases hrun : s.runs[k]? with
  | none =>
    rw [hrun] at h
    cases h
  | some run =>
    rw [hrun] at h
    exact ⟨run, List.mem_of_getElem? hrun, (Option.some.inj h).symm⟩

/-- The row is of a version that fits into a message, and has the timestamp of its block. -/
structure Genuine (timestamp : ℤ → ℤ) (row : TransactionsRow) : Prop where
  bounds : 0 ≤ row.tx_version ∧ row.tx_version < 2 ^ 64
  timestamp : row.block_timestamp = timestamp row.tx_version

/-- A row that is loaded is genuine and was asked for, and the dedupe job takes out rows of which
there is another copy. -/
def BackfillAllowed (timestamp : ℤ → ℤ) (s : Backfilling) : BackfillEvent → Prop
  | .query _ => True
  | .publish _ => True
  | .fail _ _ => True
  | .load row => Genuine timestamp row ∧ ∃ m ∈ s.published, m.span.Includes row.tx_version
  | .dedupe transactions => ∀ row, row ∈ transactions ↔ row ∈ s.transactions

/-! ## Simulation -/

/-- The versions of some rows. -/
def versionsOf (transactions : List TransactionsRow) : Set ℤ :=
  {v | ∃ row ∈ transactions, row.tx_version = v}

/-- The versions of a day, midnights included. -/
def dayVersions (timestamp : ℤ → ℤ) (day : ℤ) : Set ℤ :=
  {v | midnight day ≤ timestamp v ∧ timestamp v ≤ midnight (day + 1)}

/-- The machine as one that fills the gaps of days. -/
def Backfilling.filling (s : Backfilling) : Filling.State ℤ ℤ where
  present := versionsOf s.transactions
  requested := {v | ∃ m ∈ s.published, m.span.Includes v}
  asked := {day | day ∈ s.days}
  tried := {day | day ∈ s.days ∨ day ∈ s.failed}

/-- The versions of a day are consecutive, if the timestamps go up. -/
theorem ordConnected_dayVersions {timestamp : ℤ → ℤ} (hmono : Monotone timestamp) (day : ℤ) :
    (dayVersions timestamp day).OrdConnected :=
  Set.ordConnected_Icc.preimage_mono hmono

variable {timestamp : ℤ → ℤ} {transactions : List TransactionsRow} {s : Backfilling} {day v : ℤ}

/-- The row with a version of the day is one of the day. -/
theorem Genuine.onDay_iff {row : TransactionsRow} (h : Genuine timestamp row) :
    OnDay day row ↔ row.tx_version ∈ dayVersions timestamp day := by
  rw [OnDay, h.timestamp]
  rfl

/-- The versions of the day that are in the table. -/
theorem mem_versionsOf_inter (hgenuine : ∀ row ∈ transactions, Genuine timestamp row) :
    v ∈ versionsOf transactions ∩ dayVersions timestamp day ↔
      ∃ row ∈ transactions, OnDay day row ∧ row.tx_version = v := by
  constructor
  · rintro ⟨⟨row, hrow, rfl⟩, hday⟩
    exact ⟨row, hrow, (hgenuine row hrow).onDay_iff.2 hday, rfl⟩
  · rintro ⟨row, hrow, hday, rfl⟩
    exact ⟨⟨row, hrow, rfl⟩, (hgenuine row hrow).onDay_iff.1 hday⟩

/-- The versions between two of the day that are in the table. -/
theorem mem_between_versionsOf (hgenuine : ∀ row ∈ transactions, Genuine timestamp row) :
    v ∈ Filling.between (versionsOf transactions ∩ dayVersions timestamp day) ↔
      (∃ row ∈ transactions, OnDay day row ∧ row.tx_version ≤ v) ∧
        ∃ row ∈ transactions, OnDay day row ∧ v ≤ row.tx_version := by
  rw [Filling.mem_between]
  simp only [mem_versionsOf_inter hgenuine]
  constructor
  · rintro ⟨⟨_, ⟨row, hrow, hday, rfl⟩, hle⟩, _, ⟨row', hrow', hday', rfl⟩, hle'⟩
    exact ⟨⟨row, hrow, hday, hle⟩, row', hrow', hday', hle'⟩
  · rintro ⟨⟨row, hrow, hday, hle⟩, row', hrow', hday', hle'⟩
    exact ⟨⟨_, ⟨row, hrow, hday, rfl⟩, hle⟩, _, ⟨row', hrow', hday', rfl⟩, hle'⟩

/-- A run of a day publishes messages for the gaps between the versions of the day. -/
theorem setOf_dailyBackfill (hmono : Monotone timestamp)
    (hgenuine : ∀ row ∈ transactions, Genuine timestamp row) :
    {v | ∃ m ∈ dailyBackfill transactions day, m.span.Includes v} =
      Filling.between (versionsOf transactions ∩ dayVersions timestamp day) \
        versionsOf transactions := by
  ext v
  have hversions : Versions transactions := fun row hrow => (hgenuine row hrow).bounds
  rw [Set.mem_ofPred_eq, dailyBackfill_covers_iff hversions, Set.mem_sdiff,
    mem_between_versionsOf hgenuine]
  constructor
  · rintro ⟨hnew, ⟨row, hrow, hday, hle⟩, row', hrow', hday', hle'⟩
    refine ⟨⟨⟨row, hrow, hday, hle⟩, row', hrow', hday', hle'⟩, ?_⟩
    rintro ⟨row'', hrow'', rfl⟩
    -- a version between two of the day is of the day
    have hmem := (ordConnected_dayVersions hmono day).out ((hgenuine row hrow).onDay_iff.1 hday)
      ((hgenuine row' hrow').onDay_iff.1 hday') ⟨hle, hle'⟩
    exact hnew row'' hrow'' ((hgenuine row'' hrow'').onDay_iff.2 hmem) rfl
  · rintro ⟨⟨hbelow, habove⟩, hnew⟩
    exact ⟨fun row hrow _ heq => hnew ⟨row, hrow, heq⟩, hbelow, habove⟩

/-- What holds of a table and of what the runs have read of it, in every state. -/
structure Backfilling.Reads (timestamp : ℤ → ℤ) (initial : List TransactionsRow)
    (s : Backfilling) : Prop where
  genuine : ∀ row ∈ s.transactions, Genuine timestamp row
  kept : versionsOf initial ⊆ versionsOf s.transactions
  runs : ∀ run ∈ s.runs, (∀ row ∈ run.2, Genuine timestamp row) ∧
    versionsOf initial ⊆ versionsOf run.2 ∧ versionsOf run.2 ⊆ versionsOf s.transactions

/-- The versions after a row was loaded. -/
theorem versionsOf_concat (transactions : List TransactionsRow) (row : TransactionsRow) :
    versionsOf (transactions ++ [row]) = insert row.tx_version (versionsOf transactions) := by
  ext v
  simp only [versionsOf, Set.mem_ofPred_eq, List.mem_append, List.mem_singleton, or_and_right,
    exists_or, exists_eq_left, Set.mem_insert_iff]
  rw [or_comm, eq_comm]

/-- The versions of the same rows are the same. -/
theorem versionsOf_congr {transactions transactions' : List TransactionsRow}
    (h : ∀ row, row ∈ transactions' ↔ row ∈ transactions) :
    versionsOf transactions' = versionsOf transactions := by
  simp only [versionsOf, h]

/-- The runs have read genuine rows, of a table between the initial one and the present one. -/
theorem reads_of_reaches {initial : List TransactionsRow}
    (hinitial : ∀ row ∈ initial, Genuine timestamp row)
    (h : Reaches backfillStep (BackfillAllowed timestamp) (.new initial) s) :
    s.Reads timestamp initial := by
  refine h.invariant (P := Backfilling.Reads timestamp initial) ?_ ?_
  · exact ⟨hinitial, subset_rfl, fun run hrun => absurd hrun List.not_mem_nil⟩
  intro s e s' hs hallowed hstep
  cases e with
  | query day =>
    obtain rfl := Option.some.inj hstep
    refine ⟨hs.genuine, hs.kept, fun run hrun => ?_⟩
    rcases List.mem_append.1 hrun with hrun | hrun
    · exact hs.runs run hrun
    · obtain rfl := List.mem_singleton.1 hrun
      exact ⟨hs.genuine, hs.kept, subset_rfl⟩
  | publish k =>
    obtain ⟨run, -, rfl⟩ := exists_run_of_publish hstep
    exact ⟨hs.genuine, hs.kept, hs.runs⟩
  | fail k sent =>
    obtain ⟨run, -, rfl⟩ := exists_run_of_fail hstep
    exact ⟨hs.genuine, hs.kept, hs.runs⟩
  | load row =>
    obtain rfl := Option.some.inj hstep
    have hmore : versionsOf s.transactions ⊆ versionsOf (s.transactions ++ [row]) := by
      rw [versionsOf_concat]
      exact Set.subset_insert _ _
    refine ⟨fun row' hrow' => ?_, hs.kept.trans hmore, fun run hrun => ?_⟩
    · rcases List.mem_append.1 hrow' with hrow' | hrow'
      · exact hs.genuine row' hrow'
      · obtain rfl := List.mem_singleton.1 hrow'
        exact hallowed.1
    · obtain ⟨hgenuine, hkept, hseen⟩ := hs.runs run hrun
      exact ⟨hgenuine, hkept, hseen.trans hmore⟩
  | dedupe transactions =>
    obtain rfl := Option.some.inj hstep
    have hsame : versionsOf transactions = versionsOf s.transactions := versionsOf_congr hallowed
    constructor
    case genuine => exact fun row hrow => hs.genuine row ((hallowed row).1 hrow)
    case kept =>
      rw [hsame]
      exact hs.kept
    case runs =>
      intro run hrun
      rw [hsame]
      exact hs.runs run hrun

/-- The versions that more messages ask for. -/
theorem setOf_includes_append (published messages : List IndexingRange) :
    {v | ∃ m ∈ published ++ messages, m.span.Includes v} =
      {v | ∃ m ∈ published, m.span.Includes v} ∪ {v | ∃ m ∈ messages, m.span.Includes v} := by
  ext v
  simp only [List.mem_append, or_and_right, exists_or, Set.mem_ofPred_eq, Set.mem_union]

/-- The machine simulates the filling of gaps, with the days as windows. -/
theorem backfill_simulates (hmono : Monotone timestamp) {initial : List TransactionsRow}
    (hinitial : ∀ row ∈ initial, Genuine timestamp row)
    (h : Reaches backfillStep (BackfillAllowed timestamp) (.new initial) s) :
    Reaches (Filling.step (dayVersions timestamp))
      (Filling.Allowed (dayVersions timestamp) (versionsOf initial)) (.new (versionsOf initial))
      s.filling := by
  have hnew : (Backfilling.new initial).filling = Filling.State.new (versionsOf initial) := by
    simp [Backfilling.filling, Backfilling.new, Filling.State.new]
  rw [← hnew]
  refine h.map Backfilling.filling fun s e s' hreach hallowed hstep => ?_
  have hs := reads_of_reaches hinitial hreach
  cases e with
  | query day =>
    obtain rfl := Option.some.inj hstep
    exact .refl
  | publish k =>
    obtain ⟨run, hrun, rfl⟩ := exists_run_of_publish hstep
    obtain ⟨hgenuine, hkept, hseen⟩ := hs.runs run hrun
    refine .tail (e := .request run.1 (versionsOf run.2)) .refl ⟨hkept, hseen⟩ ?_
    have hasked : {day | day ∈ s.days ++ [run.1]} = insert run.1 {day | day ∈ s.days} := by
      ext day
      simp [or_comm]
    have htried : {day | day ∈ s.days ++ [run.1] ∨ day ∈ s.failed} =
        insert run.1 {day | day ∈ s.days ∨ day ∈ s.failed} := by
      ext day
      simp [or_comm (a := day ∈ s.days), or_assoc]
    rw [Filling.step, ← setOf_dailyBackfill hmono hgenuine]
    simp only [Backfilling.filling, setOf_includes_append, hasked, htried]
  | fail k sent =>
    obtain ⟨run, hrun, rfl⟩ := exists_run_of_fail hstep
    obtain ⟨hgenuine, -, hseen⟩ := hs.runs run hrun
    let part : Set ℤ := {v | ∃ m ∈ (dailyBackfill run.2 run.1).take sent, m.span.Includes v}
    -- the messages before the exception are some of those for the gaps
    have hpart : part ⊆ Filling.between (versionsOf run.2 ∩ dayVersions timestamp run.1) := by
      rintro v ⟨m, hm, hv⟩
      have hgap : v ∈ {v | ∃ m ∈ dailyBackfill run.2 run.1, m.span.Includes v} :=
        ⟨m, List.mem_of_mem_take hm, hv⟩
      rw [setOf_dailyBackfill hmono hgenuine] at hgap
      exact hgap.1
    refine .tail (e := .requestPart run.1 (versionsOf run.2) part) .refl ⟨hseen, hpart⟩ ?_
    have htried : {day | day ∈ s.days ∨ day ∈ s.failed ++ [run.1]} =
        insert run.1 {day | day ∈ s.days ∨ day ∈ s.failed} := by
      ext day
      simp [or_comm, or_left_comm]
    simp only [Filling.step, Backfilling.filling, setOf_includes_append, htried, part]
  | load row =>
    obtain rfl := Option.some.inj hstep
    refine .tail (e := .arrive row.tx_version) .refl hallowed.2 ?_
    simp only [Filling.step, Backfilling.filling, versionsOf_concat]
  | dedupe transactions =>
    obtain rfl := Option.some.inj hstep
    have hsame : versionsOf transactions = versionsOf s.transactions := versionsOf_congr hallowed
    simp only [Backfilling.filling, hsame]
    exact .refl

/-! ## Convergence -/

/-- A message of a run includes a version. -/
theorem exists_includes_of_mem_dailyBackfill (hversions : Versions transactions)
    {m : IndexingRange} (hm : m ∈ dailyBackfill transactions day) : ∃ v, m.span.Includes v := by
  rw [dailyBackfill_eq] at hm
  set all_versions := bigqueryAllVersions transactions (midnight day) (midnight (day + 1))
    with hall
  by_cases hne : all_versions = []
  · rw [hne] at hm
    exact absurd hm List.not_mem_nil
  obtain ⟨first, last, missing_values, hhead, hlast, hmissing, hincreasing, hmem⟩ :=
    dayMissing_spec hne
  have hbounds : ∀ u ∈ all_versions, 0 ≤ u ∧ u < 2 ^ 64 := by
    intro u hu
    obtain ⟨row, hrow, rfl, -⟩ := mem_bigqueryAllVersions.1 hu
    exact hversions row hrow
  have hmissingBounds : ∀ n ∈ missing_values, 0 ≤ n ∧ n < 2 ^ 64 := by
    intro n hn
    obtain ⟨hlo, hhi, -⟩ := (hmem n).1 hn
    exact ⟨(hbounds first (List.mem_of_head? hhead)).1.trans hlo,
      hhi.trans_lt (hbounds last (List.mem_of_getLast? hlast)).2⟩
  rw [dayMessages, hmissing, Option.map_some, Option.getD_some] at hm
  have hspan : m.span ∈ missingRanges missing_values := by
    rw [← publishRange_span hincreasing hmissingBounds]
    exact List.mem_map_of_mem hm
  exact ⟨m.span.start, le_refl _, (missingRanges_runs hincreasing).nonempty _ hspan⟩

/-- However the runs of some days, their retries, the loads and the dedupe job are interleaved, and
whichever publishes fail: once each day with such a failure was also published without one, and
every version that a message asks for is in the table, it has the versions that it had and those
between two of them on one of the days, and no other. A run of any of these days then publishes
nothing. -/
theorem backfill_converges (hmono : Monotone timestamp) {initial : List TransactionsRow}
    (hinitial : ∀ row ∈ initial, Genuine timestamp row)
    (h : Reaches backfillStep (BackfillAllowed timestamp) (.new initial) s)
    (hfailed : ∀ day ∈ s.failed, day ∈ s.days)
    (hloaded : ∀ m ∈ s.published, ∀ v, m.span.Includes v → v ∈ versionsOf s.transactions) :
    (∀ v, v ∈ versionsOf s.transactions ↔ v ∈ versionsOf initial ∨ ∃ day ∈ s.days,
      (∃ row ∈ initial, OnDay day row ∧ row.tx_version ≤ v) ∧
        ∃ row ∈ initial, OnDay day row ∧ v ≤ row.tx_version) ∧
    ∀ day ∈ s.days, dailyBackfill s.transactions day = [] := by
  have hgenuine := (reads_of_reaches hinitial h).genuine
  have hrequested : s.filling.requested ⊆ s.filling.present := by
    rintro v ⟨m, hm, hv⟩
    exact hloaded m hm v hv
  have htried : s.filling.tried ⊆ s.filling.asked := by
    rintro day (hday | hday)
    · exact hday
    · exact hfailed day hday
  obtain ⟨hpresent, hclosed⟩ := Filling.present_eq_filled (ordConnected_dayVersions hmono)
    (backfill_simulates hmono hinitial h) htried hrequested
  constructor
  · intro v
    have hpresent : versionsOf s.transactions = _ := hpresent
    rw [hpresent, Filling.mem_filled]
    simp only [mem_between_versionsOf hinitial]
    rfl
  · intro day hday
    by_contra hne
    obtain ⟨m, hm⟩ := List.exists_mem_of_ne_nil _ hne
    obtain ⟨v, hv⟩ := exists_includes_of_mem_dailyBackfill (fun row hrow =>
      (hgenuine row hrow).bounds) hm
    -- the version would be in a gap of the day
    have hgap : v ∈ {v | ∃ m ∈ dailyBackfill s.transactions day, m.span.Includes v} := ⟨m, hm, hv⟩
    rw [setOf_dailyBackfill hmono hgenuine] at hgap
    exact hgap.2 (hclosed day hday hgap.1)

/-- Two versions of the first day, between which one is missing. -/
def sampleGap : List TransactionsRow := [sampleRow 0 0, sampleRow 2 86400000000]

/-- Publishing the first day fails, and goes through when the task is retried. The row that was
missing is loaded. -/
def sampleBackfill : List BackfillEvent :=
  [.query 0, .fail 0 0, .publish 0, .load (sampleRow 1 43200000000)]

/-- The first day is run, and then has nothing more to publish. -/
theorem backfill_converges_sample :
    ∃ s, run backfillStep (.new sampleGap) sampleBackfill = some s ∧ s.days = [0] ∧
      s.failed = [0] ∧ ∀ day ∈ s.days, dailyBackfill s.transactions day = [] := by
  have hmono : Monotone fun v : ℤ => v * 43200000000 := by
    intro u v hle
    have hle : u * 43200000000 ≤ v * 43200000000 := by omega
    exact hle
  have hgap : ∀ row ∈ sampleGap, Genuine (fun v => v * 43200000000) row := by
    intro row hrow
    rcases List.mem_pair.1 hrow with rfl | rfl
    · exact ⟨by decide, rfl⟩
    · exact ⟨by decide, rfl⟩
  have hpublished : dailyBackfill sampleGap 0 = [⟨1, 1, none⟩] := by decide
  set s : Backfilling := ⟨sampleGap ++ [sampleRow 1 43200000000], [(0, sampleGap)],
    dailyBackfill sampleGap 0, [0], [0]⟩
  have hreach : Reaches backfillStep (BackfillAllowed fun v => v * 43200000000)
      (.new sampleGap) s := by
    have hquery : Reaches backfillStep (BackfillAllowed fun v => v * 43200000000)
        (.new sampleGap) ⟨sampleGap, [(0, sampleGap)], [], [], []⟩ :=
      .tail (e := .query 0) .refl trivial rfl
    have hfail : Reaches backfillStep (BackfillAllowed fun v => v * 43200000000)
        (.new sampleGap) ⟨sampleGap, [(0, sampleGap)], [], [], [0]⟩ :=
      hquery.tail (e := .fail 0 0) trivial rfl
    have hpublish : Reaches backfillStep (BackfillAllowed fun v => v * 43200000000)
        (.new sampleGap) ⟨sampleGap, [(0, sampleGap)], dailyBackfill sampleGap 0, [0], [0]⟩ :=
      hfail.tail (e := .publish 0) trivial rfl
    refine hpublish.tail (e := .load (sampleRow 1 43200000000)) ⟨⟨by decide, rfl⟩, ?_⟩ rfl
    exact ⟨⟨1, 1, none⟩, by rw [hpublished]; decide, by decide⟩
  refine ⟨s, rfl, rfl, rfl, (backfill_converges hmono hgap hreach (fun day hday => hday) ?_).2⟩
  intro m hm v hv
  obtain rfl : m = ⟨1, 1, none⟩ := List.mem_singleton.1 (hpublished ▸ hm)
  obtain rfl : v = 1 := le_antisymm hv.2 hv.1
  exact ⟨sampleRow 1 43200000000, List.mem_append_right _ List.mem_cons_self, rfl⟩

end AptosEtl.Airflow
