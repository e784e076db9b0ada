import AptosEtl.Airflow.Warehouse
import AptosEtl.Lib.Outcome
import AptosEtl.Lib.Sql

/-!
# The row count check

`row_counts.py`: for each table with the rows of each transaction, the query that compares the
counts in the transactions table with the rows that there are, and the task that fails on a
mismatch.

The query joins the rows to the transactions with a `LEFT JOIN`, and then asks of the joined row
that its timestamp is in the window, which is unknown where there is none. `detectsMismatches_iff`
says on which tables the query is right.
-/

namespace AptosEtl.Airflow

/-! ## The query -/

/-- A column of the transactions table that counts rows. -/
inductive CountField where
  | num_changes_total
  | num_changes_write_module
  | num_changes_delete_module
  | num_changes_write_table_item
  | num_changes_delete_table_item
  | num_changes_write_resource
  | num_changes_delete_resource
  | num_events
  | num_signatures
  deriving DecidableEq, Repr

/-- The value of a column, `none` where it is `NULL`. -/
def CountField.value (t : TransactionsRow) : CountField → Option ℤ
  | .num_changes_total => some t.num_changes.total
  | .num_changes_write_module => some t.num_changes.write_module
  | .num_changes_delete_module => some t.num_changes.delete_module
  | .num_changes_write_table_item => some t.num_changes.write_table_item
  | .num_changes_delete_table_item => some t.num_changes.delete_table_item
  | .num_changes_write_resource => some t.num_changes.write_resource
  | .num_changes_delete_resource => some t.num_changes.delete_resource
  | .num_events => t.num_events
  | .num_signatures => t.num_signatures

/-- A value of `TRANSACTION_COUNTS_TABLE`: a string, or a list with a first element. -/
inductive TableCountFields where
  | str (field : CountField)
  | list (field : CountField) (fields : List CountField)
  deriving DecidableEq, Repr

/-- The tables that are checked with the common query. -/
inductive CountedTable where
  | changes
  | events
  | modules
  | table_items
  | resources
  | signatures
  deriving DecidableEq, Repr

/-- `TRANSACTION_COUNTS_TABLE`. -/
def transactionCountsTable : CountedTable → TableCountFields
  | .changes => .str .num_changes_total
  | .events => .str .num_events
  | .modules => .list .num_changes_write_module [.num_changes_delete_module]
  | .table_items => .list .num_changes_write_table_item [.num_changes_delete_table_item]
  | .resources => .list .num_changes_write_resource [.num_changes_delete_resource]
  | .signatures => .str .num_signatures

/-- `prepare_sum_fields`: the value of the expression that it makes, the fields with `+` between
them. -/
def prepareSumFields (t : TransactionsRow) : TableCountFields → Option ℤ
  | .str field => field.value t
  | .list field fields =>
    fields.foldl (fun sum field => sum.bind fun a => (field.value t).map fun b => a + b)
      (field.value t)

/-- A row that the query selects. -/
structure MismatchRow where
  tx_version : ℤ
  sum_esc : Option ℤ
  record_count : ℤ
  deriving DecidableEq, Repr

/-- The window of the query, on both sides of the join. -/
def inWindow (yesterdate todate : ℤ) (r : TransactionsRow × Option RecordRow) : Sql.Truth :=
  (Sql.between (some r.1.block_timestamp) yesterdate todate).and
    (Sql.between (r.2.map (·.block_timestamp)) yesterdate todate)

/-- `ON t.tx_version = c.tx_version`. -/
def onVersion (t : TransactionsRow) (c : RecordRow) : Sql.Truth :=
  Sql.compare (fun a b => decide (a = b)) (some t.tx_version) (some c.tx_version)

/-- `GROUP BY t.tx_version, sum_esc`. -/
def groupKey (table : CountedTable) (t : TransactionsRow) : ℤ × Option ℤ :=
  (t.tx_version, prepareSumFields t (transactionCountsTable table))

/-- `_bigquery_row_count_mismatches`, of a table other than the blocks table. -/
def bigqueryRowCountMismatches (table : CountedTable) (transactions : List TransactionsRow)
    (records : List RecordRow) (yesterdate todate : ℤ) : List ℤ :=
  let windowed := Sql.filter (inWindow yesterdate todate)
    (Sql.leftJoin onVersion transactions records)
  let groups := Sql.groupBy (fun r => groupKey table r.1) windowed
  let selected := groups.map fun g : (ℤ × Option ℤ) × List (TransactionsRow × Option RecordRow) =>
    MismatchRow.mk g.1.1 g.1.2 (Sql.count (fun r => r.2.map (·.tx_version)) g.2)
  let having := Sql.filter (fun row =>
    Sql.compare (fun a b => decide (a ≠ b)) row.sum_esc (some row.record_count)) selected
  having.map (·.tx_version)

/-- `_check_mismatches_length`. -/
def checkMismatchesLength (table_name : String) (mismatches : List ℤ) :
    Rust.Outcome String Unit :=
  if mismatches.length ≠ 0 then
    .err ("Row count mismatch found for table " ++ table_name)
  else
    .ok ()

/-! ## What the query returns -/

/-- The rows of a version. -/
def recordsOf (records : List RecordRow) (tx_version : ℤ) : List RecordRow :=
  records.filter fun c => c.tx_version = tx_version

/-- The rows of each transaction carry its timestamp. -/
def CarryTimestamps (transactions : List TransactionsRow) (records : List RecordRow) : Prop :=
  ∀ t ∈ transactions, ∀ c ∈ records, c.tx_version = t.tx_version →
    c.block_timestamp = t.block_timestamp

/-- The transaction is in the window. -/
def Windowed (yesterdate todate : ℤ) (t : TransactionsRow) : Prop :=
  yesterdate ≤ t.block_timestamp ∧ t.block_timestamp ≤ todate

variable {table : CountedTable} {transactions : List TransactionsRow} {records : List RecordRow}
  {yesterdate todate : ℤ}

/-- A joined row is in the window when the transaction is and there is a row that is. -/
theorem holds_inWindow {r : TransactionsRow × Option RecordRow} :
    (inWindow yesterdate todate r).Holds ↔ Windowed yesterdate todate r.1 ∧
      ∃ c, r.2 = some c ∧ yesterdate ≤ c.block_timestamp ∧ c.block_timestamp ≤ todate := by
  simp [inWindow, Windowed]

/-- Of the rows that are joined to a transaction of the window, its own are left. The one with
`NULL`, for a transaction without rows, is not. -/
theorem filter_joined {t : TransactionsRow} (ht : t ∈ transactions)
    (hwindow : Windowed yesterdate todate t) (hcarry : CarryTimestamps transactions records) :
    Sql.filter (inWindow yesterdate todate) (Sql.joined onVersion records t) =
      (recordsOf records t.tx_version).map fun c => (t, some c) := by
  have hon : Sql.filter (onVersion t) records = recordsOf records t.tx_version := by
    refine List.filter_congr fun c _ => ?_
    simp [onVersion, eq_comm]
  -- without rows there is one joined row, and its window is unknown
  have hreject : Sql.NullRejecting (inWindow yesterdate todate) := by
    intro t hholds
    simp [holds_inWindow] at hholds
  rw [Sql.filter_joined_of_nullRejecting hreject, hon]
  refine Sql.filter_eq_self fun r hr => ?_
  obtain ⟨c, hc, rfl⟩ := List.mem_map.1 hr
  obtain ⟨hc, hversion⟩ := List.mem_filter.1 hc
  have htimestamp := hcarry t ht c hc (of_decide_eq_true hversion)
  exact holds_inWindow.2 ⟨hwindow, c, rfl, by rw [htimestamp]; exact hwindow⟩

variable (table) in
/-- With distinct versions, the rows in the window that are grouped with a transaction of the window
are its own. -/
theorem filter_groupKey (hdistinct : (transactions.map (·.tx_version)).Nodup)
    (hcarry : CarryTimestamps transactions records) {t : TransactionsRow} (ht : t ∈ transactions)
    (hwindow : Windowed yesterdate todate t) :
    (Sql.filter (inWindow yesterdate todate) (Sql.leftJoin onVersion transactions records)).filter
        (fun r => groupKey table r.1 = groupKey table t) =
      (recordsOf records t.tx_version).map fun c => (t, some c) := by
  -- the version is part of the key
  have hkeys : (transactions.map (groupKey table)).Nodup := by
    refine List.Nodup.of_map Prod.fst ?_
    rwa [List.map_map]
  rw [Sql.filter, List.filter_comm, Sql.filter_leftJoin_of_key hkeys ht]
  exact filter_joined ht hwindow hcarry

/-- The groups of the query: for each transaction of the window that has rows, its rows. -/
theorem mem_groups (hdistinct : (transactions.map (·.tx_version)).Nodup)
    (hcarry : CarryTimestamps transactions records) {k : ℤ × Option ℤ}
    {group : List (TransactionsRow × Option RecordRow)} :
    (k, group) ∈ Sql.groupBy (fun r => groupKey table r.1)
        (Sql.filter (inWindow yesterdate todate)
          (Sql.leftJoin onVersion transactions records)) ↔
      ∃ t ∈ transactions, Windowed yesterdate todate t ∧ recordsOf records t.tx_version ≠ [] ∧
        k = groupKey table t ∧
          group = (recordsOf records t.tx_version).map fun c => (t, some c) := by
  rw [Sql.mem_groupBy]
  constructor
  · rintro ⟨⟨r, hr, rfl⟩, rfl⟩
    obtain ⟨hjoin, hholds⟩ := Sql.mem_filter.1 hr
    obtain ⟨t, ht, hjoined⟩ := List.mem_flatMap.1 hjoin
    obtain rfl := Sql.fst_of_mem_joined hjoined
    have hwindow := (holds_inWindow.1 hholds).1
    have hgroup := filter_groupKey table hdistinct hcarry ht hwindow
    refine ⟨r.1, ht, hwindow, fun hnone => ?_, rfl, hgroup⟩
    -- the row is in its own group, which would be empty
    rw [hnone, List.map_nil, List.filter_eq_nil_iff] at hgroup
    exact hgroup r hr (decide_eq_true rfl)
  · rintro ⟨t, ht, hwindow, hsome, rfl, rfl⟩
    have hgroup := filter_groupKey table hdistinct hcarry ht hwindow
    refine ⟨?_, hgroup.symm⟩
    obtain ⟨c, hc⟩ := List.exists_mem_of_ne_nil _ hsome
    have hmem : (t, some c) ∈ (recordsOf records t.tx_version).map fun c => (t, some c) :=
      List.mem_map_of_mem hc
    rw [← hgroup] at hmem
    exact ⟨_, (List.mem_filter.1 hmem).1, rfl⟩

/-- The record count of the group of a transaction is the number of its rows. -/
theorem count_group (t : TransactionsRow) (cs : List RecordRow) :
    Sql.count (fun r : TransactionsRow × Option RecordRow => r.2.map (·.tx_version))
      (cs.map fun c => (t, some c)) = cs.length := by
  have hsome : ((fun r : TransactionsRow × Option RecordRow => r.2.map (·.tx_version)) ∘
      fun c => (t, some c)) = some ∘ RecordRow.tx_version := rfl
  rw [Sql.count, List.filterMap_map, hsome, List.filterMap_eq_map, List.length_map]

/-- With distinct versions, the query returns the transactions of the window that have rows, but not
as many as they count. -/
theorem mem_bigqueryRowCountMismatches
    (hdistinct : (transactions.map (·.tx_version)).Nodup)
    (hcarry : CarryTimestamps transactions records) {v : ℤ} :
    v ∈ bigqueryRowCountMismatches table transactions records yesterdate todate ↔
      ∃ t ∈ transactions, t.tx_version = v ∧ Windowed yesterdate todate t ∧
        recordsOf records v ≠ [] ∧
        ∃ n, prepareSumFields t (transactionCountsTable table) = some n ∧
          n ≠ (recordsOf records v).length := by
  simp only [bigqueryRowCountMismatches, List.mem_map, Sql.mem_filter, Sql.holds_compare,
    Prod.exists, mem_groups hdistinct hcarry]
  constructor
  · rintro ⟨row, ⟨⟨_, _, group, ⟨t, ht, hwindow, hsome, hkey, rfl⟩, rfl⟩, a, b, hsum, hb, hne⟩, rfl⟩
    obtain ⟨rfl, rfl⟩ := Prod.mk.inj hkey
    obtain rfl := Option.some.inj hb
    refine ⟨t, ht, rfl, hwindow, hsome, a, hsum, ?_⟩
    simpa [count_group] using hne
  · rintro ⟨t, ht, rfl, hwindow, hsome, n, hsum, hne⟩
    refine ⟨_, ⟨⟨_, _, _, ⟨t, ht, hwindow, hsome, rfl, rfl⟩, rfl⟩, n, _, hsum, rfl, ?_⟩, rfl⟩
    simpa [count_group] using hne

/-! ## The check -/

/-- The query detects every mismatch: it returns the versions of the window whose count is not
`NULL` and is not the number of their rows. -/
def DetectsMismatches (table : CountedTable) (transactions : List TransactionsRow)
    (records : List RecordRow) (yesterdate todate : ℤ) : Prop :=
  ∀ v, v ∈ bigqueryRowCountMismatches table transactions records yesterdate todate ↔
    ∃ t ∈ transactions, t.tx_version = v ∧ Windowed yesterdate todate t ∧
      ∃ n, prepareSumFields t (transactionCountsTable table) = some n ∧
        n ≠ (recordsOf records v).length

/-- The query is right exactly when the transactions of the window that have no rows count none. -/
theorem detectsMismatches_iff (hdistinct : (transactions.map (·.tx_version)).Nodup)
    (hcarry : CarryTimestamps transactions records) :
    DetectsMismatches table transactions records yesterdate todate ↔
      ∀ t ∈ transactions, Windowed yesterdate todate t → recordsOf records t.tx_version = [] →
        ∀ n, prepareSumFields t (transactionCountsTable table) = some n → n = 0 := by
  unfold DetectsMismatches
  constructor
  · intro h t ht hwindow hnone n hsum
    by_contra hne
    have hmissed : n ≠ (recordsOf records t.tx_version).length := by
      rw [hnone]
      exact hne
    obtain ⟨_, -, -, -, hsome, -⟩ := (mem_bigqueryRowCountMismatches hdistinct hcarry).1
      ((h t.tx_version).2 ⟨t, ht, rfl, hwindow, n, hsum, hmissed⟩)
    exact hsome hnone
  · intro h v
    rw [mem_bigqueryRowCountMismatches hdistinct hcarry]
    constructor
    · rintro ⟨t, ht, hversion, hwindow, -, hcount⟩
      exact ⟨t, ht, hversion, hwindow, hcount⟩
    · rintro ⟨t, ht, rfl, hwindow, n, hsum, hne⟩
      refine ⟨t, ht, rfl, hwindow, fun hnone => hne ?_, n, hsum, hne⟩
      rw [h t ht hwindow hnone n hsum, hnone]
      rfl

/-- The check of a table passes exactly when every transaction of the window that has rows has as
many as it counts, if its count is not `NULL`. -/
theorem checkMismatchesLength_eq_ok (table_name : String)
    (hdistinct : (transactions.map (·.tx_version)).Nodup)
    (hcarry : CarryTimestamps transactions records) :
    checkMismatchesLength table_name
        (bigqueryRowCountMismatches table transactions records yesterdate todate) = .ok () ↔
      ∀ t ∈ transactions, Windowed yesterdate todate t → recordsOf records t.tx_version ≠ [] →
        ∀ n, prepareSumFields t (transactionCountsTable table) = some n →
          n = (recordsOf records t.tx_version).length := by
  -- the check passes when the query returns nothing
  have hnil : checkMismatchesLength table_name
      (bigqueryRowCountMismatches table transactions records yesterdate todate) = .ok () ↔
        ∀ v, v ∉ bigqueryRowCountMismatches table transactions records yesterdate todate := by
    rw [← List.eq_nil_iff_forall_not_mem, checkMismatchesLength]
    split_ifs with h <;> simpa using h
  rw [hnil]
  simp only [mem_bigqueryRowCountMismatches hdistinct hcarry]
  constructor
  · intro h t ht hwindow hsome n hsum
    by_contra hne
    exact h t.tx_version ⟨t, ht, rfl, hwindow, hsome, n, hsum, hne⟩
  · rintro h v ⟨t, ht, rfl, hwindow, hsome, n, hsum, hne⟩
    exact hne (h t ht hwindow hsome n hsum)

/-- A transaction with two events. -/
def sampleTransaction : TransactionsRow where
  tx_version := 7
  block_timestamp := 1000000
  num_changes := ⟨0, 0, 0, 0, 0, 0, 0⟩
  num_events := some 2
  num_signatures := none

/-- One of its events is missing. -/
theorem detectsMismatches_iff_sample :
    DetectsMismatches .events [sampleTransaction] [⟨7, 1000000⟩] 0 (midnight 1) ↔
      ∀ t ∈ [sampleTransaction], Windowed 0 (midnight 1) t →
        recordsOf [⟨7, 1000000⟩] t.tx_version = [] →
          ∀ n, prepareSumFields t (transactionCountsTable .events) = some n → n = 0 :=
  detectsMismatches_iff (by decide) (by unfold CarryTimestamps; decide)

/-- When both of its events are missing, the query returns nothing. -/
theorem not_detectsMismatches_of_no_rows :
    ¬ DetectsMismatches .events [sampleTransaction] [] 0 (midnight 1) := by
  intro h
  have hmissing := (h 7).2 ⟨sampleTransaction, by decide, rfl, by unfold Windowed; decide, 2,
    rfl, by decide⟩
  have hnothing :
      bigqueryRowCountMismatches .events [sampleTransaction] [] 0 (midnight 1) = [] := by
    decide
  rw [hnothing] at hmissing
  simp at hmissing

end AptosEtl.Airflow
