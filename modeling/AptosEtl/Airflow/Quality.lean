import AptosEtl.Airflow.Dedupe
import AptosEtl.Airflow.RowCounts

/-!
# What the row count check sees

The row count check on the tables that the extraction fills. The counts of a transaction row are the
numbers of rows of its transaction in the other tables, so that the check compares what a table has
with what it should have. Still, it does not see everything that is missing: it passes exactly when
each transaction has all of its rows in the table, or none of them (`checkRowCounts_iff`).
-/

namespace AptosEtl.Airflow

open Rust Input Reps Tables

/-! ## The tables as the check reads them -/

/-- The table of the rows that are counted. -/
def CountedTable.table : CountedTable → Table
  | .changes => .Changes
  | .events => .Events
  | .modules => .Modules
  | .table_items => .TableItems
  | .resources => .Resources
  | .signatures => .Signatures

/-- The column `num_changes` of a row. -/
def NumChanges.ofRow (num_changes : Rows.ChangesAggregate) : NumChanges where
  total := num_changes.total
  delete_module := num_changes.delete_module
  delete_resource := num_changes.delete_resource
  delete_table_item := num_changes.delete_table_item
  write_module := num_changes.write_module
  write_resource := num_changes.write_resource
  write_table_item := num_changes.write_table_item

/-- A row of the transactions table, with its timestamp. -/
def TransactionsRow.ofRow (row : Rows.Transaction) (block_timestamp : ℤ) : TransactionsRow where
  tx_version := row.tx_version.toNat
  block_timestamp
  num_changes := .ofRow row.num_changes
  num_events := row.num_events.map Nat.cast
  num_signatures := row.num_signatures.map Nat.cast

/-- A row of another table, with its timestamp. -/
def RecordRow.ofRow (table : Table) (row : table.Row) (block_timestamp : ℤ) : RecordRow where
  tx_version := (table.version row).toNat
  block_timestamp

/-- The transactions table. A row without a timestamp cannot be loaded. -/
def readTransactions (readTimestamp : String → Option ℤ) (rows : List Rows.Transaction) :
    List TransactionsRow :=
  rows.filterMap fun row => (readTimestamp row.block_timestamp).map (.ofRow row)

/-- Another table. -/
def readRecords (readTimestamp : String → Option ℤ) (table : Table) (rows : List table.Row) :
    List RecordRow :=
  rows.filterMap fun row => (readTimestamp (table.blockTimestamp row)).map (.ofRow table row)

/-- The rows of a version. -/
def rowsWith {table : Table} (rows : List table.Row) (version : UInt64) : List table.Row :=
  rows.filter fun row => table.version row = version

/-- The timestamp of a transaction is read as a number. -/
def ReadAs (crates : Crates) (readTimestamp : String → Option ℤ) (value : Input.Transaction)
    (time : ℤ) : Prop :=
  ∀ tx timestamp, TransactionExtraction.tryFrom value = .ok tx →
    tx.getEncodedTimestamp crates = .ok timestamp → readTimestamp timestamp = some time

variable {crates : Crates} {readTimestamp : String → Option ℤ}

/-- A row that is read is of a row of the table, with its timestamp. -/
theorem mem_readTransactions {rows : List Rows.Transaction} {t : TransactionsRow} :
    t ∈ readTransactions readTimestamp rows ↔ ∃ row ∈ rows, ∃ time,
      readTimestamp row.block_timestamp = some time ∧ .ofRow row time = t := by
  simp only [readTransactions, List.mem_filterMap, Option.map_eq_some_iff]

/-- A row that is read is of a row of the table, with its timestamp. -/
theorem mem_readRecords {table : Table} {rows : List table.Row} {c : RecordRow} :
    c ∈ readRecords readTimestamp table rows ↔ ∃ row ∈ rows, ∃ time,
      readTimestamp (table.blockTimestamp row) = some time ∧ .ofRow table row time = c := by
  simp only [readRecords, List.mem_filterMap, Option.map_eq_some_iff]

/-- The versions that are read are those of the rows. -/
theorem toNat_inj {v w : UInt64} : (v.toNat : ℤ) = w.toNat ↔ v = w := by
  rw [Int.natCast_inj, UInt64.toNat_inj]

/-- The check counts the rows of a version, if they all can be read. -/
theorem length_recordsOf {table : Table} {rows : List table.Row} (version : UInt64)
    (hread : ∀ row ∈ rows, ∃ time, readTimestamp (table.blockTimestamp row) = some time) :
    (recordsOf (readRecords readTimestamp table rows) version.toNat).length =
      (rowsWith rows version).length := by
  induction rows with
  | nil => rfl
  | cons row rows ih =>
    obtain ⟨time, htime⟩ := hread row List.mem_cons_self
    have hrest := ih fun row' hrow' => hread row' (List.mem_cons_of_mem row hrow')
    have hcons : readRecords readTimestamp table (row :: rows) =
        .ofRow table row time :: readRecords readTimestamp table rows := by
      rw [readRecords, List.filterMap_cons, htime]
      rfl
    have hversion : (RecordRow.ofRow table row time).tx_version = version.toNat ↔
        table.version row = version := toNat_inj
    simp only [recordsOf, rowsWith] at hrest ⊢
    rw [hcons, List.filter_cons, List.filter_cons]
    by_cases hsame : table.version row = version
    · rw [if_pos (decide_eq_true (hversion.2 hsame)), if_pos (decide_eq_true hsame),
        List.length_cons, List.length_cons, hrest]
    · rw [if_neg (by simpa using hversion.not.2 hsame), if_neg (by simpa using hsame), hrest]

/-! ## The counts of a transaction -/

/-- The count that a transaction row has for a table is the number of rows of the transaction there,
or `NULL` where it has none. -/
def Counts (crates : Crates) (value : Input.Transaction) (t : TransactionsRow)
    (table : CountedTable) : Prop :=
  prepareSumFields t (transactionCountsTable table) =
      some ((rowsOf crates value table.table).length : ℤ) ∨
    prepareSumFields t (transactionCountsTable table) = none ∧
      rowsOf crates value table.table = []

/-- A transaction that was extracted has one row in the transactions table, whose counts are the
numbers of its rows in the other tables. -/
theorem exists_counts {value : Input.Transaction} {records : Rows.Records}
    (h : extractRecords crates value = .ok records) :
    ∃ row, rowsOf crates value .Transactions = [row] ∧
      ∀ time table, Counts crates value (.ofRow row time) table := by
  simp only [Counts, ← extractRecords_rows h]
  obtain ⟨tx, block, changes, events, sigs, row, hstages, rfl⟩ := extractRecords_eq_ok.1 h
  obtain ⟨hwell, -⟩ := TransactionExtraction.tryFrom_spec hstages.extraction
  have hrecords := getChanges_spec hstages.changes
  have hrow := getTransactions_spec hstages.row
  have hevents := (getEvents_spec hstages.events).1
  have hsigs : row.num_signatures = sigs.map List.length := by
    refine hrow.num_signatures ?_
    rw [Option.isSome_map, (getSignatures_spec hstages.signatures).1, hwell.isUser]
  -- every change is of a specified kind, so that the kinds add up to the families
  have haggregate := tx.tx_info.calculateChangesAggregate_eq fun change hchange =>
    getType_ne_unspecified (hwell.changes change hchange)
  have hnum := Outcome.ok.inj (hrow.num_changes.symm.trans haggregate)
  obtain ⟨hm, hr, ht⟩ := countP_family hwell.changes
  refine ⟨row, rfl, fun time table => ?_⟩
  cases table with
  | changes =>
    refine .inl (congrArg some ?_)
    simp only [TransactionsRow.ofRow, NumChanges.ofRow, hnum, tableRows, CountedTable.table,
      hrecords.length_changes]
  | modules =>
    refine .inl (congrArg some ?_)
    simp only [TransactionsRow.ofRow, NumChanges.ofRow, hnum, tableRows, CountedTable.table,
      hrecords.length_modules, ← hm, Int.natCast_add]
  | resources =>
    refine .inl (congrArg some ?_)
    simp only [TransactionsRow.ofRow, NumChanges.ofRow, hnum, tableRows, CountedTable.table,
      hrecords.length_resources, ← hr, Int.natCast_add]
  | table_items =>
    refine .inl (congrArg some ?_)
    simp only [TransactionsRow.ofRow, NumChanges.ofRow, hnum, tableRows, CountedTable.table,
      hrecords.length_tableitems, ← ht, Int.natCast_add]
  | events =>
    have hcolumn : (TransactionsRow.ofRow row time).num_events =
        (events.map List.length).map Nat.cast := by
      rw [hevents]
      exact congrArg (Option.map Nat.cast) hrow.num_events
    cases events with
    | none => exact .inr ⟨hcolumn, rfl⟩
    | some rows => exact .inl hcolumn
  | signatures =>
    have hcolumn : (TransactionsRow.ofRow row time).num_signatures =
        (sigs.map List.length).map Nat.cast := congrArg (Option.map Nat.cast) hsigs
    cases sigs with
    | none => exact .inr ⟨hcolumn, rfl⟩
    | some rows => exact .inl hcolumn

/-! ## The check on the tables of a chain -/

/-- The rows of a transaction have its timestamp. -/
theorem timestamp_of_mem {table : Table} {value : Input.Transaction} {time : ℤ}
    (hread : ReadAs crates readTimestamp value time)
    (hextracted : ∃ records, extractRecords crates value = .ok records) {row : table.Row}
    (hrow : row ∈ rowsOf crates value table) :
    readTimestamp (table.blockTimestamp row) = some time := by
  obtain ⟨records, hrecords⟩ := hextracted
  obtain ⟨tx, block, changes, events, sigs, txRow, hstages, -⟩ := extractRecords_eq_ok.1 hrecords
  obtain ⟨⟨timestamp, htimestamp⟩, number, hnumber⟩ := exists_columns_of_getChanges hstages.changes
  rw [← extractRecords_rows hrecords] at hrow
  have hcarries :=
    carries_of_extractRecords hrecords hstages.extraction htimestamp hnumber table row hrow
  have hcolumn : table.blockTimestamp row = timestamp :=
    congrArg SharedColumns.block_timestamp hcarries.shared
  rw [hcolumn]
  exact hread tx timestamp hstages.extraction htimestamp

/-- The rows of a chain with the version of one of its transactions are those of the transaction. -/
theorem Chain.rowsWith_eq {chain : List Input.Transaction} (h : Chain crates chain)
    {value : Input.Transaction} (hvalue : value ∈ chain) (table : Table) :
    rowsWith (chain.flatMap (rowsOf crates · table)) value.version = rowsOf crates value table :=
  Sql.filter_flatMap_of_key h.versions (fun _ _ _ hrow => rowsOf_version hrow) hvalue

/-- Some of the rows of a chain are in the transactions table and in another one. -/
structure PartlyLoaded (crates : Crates) (readTimestamp : String → Option ℤ)
    (chain : List Input.Transaction) (time : Input.Transaction → ℤ) (table : Table)
    (transactions : List Rows.Transaction) (rows : List table.Row) : Prop where
  isChain : Chain crates chain
  readAs : ∀ value ∈ chain, ReadAs crates readTimestamp value (time value)
  transactions_subperm : transactions.Subperm (chain.flatMap (rowsOf crates · .Transactions))
  rows_subperm : rows.Subperm (chain.flatMap (rowsOf crates · table))

section PartlyLoaded

variable {chain : List Input.Transaction} {time : Input.Transaction → ℤ} {table : Table}
  {transactions : List Rows.Transaction} {rows : List table.Row}

/-- A row of the transactions table is of a transaction, and counts its rows. -/
theorem PartlyLoaded.exists_of_transaction
    (h : PartlyLoaded crates readTimestamp chain time table transactions rows)
    {row : Rows.Transaction} (hrow : row ∈ transactions) :
    ∃ value ∈ chain, row.tx_version = value.version ∧
      readTimestamp row.block_timestamp = some (time value) ∧
        ∀ counted, Counts crates value (.ofRow row (time value)) counted := by
  obtain ⟨value, hvalue, hmem⟩ := List.mem_flatMap.1 (h.transactions_subperm.subset hrow)
  obtain ⟨records, hrecords⟩ := h.isChain.extracted value hvalue
  obtain ⟨row', hone, hcounts⟩ := exists_counts hrecords
  have htime := timestamp_of_mem (h.readAs value hvalue) ⟨records, hrecords⟩ hmem
  have hversion := rowsOf_version hmem
  rw [hone, List.mem_singleton] at hmem
  subst hmem
  exact ⟨value, hvalue, hversion, htime, hcounts _⟩

/-- A row of the other table is of a transaction. -/
theorem PartlyLoaded.exists_of_row
    (h : PartlyLoaded crates readTimestamp chain time table transactions rows) {row : table.Row}
    (hrow : row ∈ rows) :
    ∃ value ∈ chain, table.version row = value.version ∧
      readTimestamp (table.blockTimestamp row) = some (time value) := by
  obtain ⟨value, hvalue, hmem⟩ := List.mem_flatMap.1 (h.rows_subperm.subset hrow)
  exact ⟨value, hvalue, rowsOf_version hmem,
    timestamp_of_mem (h.readAs value hvalue) (h.isChain.extracted value hvalue) hmem⟩

/-- A transaction is determined by its version. -/
theorem PartlyLoaded.eq_of_version
    (h : PartlyLoaded crates readTimestamp chain time table transactions rows)
    {value value' : Input.Transaction} (hvalue : value ∈ chain) (hvalue' : value' ∈ chain)
    (hversion : value.version = value'.version) : value = value' :=
  List.inj_on_of_nodup_map h.isChain.versions hvalue hvalue' hversion

/-- The transactions that the check reads have different versions. -/
theorem PartlyLoaded.distinct
    (h : PartlyLoaded crates readTimestamp chain time table transactions rows) :
    ((readTransactions readTimestamp transactions).map (·.tx_version)).Nodup := by
  have hne : Table.Transactions ≠ .Signatures := by decide
  have hall : ((chain.flatMap (rowsOf crates · .Transactions)).map
      Rows.Transaction.tx_version).Nodup := h.isChain.nodup_mergeKey hne
  obtain ⟨part, hperm, hsublist⟩ := h.transactions_subperm
  have hkeys : (transactions.map Rows.Transaction.tx_version).Nodup :=
    (hperm.map _).nodup_iff.1 (hall.sublist (hsublist.map _))
  rw [List.Nodup, List.pairwise_map, readTransactions, List.pairwise_filterMap]
  refine (List.pairwise_map.1 hkeys).imp fun {row row'} hdiffer t ht t' ht' hsame => ?_
  obtain ⟨_, -, rfl⟩ := Option.map_eq_some_iff.1 ht
  obtain ⟨_, -, rfl⟩ := Option.map_eq_some_iff.1 ht'
  exact hdiffer (toNat_inj.1 hsame)

/-- The rows that the check reads have the timestamps of their transactions. -/
theorem PartlyLoaded.carryTimestamps
    (h : PartlyLoaded crates readTimestamp chain time table transactions rows) :
    CarryTimestamps (readTransactions readTimestamp transactions)
      (readRecords readTimestamp table rows) := by
  intro t ht c hc hversion
  obtain ⟨row, hrow, _, hread, rfl⟩ := mem_readTransactions.1 ht
  obtain ⟨row', hrow', _, hread', rfl⟩ := mem_readRecords.1 hc
  obtain ⟨value, hvalue, hrowVersion, htime, -⟩ := h.exists_of_transaction hrow
  obtain ⟨value', hvalue', hrowVersion', htime'⟩ := h.exists_of_row hrow'
  have hsame : table.version row' = row.tx_version := toNat_inj.1 hversion
  obtain rfl := h.eq_of_version hvalue' hvalue
    (hrowVersion'.symm.trans (hsame.trans hrowVersion))
  exact Option.some.inj (hread'.symm.trans (htime'.trans (htime.symm.trans hread)))

/-- The check counts the rows of a transaction. -/
theorem PartlyLoaded.length_eq
    (h : PartlyLoaded crates readTimestamp chain time table transactions rows) (version : UInt64) :
    (recordsOf (readRecords readTimestamp table rows) version.toNat).length =
      (rowsWith rows version).length := by
  refine length_recordsOf version fun row hrow => ?_
  obtain ⟨value, -, -, htime⟩ := h.exists_of_row hrow
  exact ⟨time value, htime⟩

/-- The check finds no rows of a transaction exactly when there are none. -/
theorem PartlyLoaded.recordsOf_eq_nil_iff
    (h : PartlyLoaded crates readTimestamp chain time table transactions rows) (version : UInt64) :
    recordsOf (readRecords readTimestamp table rows) version.toNat = [] ↔
      rowsWith rows version = [] := by
  rw [← List.length_eq_zero_iff, h.length_eq, List.length_eq_zero_iff]

/-- The rows of a transaction that are in the table are some of its rows. -/
theorem PartlyLoaded.subperm
    (h : PartlyLoaded crates readTimestamp chain time table transactions rows)
    {value : Input.Transaction} (hvalue : value ∈ chain) :
    (rowsWith rows value.version).Subperm (rowsOf crates value table) := by
  rw [← h.isChain.rowsWith_eq hvalue table]
  exact h.rows_subperm.filter _

end PartlyLoaded

/-- Whatever rows are missing of the transactions and of another table, the check of the table
passes exactly when each transaction of the window whose row is there has all of its rows in the
table, or none of them. -/
theorem checkRowCounts_iff {chain : List Input.Transaction} {time : Input.Transaction → ℤ}
    {table : CountedTable} {transactions : List Rows.Transaction} {rows : List table.table.Row}
    (h : PartlyLoaded crates readTimestamp chain time table.table transactions rows)
    (table_name : String) (yesterdate todate : ℤ) :
    checkMismatchesLength table_name (bigqueryRowCountMismatches table
        (readTransactions readTimestamp transactions) (readRecords readTimestamp table.table rows)
        yesterdate todate) = .ok () ↔
      ∀ value ∈ chain, yesterdate ≤ time value → time value ≤ todate →
        (∃ row ∈ transactions, row.tx_version = value.version) →
          (rowsWith rows value.version).Perm (rowsOf crates value table.table) ∨
            rowsWith rows value.version = [] := by
  rw [checkMismatchesLength_eq_ok table_name h.distinct h.carryTimestamps]
  constructor
  · rintro hcheck value hvalue hfrom hto ⟨row, hrow, hversion⟩
    obtain ⟨value', hvalue', hversion', htime, hcounts⟩ := h.exists_of_transaction hrow
    obtain rfl := h.eq_of_version hvalue' hvalue (hversion'.symm.trans hversion)
    have hpart := h.subperm hvalue
    by_cases hnone : rowsWith rows value'.version = []
    · exact .inr hnone
    rcases hcounts table with hsum | ⟨-, hempty⟩
    · have hsome : recordsOf (readRecords readTimestamp table.table rows)
          row.tx_version.toNat ≠ [] := by
        rw [Ne, h.recordsOf_eq_nil_iff, hversion]
        exact hnone
      have hcount := hcheck _ (mem_readTransactions.2 ⟨row, hrow, _, htime, rfl⟩)
        ⟨hfrom, hto⟩ hsome _ hsum
      have hlength : (rowsOf crates value' table.table).length =
          (rowsWith rows value'.version).length := by
        rw [← h.length_eq, ← hversion]
        exact Int.natCast_inj.1 hcount
      exact .inl (hpart.perm_of_length_le hlength.le)
    · rw [hempty] at hpart
      exact .inr (List.subperm_nil.1 hpart)
  · intro hall t ht ⟨hfrom, hto⟩ hsome n hsum
    obtain ⟨row, hrow, _, hread, rfl⟩ := mem_readTransactions.1 ht
    obtain ⟨value, hvalue, hversion, htime, hcounts⟩ := h.exists_of_transaction hrow
    obtain rfl := Option.some.inj (hread.symm.trans htime)
    rcases hall value hvalue hfrom hto ⟨row, hrow, hversion⟩ with hperm | hnone
    · rcases hcounts table with hsum' | ⟨hnull, -⟩
      · have hlength := h.length_eq row.tx_version
        rw [hversion, hperm.length_eq, ← hversion] at hlength
        obtain rfl := Option.some.inj (hsum.symm.trans hsum')
        exact Int.natCast_inj.2 hlength.symm
      · cases hsum.symm.trans hnull
    · -- the transaction has rows in the table
      refine absurd ((h.recordsOf_eq_nil_iff row.tx_version).2 ?_) hsome
      rw [hversion]
      exact hnone

/-- A user transaction whose event is missing from the events table. -/
theorem partlyLoaded_sampleUser :
    PartlyLoaded sampleCrates sampleReadTimestamp [sampleUser] (fun _ => 0)
      CountedTable.events.table (rowsOf sampleCrates sampleUser .Transactions) [] := by
  constructor
  case isChain =>
    refine ⟨fun value hvalue => ?_, List.nodup_singleton _, List.nodup_nil⟩
    obtain rfl := List.mem_singleton.1 hvalue
    exact exists_records_sampleUser
  case readAs =>
    intro value hvalue tx timestamp htx htimestamp
    obtain rfl := List.mem_singleton.1 hvalue
    obtain rfl := Outcome.ok.inj htx
    obtain rfl := Outcome.ok.inj htimestamp
    rfl
  case transactions_subperm =>
    rw [List.flatMap_cons, List.flatMap_nil, List.append_nil]
  case rows_subperm => exact List.nil_subperm

/-- The check passes, although the event is missing. -/
theorem checkRowCounts_iff_sampleUser :
    checkMismatchesLength "events" (bigqueryRowCountMismatches .events
        (readTransactions sampleReadTimestamp (rowsOf sampleCrates sampleUser .Transactions))
        (readRecords sampleReadTimestamp .Events []) 0 (midnight 1)) = .ok () := by
  have hcheck := checkRowCounts_iff partlyLoaded_sampleUser "events" 0 (midnight 1)
  exact hcheck.2 fun value _ _ _ _ => .inr rfl

end AptosEtl.Airflow
