import AptosEtl.Airflow.SignatureKey
import AptosEtl.Airflow.Warehouse
import AptosEtl.Lib.Sql
import AptosEtl.Tables.SharedColumns

/-!
# The dedupe job

`daily_dedupe_mainnet.py`: for each table, a `MERGE` that replaces the rows of a day by one row of
each group of duplicates, which are the rows with the same values in the columns of
`SQL_MERGE_TABLE`. On the tables other than the signatures, these columns tell the rows of a
transaction apart, and the rows of different transactions, so that what is left is the rows of each
transaction once (`dedupe_repairs`).
-/

namespace AptosEtl.Airflow

open Rust Input Reps Tables

/-! ## The query -/

/-- The values of the columns of `SQL_MERGE_TABLE`. -/
abbrev MergeKey : Table → Type
  | .Transactions => UInt64
  | .Blocks => Int64
  | .Changes => ℕ × UInt64
  | .Events => ℕ × UInt64
  | .Modules => ℕ × UInt64
  | .TableItems => ℕ × UInt64
  | .Resources => ℕ × UInt64
  | .Signatures => SignatureKey

instance : (table : Table) → DecidableEq (MergeKey table)
  | .Transactions => inferInstanceAs (DecidableEq UInt64)
  | .Blocks => inferInstanceAs (DecidableEq Int64)
  | .Changes => inferInstanceAs (DecidableEq (ℕ × UInt64))
  | .Events => inferInstanceAs (DecidableEq (ℕ × UInt64))
  | .Modules => inferInstanceAs (DecidableEq (ℕ × UInt64))
  | .TableItems => inferInstanceAs (DecidableEq (ℕ × UInt64))
  | .Resources => inferInstanceAs (DecidableEq (ℕ × UInt64))
  | .Signatures => inferInstanceAs (DecidableEq SignatureKey)

/-- `SQL_MERGE_TABLE`. -/
def mergeKey : (table : Table) → table.Row → MergeKey table
  | .Transactions, row => Rows.Transaction.tx_version row
  | .Blocks, row => Rows.Block.block_height row
  | .Changes, row => (Rows.Change.change_index row, Rows.Change.tx_version row)
  | .Events, row => (Rows.Event.event_index row, Rows.Event.tx_version row)
  | .Modules, row => (Rows.Module.change_index row, Rows.Module.tx_version row)
  | .TableItems, row => (Rows.TableItem.change_index row, Rows.TableItem.tx_version row)
  | .Resources, row => (Rows.Resource.change_index row, Rows.Resource.tx_version row)
  | .Signatures, row => signatureKey row

/-- `BETWEEN TIMESTAMP('{YESTERDATE}') AND TIMESTAMP('{TODATE}')`, of a text that is read as a
timestamp. -/
def inDay (readTimestamp : String → Option ℤ) (day : ℤ) (block_timestamp : String) : Sql.Truth :=
  Sql.between (readTimestamp block_timestamp) (midnight day) (midnight (day + 1))

/-- The window of the query, on the rows of a table. -/
def dayWindow (readTimestamp : String → Option ℤ) (day : ℤ) (table : Table) (row : table.Row) :
    Sql.Truth :=
  inDay readTimestamp day (table.blockTimestamp row)

/-- `dedupe_sql`: the table after the query. -/
def dedupeSql (readTimestamp : String → Option ℤ) (day : ℤ) (table : Table)
    (pick : List table.Row → Option table.Row) (rows : List table.Row) : List table.Row :=
  let window := dayWindow readTimestamp day table
  let source := Sql.aggregateOne pick (Sql.groupBy (mergeKey table) (Sql.filter window rows))
  Sql.mergeOnFalse window source rows

/-! ## The rows of one transaction -/

section Transaction

variable {crates : Crates} {tx : TransactionExtraction} {value : Input.Transaction}
  {records : Rows.Records}

/-- Rows with different indices have different keys, where the index is part of the key. -/
theorem nodup_mergeKey_of_index {table : Table} {rows : List table.Row} (index : table.Row → ℕ)
    (indexOf : MergeKey table → ℕ) (hindex : ∀ row, indexOf (mergeKey table row) = index row)
    (h : (rows.map index).Nodup) : (rows.map (mergeKey table)).Nodup := by
  refine List.Nodup.of_map indexOf ?_
  rw [List.map_map]
  have hsame : indexOf ∘ mergeKey table = index := funext hindex
  rwa [hsame]

/-- At most one element has at most one index. -/
theorem sublist_of_option {α : Type} {row? : Option α} {index : α → ℕ} {i : ℕ}
    (h : ∀ row ∈ row?, index row = i) : (row?.toList.map index).Sublist [i] := by
  cases row? with
  | none => exact List.nil_sublist _
  | some row =>
    rw [← h row rfl]
    exact List.Sublist.refl _

/-- The events of a transaction have different keys. -/
theorem nodup_mergeKey_events {events : Option (List Rows.Event)}
    (h : getEvents crates tx = .ok events) :
    ((events.getD []).map (mergeKey .Events)).Nodup := by
  refine nodup_mergeKey_of_index Rows.Event.event_index Prod.fst (fun _ => rfl) ?_
  obtain ⟨-, rfl⟩ | ⟨events, timestamp, rows, -, -, hrows, rfl⟩ := getEvents_eq_ok h
  · exact List.nodup_nil
  · have hplaces : events.zipIdx.map Prod.snd = rows.map Rows.Event.event_index := by
      refine Aligned.map_eq_map (hrows.imp fun item row hrow => ?_)
      obtain ⟨extraction, number, address, -, -, -, rfl⟩ := eventRow_eq_ok hrow
      rfl
    rw [Option.getD_some, ← hplaces, List.zipIdx_map_snd]
    exact List.nodup_range' 1

/-- The rows that the changes have in a table have different keys, where each change has at most one
there, with its place as the index. -/
theorem nodup_mergeKey_of_built (table : Table) {columns : TxColumns}
    {records : List IncompleteChangeRecord} {built : List BuiltChange}
    (row? : BuiltChange → Option table.Row) (index : table.Row → ℕ) (indexOf : MergeKey table → ℕ)
    (hkey : ∀ row, indexOf (mergeKey table row) = index row)
    (hbuilt : List.Forall₂ (fun item b => buildChange crates tx columns item = .ok b)
      records.zipIdx built)
    (hindex : ∀ item b, buildChange crates tx columns item = .ok b →
      ∀ row ∈ row? b, index row = item.2) :
    ((built.flatMap fun b => (row? b).toList).map (mergeKey table)).Nodup := by
  refine nodup_mergeKey_of_index index indexOf hkey (Aligned.nodup_index hbuilt ?_)
  intro item b hb
  exact sublist_of_option (hindex item b hb)

/-- The rows of the changes of a transaction have different keys, in each of their tables. -/
theorem nodup_mergeKey_changes {changes : ChangeRecords}
    (h : getChanges crates tx = .ok changes) :
    (changes.changes.map (mergeKey .Changes)).Nodup ∧
      (changes.modules.map (mergeKey .Modules)).Nodup ∧
        (changes.resources.map (mergeKey .Resources)).Nodup ∧
          (changes.tableitems.map (mergeKey .TableItems)).Nodup := by
  obtain ⟨columns, built, -, hbuilt, rfl⟩ := getChanges_eq_ok.1 h
  rw [ofBuilt_changes, ofBuilt_modules, ofBuilt_resources, ofBuilt_tableitems]
  refine ⟨?_, ?_, ?_, ?_⟩
  · refine nodup_mergeKey_of_built .Changes (some ·.row) Rows.Change.change_index Prod.fst
      (fun _ => rfl) hbuilt fun item b hb => ?_
    rintro _ ⟨⟩
    exact (change_index_of_buildChange hb).1
  · exact nodup_mergeKey_of_built .Modules (·.family.module?) Rows.Module.change_index
      Prod.fst (fun _ => rfl) hbuilt fun item b hb => (change_index_of_buildChange hb).2.1
  · exact nodup_mergeKey_of_built .Resources (·.family.resource?) Rows.Resource.change_index
      Prod.fst (fun _ => rfl) hbuilt fun item b hb => (change_index_of_buildChange hb).2.2.1
  · exact nodup_mergeKey_of_built .TableItems (·.family.tableItem?) Rows.TableItem.change_index
      Prod.fst (fun _ => rfl) hbuilt fun item b hb => (change_index_of_buildChange hb).2.2.2

/-- The rows of a transaction have different keys, in each table other than the signatures. -/
theorem nodup_mergeKey_of_extractRecords (h : extractRecords crates value = .ok records)
    {table : Table} (hne : table ≠ .Signatures) :
    ((tableRows records table).map (mergeKey table)).Nodup := by
  obtain ⟨tx, block, changes, events, sigs, row, hstages, rfl⟩ := extractRecords_eq_ok.1 h
  obtain ⟨hchanges, hmodules, hresources, htableitems⟩ := nodup_mergeKey_changes hstages.changes
  cases table with
  | Transactions => exact List.nodup_singleton _
  | Blocks =>
    cases block with
    | none => exact List.nodup_nil
    | some block => exact List.nodup_singleton _
  | Changes => exact hchanges
  | Modules => exact hmodules
  | Resources => exact hresources
  | TableItems => exact htableitems
  | Events => exact nodup_mergeKey_events hstages.events
  | Signatures => exact absurd rfl hne

end Transaction

/-! ## The rows of a chain -/

/-- The transaction is one of block metadata. -/
def isBlockMetadata (value : Input.Transaction) : Bool :=
  match value.txn_data with
  | some (.BlockMetadata _) => true
  | _ => false

/-- The distinct transactions that are processed: their records are extracted, their versions are
distinct, and so are the heights of their blocks. -/
structure Chain (crates : Crates) (chain : List Input.Transaction) : Prop where
  extracted : ∀ value ∈ chain, ∃ records, extractRecords crates value = .ok records
  versions : (chain.map Input.Transaction.version).Nodup
  heights : ((chain.filter isBlockMetadata).map Input.Transaction.block_height).Nodup

/-- The timestamp of a transaction falls into a day. -/
def InDay (crates : Crates) (readTimestamp : String → Option ℤ) (day : ℤ)
    (value : Input.Transaction) : Prop :=
  ∀ tx timestamp, TransactionExtraction.tryFrom value = .ok tx →
    tx.getEncodedTimestamp crates = .ok timestamp → (inDay readTimestamp day timestamp).Holds

section Chains

variable {crates : Crates} {chain : List Input.Transaction} {table : Table}

/-- The rows with one key are of one version, in each table other than the blocks. -/
theorem version_of_mergeKey (hne : table ≠ .Blocks) {row row' : table.Row}
    (h : mergeKey table row = mergeKey table row') : table.version row = table.version row' := by
  cases table with
  | Transactions => exact h
  | Blocks => exact absurd rfl hne
  | Changes => exact congrArg Prod.snd h
  | Events => exact congrArg Prod.snd h
  | Modules => exact congrArg Prod.snd h
  | TableItems => exact congrArg Prod.snd h
  | Resources => exact congrArg Prod.snd h
  | Signatures => exact congrArg SignatureKey.tx_version h

/-- A block is of a transaction of block metadata, and of its height. -/
theorem block_of_mem {value : Input.Transaction} {block : Rows.Block}
    (h : block ∈ rowsOf crates value .Blocks) :
    isBlockMetadata value = true ∧ block.block_height = value.block_height.toInt64 := by
  obtain ⟨tx, htx, hmem⟩ := Outcome.mem_elems.1 h
  obtain ⟨built, hbuilt, hmem⟩ := Outcome.mem_elems.1 hmem
  obtain rfl := Option.mem_toList.1 hmem
  have hdata := (TransactionExtraction.tryFrom_spec htx).2.txn_data
  rw [← TransactionExtraction.blockheight_of_tryFrom htx]
  obtain ⟨-, hnone⟩ | ⟨bmd, timestamp, proposer, hbmd, -, -, hsome⟩ := getBlock_eq_ok hbuilt
  · exact nomatch hnone
  · obtain rfl := Option.some.inj hsome
    refine ⟨?_, rfl⟩
    rw [isBlockMetadata, hdata]
    unfold TxDataExtract.blockmetadata at hbmd
    split at hbmd
    case h_1 hcase => rw [hcase]
    case h_2 => exact nomatch hbmd

/-- The rows of a chain have different keys, in each table other than the signatures. -/
theorem Chain.nodup_mergeKey (h : Chain crates chain) (hne : table ≠ .Signatures) :
    ((chain.flatMap (rowsOf crates · table)).map (mergeKey table)).Nodup := by
  rw [List.map_flatMap, List.nodup_flatMap]
  constructor
  · intro value hvalue
    obtain ⟨records, hrecords⟩ := h.extracted value hvalue
    rw [← extractRecords_rows hrecords]
    exact nodup_mergeKey_of_extractRecords hrecords hne
  · by_cases hblocks : table = .Blocks
    · subst hblocks
      have hheights := List.pairwise_filter.1 (List.pairwise_map.1 h.heights)
      refine hheights.imp fun {value value'} hdiffer key hkey hkey' => ?_
      obtain ⟨block, hblock, rfl⟩ := List.mem_map.1 hkey
      obtain ⟨block', hblock', hsame⟩ := List.mem_map.1 hkey'
      obtain ⟨hmetadata, hheight⟩ := block_of_mem hblock
      obtain ⟨hmetadata', hheight'⟩ := block_of_mem hblock'
      -- the signed height determines the height
      refine hdiffer hmetadata hmetadata' ?_
      have hsigned : value.block_height.toInt64 = value'.block_height.toInt64 := by
        rw [← hheight, ← hheight']
        exact hsame.symm
      have hunsigned := congrArg Int64.toUInt64 hsigned
      simpa using hunsigned
    · refine (List.pairwise_map.1 h.versions).imp fun {value value'} hdiffer key hkey hkey' => ?_
      obtain ⟨row, hrow, rfl⟩ := List.mem_map.1 hkey
      obtain ⟨row', hrow', hsame⟩ := List.mem_map.1 hkey'
      refine hdiffer ?_
      rw [← rowsOf_version hrow, ← rowsOf_version hrow']
      exact (version_of_mergeKey hblocks hsame).symm

/-- The rows of a transaction fall into the day that its timestamp falls into. -/
theorem dayWindow_of_mem {readTimestamp : String → Option ℤ} {day : ℤ} (h : Chain crates chain)
    (hday : ∀ value ∈ chain, InDay crates readTimestamp day value) {row : table.Row}
    (hrow : row ∈ chain.flatMap (rowsOf crates · table)) :
    (dayWindow readTimestamp day table row).Holds := by
  obtain ⟨value, hvalue, hrow⟩ := List.mem_flatMap.1 hrow
  obtain ⟨records, hrecords⟩ := h.extracted value hvalue
  obtain ⟨tx, block, changes, events, sigs, txRow, hstages, -⟩ := extractRecords_eq_ok.1 hrecords
  obtain ⟨⟨timestamp, htimestamp⟩, number, hnumber⟩ := exists_columns_of_getChanges hstages.changes
  rw [← extractRecords_rows hrecords] at hrow
  have hcarries :=
    carries_of_extractRecords hrecords hstages.extraction htimestamp hnumber table row hrow
  have hcolumn : table.blockTimestamp row = timestamp :=
    congrArg SharedColumns.block_timestamp hcarries.shared
  rw [dayWindow, hcolumn]
  exact hday value hvalue tx timestamp hstages.extraction htimestamp

/-- The dedupe job repairs duplicate delivery: whatever transactions of a chain were processed more
than once, the day has the rows of each transaction once afterwards, the other rows are left as they
are, and the job changes nothing when it runs again. -/
theorem dedupe_repairs {readTimestamp : String → Option ℤ} {day : ℤ}
    {pick : List table.Row → Option table.Row} {processed : List Input.Transaction}
    {rows outside : List table.Row} (hne : table ≠ .Signatures) (hchain : Chain crates chain)
    (hday : ∀ value ∈ chain, InDay crates readTimestamp day value)
    (hprocessed : ∀ value, value ∈ processed ↔ value ∈ chain)
    (houtside : ∀ row ∈ outside, ¬ (dayWindow readTimestamp day table row).Holds)
    (hrows : rows.Perm (processed.flatMap (rowsOf crates · table) ++ outside))
    (hpick : Sql.Picks pick) :
    let deduped := dedupeSql readTimestamp day table pick rows
    (Sql.filter (dayWindow readTimestamp day table) deduped).Perm
        (chain.flatMap (rowsOf crates · table)) ∧
      (Sql.delete (dayWindow readTimestamp day table) deduped).Perm outside ∧
        ∀ pick' again, Sql.Picks pick' → again.Perm deduped →
          (dedupeSql readTimestamp day table pick' again).Perm again := by
  intro deduped
  have hkeys := hchain.nodup_mergeKey hne
  have hin : ∀ row ∈ chain.flatMap (rowsOf crates · table),
      (dayWindow readTimestamp day table row).Holds :=
    fun row hrow => dayWindow_of_mem hchain hday hrow
  have hmem : ∀ row, row ∈ processed.flatMap (rowsOf crates · table) ↔
      row ∈ chain.flatMap (rowsOf crates · table) := by
    intro row
    simp only [List.mem_flatMap, hprocessed]
  have hdeduped : deduped.Perm (chain.flatMap (rowsOf crates · table) ++ outside) :=
    Sql.mergeOnFalse_perm hpick hrows hkeys hmem hin houtside
  refine ⟨?_, ?_, fun pick' again hpick' hagain => ?_⟩
  · have hfilter := Sql.filter_append_eq_left hin houtside
    rw [← hfilter]
    exact hdeduped.filter _
  · have hdelete := Sql.delete_append_eq_right hin houtside
    rw [← hdelete]
    exact hdeduped.filter _
  · have hrows' := hagain.trans hdeduped
    have hagain' := Sql.mergeOnFalse_perm hpick' hrows' hkeys (fun _ => Iff.rfl) hin houtside
    exact hagain'.trans hrows'.symm

end Chains

/-- The epoch is read as a timestamp, and no other text. -/
def sampleReadTimestamp (text : String) : Option ℤ :=
  if text = "1970-01-01 00:00:00" then some 0 else none

/-- A transaction that was processed twice, with one change. -/
theorem dedupe_repairs_sampleUser :
    let rows := [sampleUser, sampleUser].flatMap (rowsOf sampleCrates · .Changes)
    let deduped := dedupeSql sampleReadTimestamp 0 .Changes List.head? rows
    rows.length = 2 ∧ (Sql.filter (dayWindow sampleReadTimestamp 0 .Changes) deduped).Perm
      (rowsOf sampleCrates sampleUser .Changes) := by
  have hpick : Sql.Picks (List.head? : List Rows.Change → Option Rows.Change) := by
    intro group hgroup
    obtain ⟨row, rest, rfl⟩ := List.exists_cons_of_ne_nil hgroup
    exact ⟨row, List.mem_cons_self, rfl⟩
  have hchain : Chain sampleCrates [sampleUser] := by
    constructor
    case extracted =>
      intro value hvalue
      obtain rfl := List.mem_singleton.1 hvalue
      exact exists_records_sampleUser
    case versions => exact List.nodup_singleton _
    case heights => exact List.nodup_nil
  have hday : ∀ value ∈ [sampleUser], InDay sampleCrates sampleReadTimestamp 0 value := by
    intro value hvalue tx timestamp htx htimestamp
    obtain rfl := List.mem_singleton.1 hvalue
    obtain rfl := Outcome.ok.inj htx
    obtain rfl := Outcome.ok.inj htimestamp
    decide
  have hprocessed : ∀ value, value ∈ [sampleUser, sampleUser] ↔ value ∈ [sampleUser] := by simp
  have hrows : ([sampleUser, sampleUser].flatMap (rowsOf sampleCrates · .Changes)).Perm
      ([sampleUser, sampleUser].flatMap (rowsOf sampleCrates · .Changes) ++ []) := by
    rw [List.append_nil]
  have hne : Table.Changes ≠ .Signatures := by decide
  have houtside : ∀ row ∈ ([] : List Rows.Change),
      ¬ (dayWindow sampleReadTimestamp 0 .Changes row).Holds := by simp
  obtain ⟨hrepaired, -⟩ := dedupe_repairs hne hchain hday hprocessed houtside hrows hpick
  exact ⟨by decide, by simpa using hrepaired⟩

end AptosEtl.Airflow
