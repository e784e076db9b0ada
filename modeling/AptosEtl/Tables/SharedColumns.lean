import AptosEtl.Lib.Decimal
import AptosEtl.Tables.ChangeRows
import AptosEtl.Tables.SignatureRows

/-!
# The shared columns

The columns that the rows of a transaction have in common, by which its tables are joined: the
block height, the two block timestamps, the version, the hash and the sequence number. Six builders
fill them in, each from the transaction on its own, and the sequence number is split between a
numeric column and a text in four of them. `extractRecords_shared` says that all rows of a
transaction agree.
-/

namespace AptosEtl.Tables

open Rust Input Reps

/-! ## The columns -/

/-- The columns that every row has. -/
structure SharedColumns where
  block_height : Int64
  block_timestamp : String
  block_unixtimestamp : Rows.UnixTimestamp
  version : UInt64
  deriving DecidableEq, Repr

/-- The `block_height` column of a row. -/
def Table.blockHeight : (table : Table) → table.Row → Int64
  | Transactions, row => Rows.Transaction.block_height row
  | Changes, row => Rows.Change.block_height row
  | Modules, row => Rows.Module.block_height row
  | TableItems, row => Rows.TableItem.block_height row
  | Resources, row => Rows.Resource.block_height row
  | Blocks, row => Rows.Block.block_height row
  | Events, row => Rows.Event.block_height row
  | Signatures, row => Rows.Signature.block_height row

/-- The `block_timestamp` column of a row. -/
def Table.blockTimestamp : (table : Table) → table.Row → String
  | Transactions, row => Rows.Transaction.block_timestamp row
  | Changes, row => Rows.Change.block_timestamp row
  | Modules, row => Rows.Module.block_timestamp row
  | TableItems, row => Rows.TableItem.block_timestamp row
  | Resources, row => Rows.Resource.block_timestamp row
  | Blocks, row => Rows.Block.block_timestamp row
  | Events, row => Rows.Event.block_timestamp row
  | Signatures, row => Rows.Signature.block_timestamp row

/-- The columns of a row that every row has. -/
def Table.shared (table : Table) (row : table.Row) : SharedColumns where
  block_height := table.blockHeight row
  block_timestamp := table.blockTimestamp row
  block_unixtimestamp := table.unixTimestamp row
  version := table.version row

/-- The `tx_hash` column of a row, which the blocks do not have. -/
def Table.txHash : (table : Table) → table.Row → Option String
  | Transactions, row => some (Rows.Transaction.tx_hash row)
  | Changes, row => some (Rows.Change.tx_hash row)
  | Modules, row => some (Rows.Module.tx_hash row)
  | TableItems, row => some (Rows.TableItem.tx_hash row)
  | Resources, row => some (Rows.Resource.tx_hash row)
  | Blocks, _ => none
  | Events, row => some (Rows.Event.tx_hash row)
  | Signatures, row => some (Rows.Signature.tx_hash row)

/-- The pair of sequence number columns of a row, in the tables that have them. -/
def Table.sequenceNumbers : (table : Table) → table.Row → Option (Option UInt64 × Option String)
  | Transactions, row => some
    (Rows.Transaction.sequence_number row, Rows.Transaction.sequence_number_big row)
  | Changes, row => some
    (Rows.Change.tx_sequence_number row, Rows.Change.tx_sequence_number_big row)
  | TableItems, row => some
    (Rows.TableItem.tx_sequence_number row, Rows.TableItem.tx_sequence_number_big row)
  | Resources, row => some
    (Rows.Resource.tx_sequence_number row, Rows.Resource.tx_sequence_number_big row)
  | Events, row => some (Rows.Event.tx_sequence_number row, Rows.Event.tx_sequence_number_big row)
  | Modules, _ => none
  | Blocks, _ => none
  | Signatures, _ => none

/-- A row carries the shared columns, a hash if it has one, and sequence numbers if it has them. -/
structure Carries (shared : SharedColumns) (hash : String)
    (numbers : Option UInt64 × Option String) (table : Table) (row : table.Row) : Prop where
  shared : table.shared row = shared
  hash : ∀ h ∈ table.txHash row, h = hash
  numbers : ∀ pair ∈ table.sequenceNumbers row, pair = numbers

/-! ## Each builder fills them in -/

/-- The shared columns of a transaction. -/
def sharedOf (tx : TransactionExtraction) (timestamp : String) : SharedColumns :=
  ⟨tx.blockheight, timestamp, tx.getUnixTimestamp, tx.version⟩

section Builders

variable {crates : Crates} {tx : TransactionExtraction} {timestamp : String}
  {number : Option UInt64}

/-- The row of a transaction carries its columns, whichever builder builds it. -/
theorem carries_transaction (htimestamp : tx.getEncodedTimestamp crates = .ok timestamp)
    (hnumber : tx.tx_data.sequenceNumber = .ok number) {sigCnt : Option ℕ} {row : Rows.Transaction}
    (h : getTransactions crates tx sigCnt = .ok row) :
    Carries (sharedOf tx timestamp) (tx.getEncodedHash crates) (sequenceNumberColumns number)
      .Transactions row := by
  obtain ⟨timestamp', txType, number', changes, columns, hshared, -, rfl⟩ :=
    getTransactions_eq_ok h
  obtain rfl := Outcome.ok.inj (htimestamp.symm.trans hshared.timestamp)
  obtain rfl := Outcome.ok.inj (hnumber.symm.trans hshared.number)
  exact ⟨rfl, by rintro _ ⟨⟩; rfl, by rintro _ ⟨⟩; rfl⟩

/-- The block carries the columns of its transaction. -/
theorem carries_block (htimestamp : tx.getEncodedTimestamp crates = .ok timestamp)
    {block : Rows.Block} (h : getBlock crates tx = .ok (some block)) :
    Carries (sharedOf tx timestamp) (tx.getEncodedHash crates) (sequenceNumberColumns number)
      .Blocks block := by
  obtain ⟨-, hnone⟩ | ⟨bmd, timestamp', proposer, -, htimestamp', -, hsome⟩ := getBlock_eq_ok h
  · exact nomatch hnone
  · obtain rfl := Outcome.ok.inj (htimestamp.symm.trans htimestamp')
    obtain rfl := Option.some.inj hsome
    exact ⟨rfl, nofun, nofun⟩

/-- An event carries the columns of its transaction. -/
theorem carries_event (hnumber : tx.tx_data.sequenceNumber = .ok number)
    {item : Input.Event × ℕ} {row : Rows.Event}
    (h : eventRow crates tx timestamp (tx.getEncodedHash crates) item = .ok row) :
    Carries (sharedOf tx timestamp) (tx.getEncodedHash crates) (sequenceNumberColumns number)
      .Events row := by
  obtain ⟨extraction, number', address, -, hnumber', -, rfl⟩ := eventRow_eq_ok h
  obtain rfl := Outcome.ok.inj (hnumber.symm.trans hnumber')
  exact ⟨rfl, by rintro _ ⟨⟩; rfl, by rintro _ ⟨⟩; rfl⟩

/-- A signature carries the columns of its transaction. -/
theorem carries_signature (htimestamp : tx.getEncodedTimestamp crates = .ok timestamp)
    {rows : List Rows.Signature} (h : getSignatures crates tx = .ok (some rows))
    {row : Rows.Signature} (hrow : row ∈ rows) :
    Carries (sharedOf tx timestamp) (tx.getEncodedHash crates) (sequenceNumberColumns number)
      .Signatures row := by
  obtain ⟨request, signature, data, timestamp', groups, hsigned⟩ := getSignatures_groups h
  obtain rfl := Outcome.ok.inj (htimestamp.symm.trans hsigned.encoded)
  rw [hsigned.ofGroups] at hrow
  obtain ⟨part, -, subrecord, signer, rfl, -⟩ := exists_part_of_mem hsigned.ofParts hrow
  exact ⟨rfl, by rintro _ ⟨⟩; rfl, nofun⟩

/-- An event row is the row of an event, at its index. -/
theorem exists_eventRow_of_mem (htimestamp : tx.getEncodedTimestamp crates = .ok timestamp)
    {rows : List Rows.Event} (h : getEvents crates tx = .ok (some rows)) {row : Rows.Event}
    (hrow : row ∈ rows) :
    ∃ item, eventRow crates tx timestamp (tx.getEncodedHash crates) item = .ok row := by
  obtain ⟨-, hnone⟩ | ⟨events, timestamp', rows', -, htimestamp', hrows, hsome⟩ :=
    getEvents_eq_ok h
  · exact nomatch hnone
  · obtain rfl := Outcome.ok.inj (htimestamp.symm.trans htimestamp')
    obtain rfl := Option.some.inj hsome
    obtain ⟨item, -, hitem⟩ := Aligned.exists_of_mem_right hrows hrow
    exact ⟨item, hitem⟩

/-- The columns of the changes are those of the transaction. -/
theorem txColumns_eq_ok (htimestamp : tx.getEncodedTimestamp crates = .ok timestamp)
    (hnumber : tx.tx_data.sequenceNumber = .ok number) {columns : TxColumns}
    (h : txColumns crates tx = .ok columns) :
    columns = ⟨timestamp, tx.getEncodedHash crates, (sequenceNumberColumns number).1,
      (sequenceNumberColumns number).2⟩ := by
  simp only [txColumns, htimestamp, hnumber, Outcome.mapErr_ok, Outcome.ok_bind] at h
  exact (Outcome.ok.inj h).symm

/-- Both rows of a change carry the columns of the transaction. -/
theorem carries_change (htimestamp : tx.getEncodedTimestamp crates = .ok timestamp)
    (hnumber : tx.tx_data.sequenceNumber = .ok number) {columns : TxColumns}
    (hcolumns : txColumns crates tx = .ok columns) {item : IncompleteChangeRecord × ℕ}
    {built : BuiltChange} (h : buildChange crates tx columns item = .ok built) (table : Table)
    {row : table.Row} (hrow : row ∈ built.rows table) :
    Carries (sharedOf tx timestamp) (tx.getEncodedHash crates) (sequenceNumberColumns number) table
      row := by
  obtain rfl := txColumns_eq_ok htimestamp hnumber hcolumns
  obtain ⟨change, family, -, hfamily, rfl⟩ := buildChange_eq_ok h
  cases table with
  | Changes =>
    obtain rfl := List.mem_singleton.1 hrow
    exact ⟨rfl, by rintro _ ⟨⟩; rfl, by rintro _ ⟨⟩; rfl⟩
  | Modules =>
    obtain ⟨module, hmodule, hok⟩ := moduleRow_of_buildFamily hfamily (Option.mem_toList.1 hrow)
    obtain ⟨data, address, -, -, rfl⟩ := moduleRow_eq_ok hok
    exact ⟨rfl, by rintro _ ⟨⟩; rfl, nofun⟩
  | Resources =>
    obtain ⟨resource, hresource, hok⟩ :=
      resourceRow_of_buildFamily hfamily (Option.mem_toList.1 hrow)
    obtain ⟨address, changeType, structTag, -, -, -, rfl⟩ := resourceRow_eq_ok hok
    exact ⟨rfl, by rintro _ ⟨⟩; rfl, by rintro _ ⟨⟩; rfl⟩
  | TableItems =>
    obtain ⟨tableitem, htableitem, hok⟩ :=
      tableItemRow_of_buildFamily hfamily (Option.mem_toList.1 hrow)
    obtain ⟨address, changeType, -, -, rfl⟩ := tableItemRow_eq_ok hok
    exact ⟨rfl, by rintro _ ⟨⟩; rfl, by rintro _ ⟨⟩; rfl⟩
  | Transactions => exact absurd hrow List.not_mem_nil
  | Blocks => exact absurd hrow List.not_mem_nil
  | Events => exact absurd hrow List.not_mem_nil
  | Signatures => exact absurd hrow List.not_mem_nil

end Builders

/-! ## The sequence number -/

/-- The pair of columns that stands for a sequence number: the text is its decimal notation, by
which it is determined, and the number is there exactly when an `i64` holds it. -/
structure Denotes (number : UInt64) (pair : Option UInt64 × Option String) : Prop where
  big : pair.2 = some (Nat.repr number.toNat)
  determined : ∀ other : UInt64, pair.2 = some (Nat.repr other.toNat) → other = number
  numeric : pair.1 = some number ↔ number.toNat ≤ 2 ^ 63 - 1
  overflow : pair.1 = none ↔ 2 ^ 63 - 1 < number.toNat

/-- The columns of a sequence number denote it. -/
theorem denotes_sequenceNumberColumns (number : UInt64) :
    Denotes number (sequenceNumberColumns (some number)) := by
  have hbig : (sequenceNumberColumns (some number)).2 = some (Nat.repr number.toNat) := by
    rw [sequenceNumberColumns]
    split_ifs <;> rfl
  refine ⟨hbig, fun other hother => ?_, ?_, ?_⟩
  · rw [hbig] at hother
    have hsame := Decimal.toString_nat_injective (Option.some.inj hother)
    exact UInt64.toNat_inj.1 hsame.symm
  · rw [sequenceNumberColumns]
    split_ifs with hlt
    · simp only [true_iff]; omega
    · simp only [false_iff]; omega
  · rw [sequenceNumberColumns]
    split_ifs with hlt
    · simp only [false_iff]; omega
    · simp only [true_iff]; omega

/-- The pair of a message: that of the sequence number of a user transaction, and no values for the
other types. -/
def NumbersOf (value : Input.Transaction) (pair : Option UInt64 × Option String) : Prop :=
  (∃ userdata request, value.txn_data = some (.User userdata) ∧
    userdata.request = some request ∧ Denotes request.sequence_number pair) ∨
  ((∀ userdata, value.txn_data ≠ some (.User userdata)) ∧ pair = (none, none))

/-- The columns of the sequence number of a transaction are those of its message. -/
theorem numbersOf_sequenceNumberColumns {value : Input.Transaction} {tx : TransactionExtraction}
    {number : Option UInt64} (hdata : value.txn_data = some tx.tx_data.txndata)
    (hnumber : tx.tx_data.sequenceNumber = .ok number) :
    NumbersOf value (sequenceNumberColumns number) := by
  obtain ⟨request, hrequest, hnumber⟩ := Outcome.bind_eq_ok.1 hnumber
  obtain rfl := Outcome.ok.inj hnumber
  obtain ⟨userdata, huser, hrequest, hsome⟩ | ⟨hother, rfl⟩ :=
    TxDataExtract.userRequest_cases hrequest
  · obtain ⟨request, rfl⟩ := Option.isSome_iff_exists.1 hsome
    exact .inl ⟨userdata, request, huser ▸ hdata, hrequest, denotes_sequenceNumberColumns _⟩
  · refine .inr ⟨fun userdata hsome => ?_, rfl⟩
    exact hother userdata (Option.some.inj (hdata.symm.trans hsome))

/-- A property of rows holds of every row that a builder makes of a transaction. -/
structure OfBuilders (crates : Crates) (tx : TransactionExtraction) (timestamp : String)
    (P : (table : Table) → table.Row → Prop) : Prop where
  transaction : ∀ sigCnt row, getTransactions crates tx sigCnt = .ok row → P .Transactions row
  block : ∀ row, getBlock crates tx = .ok (some row) → P .Blocks row
  change : ∀ columns, txColumns crates tx = .ok columns → ∀ item built,
    buildChange crates tx columns item = .ok built → ∀ table, ∀ row ∈ built.rows table, P table row
  event : ∀ item row, eventRow crates tx timestamp (tx.getEncodedHash crates) item = .ok row →
    P .Events row
  signature : ∀ rows, getSignatures crates tx = .ok (some rows) → ∀ row ∈ rows, P .Signatures row

/-- What holds of every row that a builder makes holds of every row of the records. -/
theorem OfBuilders.forall_rows {crates : Crates} {value : Input.Transaction}
    {records : Rows.Records} {tx : TransactionExtraction} {timestamp : String}
    {P : (table : Table) → table.Row → Prop} (hbuilders : OfBuilders crates tx timestamp P)
    (h : extractRecords crates value = .ok records)
    (htx : TransactionExtraction.tryFrom value = .ok tx)
    (htimestamp : tx.getEncodedTimestamp crates = .ok timestamp) (table : Table) :
    ∀ row ∈ tableRows records table, P table row := by
  obtain ⟨tx', block, changes, events, sigs, txRow, hstages, rfl⟩ := extractRecords_eq_ok.1 h
  obtain rfl := Outcome.ok.inj (htx.symm.trans hstages.extraction)
  obtain ⟨columns, built, hcolumns, hbuilt, rfl⟩ := getChanges_eq_ok.1 hstages.changes
  -- a row of one of the change tables is a row of one of the changes
  have hchange : ∀ table, ∀ row ∈ built.flatMap (BuiltChange.rows · table), P table row := by
    intro table row hrow
    obtain ⟨b, hb, hrow⟩ := List.mem_flatMap.1 hrow
    obtain ⟨item, -, hitem⟩ := Aligned.exists_of_mem_right hbuilt hb
    exact hbuilders.change columns hcolumns item b hitem table row hrow
  intro row hrow
  cases table with
  | Transactions =>
    obtain rfl := List.mem_singleton.1 hrow
    exact hbuilders.transaction _ row hstages.row
  | Changes => exact hchange .Changes row (ofBuilt_changes built ▸ hrow)
  | Modules => exact hchange .Modules row (ofBuilt_modules built ▸ hrow)
  | TableItems => exact hchange .TableItems row (ofBuilt_tableitems built ▸ hrow)
  | Resources => exact hchange .Resources row (ofBuilt_resources built ▸ hrow)
  | Blocks =>
    obtain rfl := Option.mem_toList.1 hrow
    exact hbuilders.block row hstages.block
  | Events =>
    cases events with
    | none => exact absurd hrow List.not_mem_nil
    | some rows =>
      obtain ⟨item, hitem⟩ := exists_eventRow_of_mem htimestamp hstages.events hrow
      exact hbuilders.event item row hitem
  | Signatures =>
    cases sigs with
    | none => exact absurd hrow List.not_mem_nil
    | some rows => exact hbuilders.signature rows hstages.signatures row hrow

/-- The rows of a transaction carry its columns, in all tables. -/
theorem carries_of_extractRecords {crates : Crates} {value : Input.Transaction}
    {records : Rows.Records} {tx : TransactionExtraction} {timestamp : String}
    {number : Option UInt64} (h : extractRecords crates value = .ok records)
    (htx : TransactionExtraction.tryFrom value = .ok tx)
    (htimestamp : tx.getEncodedTimestamp crates = .ok timestamp)
    (hnumber : tx.tx_data.sequenceNumber = .ok number) (table : Table) :
    ∀ row ∈ tableRows records table,
      Carries (sharedOf tx timestamp) (tx.getEncodedHash crates) (sequenceNumberColumns number)
        table row := by
  have hbuilders : OfBuilders crates tx timestamp (Carries (sharedOf tx timestamp)
      (tx.getEncodedHash crates) (sequenceNumberColumns number)) := by
    constructor
    case transaction => exact fun _ _ hrow => carries_transaction htimestamp hnumber hrow
    case block => exact fun _ hrow => carries_block htimestamp hrow
    case change =>
      intro columns hcolumns item built hbuilt table row hrow
      exact carries_change htimestamp hnumber hcolumns hbuilt table hrow
    case event => exact fun _ _ hrow => carries_event hnumber hrow
    case signature => exact fun _ hrows _ hrow => carries_signature htimestamp hrows hrow
  exact hbuilders.forall_rows h htx htimestamp table

/-- All rows of a transaction carry the same columns, in all tables, and the pair of its sequence
number is that of the message. -/
theorem extractRecords_shared {crates : Crates} {value : Input.Transaction}
    {records : Rows.Records} (h : extractRecords crates value = .ok records) :
    ∃ shared hash numbers, (∀ table, ∀ row ∈ tableRows records table,
      Carries shared hash numbers table row) ∧ NumbersOf value numbers := by
  obtain ⟨tx, block, changes, events, sigs, row, hstages, -⟩ := extractRecords_eq_ok.1 h
  obtain ⟨⟨timestamp, htimestamp⟩, number, hnumber⟩ := exists_columns_of_getChanges hstages.changes
  have hdata := (TransactionExtraction.tryFrom_spec hstages.extraction).2.txn_data
  exact ⟨sharedOf tx timestamp, tx.getEncodedHash crates, sequenceNumberColumns number,
    carries_of_extractRecords h hstages.extraction htimestamp hnumber,
    numbersOf_sequenceNumberColumns hdata hnumber⟩

/-- The rows of a user transaction with one event, one change and one signature. -/
theorem extractRecords_shared_sampleUser :
    ∃ records, extractRecords sampleCrates sampleUser = .ok records ∧
      ∃ shared hash numbers, (∀ table, ∀ row ∈ tableRows records table,
        Carries shared hash numbers table row) ∧ NumbersOf sampleUser numbers := by
  obtain ⟨records, h⟩ := exists_records_sampleUser
  exact ⟨records, h, extractRecords_shared h⟩

end AptosEtl.Tables
