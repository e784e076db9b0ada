import AptosEtl.Airflow.SignatureKey
import AptosEtl.Lib.Signed
import AptosEtl.Tables.DetailRows
import AptosEtl.Tables.SharedColumns

/-!
# The integer columns of the schemas

The files of the `schemas` directory declare the integer columns as `INT64`, which is signed, and
the messages of the node have unsigned numbers. `Table.int64Columns` lists these columns for each
table, with the number of the message that a column stands for and with how the code puts it there:
the block height is cast to an `i64`, the sequence number of a transaction is checked by
`i64::try_from`, and the other numbers are copied. `fits_iff_inInt64` says for which messages all
columns fit.

The columns that hold a `u32` (a threshold, the index of a key) and those of the timestamps, whose
seconds are signed in the message too, are not listed: no value of theirs is out of range.
-/

namespace AptosEtl.Airflow

open Rust Input Reps Tables Signed

/-! ## The numbers of a message -/

section Message

variable (value : Input.Transaction)

/-- The events of a message, if it is of a type that has events. -/
def eventsOf : Option (List Input.Event) :=
  value.txn_data.bind fun data => (TxDataExtract.mk data).events

/-- The request of a user transaction. -/
def requestOf : Option UserTransactionRequest :=
  match value.txn_data with
  | some (.User userdata) => userdata.request
  | _ => none

/-- The round of a block-metadata transaction. -/
def roundOf : Option UInt64 :=
  (value.txn_data.bind fun data => (TxDataExtract.mk data).blockmetadata).map
    BlockMetadataTransaction.round

/-- The declared types of the changes of a message. -/
def kindsOf : List Input.ChangeType :=
  ((value.info.map TransactionInfo.changes).getD []).map fun change =>
    change.type.getD .Unspecified

/-- The places of the changes that are of certain types. -/
def placesOf (kinds : List Input.ChangeType) : List ℕ :=
  ((kindsOf value).zipIdx.filter fun item => item.1 ∈ kinds).map Prod.snd

/-- How many keys the signature of a user transaction has. -/
def signatureCountOf : Option ℕ :=
  (((requestOf value).bind UserTransactionRequest.signature).bind Input.Signature.signature).map
    fun data => ((slotted data).flatMap Prod.snd).length

end Message

/-! ## The columns -/

/-- A column of type `INT64`. -/
structure Int64Column (Row : Type) where
  name : String
  /-- How the number gets from the message into the column. -/
  conversion : Conversion
  /-- The number of the message, for the row at a place of the table. -/
  source : Input.Transaction → ℕ → Option ℕ
  /-- The value of the column. -/
  published : Row → Option ℤ

namespace Int64Column

variable {Row : Type}

/-- The column has no value in a row, or the one of the message, and an `i64` holds it. -/
def FitsAt (column : Int64Column Row) (value : Input.Transaction) (i : ℕ) (row : Row) : Prop :=
  Fits 63 (column.published row) (column.source value i)

/-- The column has in a row what its conversion makes of the number of the message. -/
def SourcedAt (column : Int64Column Row) (value : Input.Transaction) (i : ℕ) (row : Row) : Prop :=
  column.published row = (column.source value i).bind (column.conversion.convert 63)

/-- A column whose number is copied. -/
def copied (name : String) (source : Input.Transaction → ℕ → Option ℕ)
    (published : Row → Option ℕ) : Int64Column Row where
  name := name
  conversion := .Copy
  source := source
  published row := (published row).map fun n : ℕ => (n : ℤ)

/-- The `block_height` column. -/
def blockHeight (table : Table) : Int64Column table.Row where
  name := "block_height"
  conversion := .Cast
  source value _ := some value.block_height.toNat
  published row := some (table.blockHeight row).toInt

/-- The column of the version of the transaction. -/
def version (name : String) (table : Table) : Int64Column table.Row :=
  copied name (fun value _ => some value.version.toNat) fun row => some (table.version row).toNat

/-- The column of the sequence number of the transaction. -/
def sequenceNumber (name : String) (table : Table) : Int64Column table.Row where
  name := name
  conversion := .Check
  source value _ := (requestOf value).map fun request => request.sequence_number.toNat
  published row :=
    ((table.sequenceNumbers row).bind Prod.fst).map fun number => (number.toNat : ℤ)

/-- The `change_index` column of the table of a family of changes. -/
def changeIndex (kinds : List Input.ChangeType) (published : Row → ℕ) : Int64Column Row :=
  copied "change_index" (fun value i => (placesOf value kinds)[i]?) fun row => some (published row)

/-- A column that counts the changes of a type. -/
def numChanges (name : String) (kind : Input.ChangeType)
    (published : Rows.ChangesAggregate → ℕ) : Int64Column Rows.Transaction :=
  copied name (fun value _ => some ((kindsOf value).count kind)) fun row =>
    some (published row.num_changes)

/-- A column of an event. -/
def ofEvent (name : String) (source : Input.Event → Option UInt64)
    (published : Rows.Event → UInt64) : Int64Column Rows.Event :=
  copied name (fun value i => (((eventsOf value).getD [])[i]?.bind source).map UInt64.toNat)
    fun row => some (published row).toNat

/-- A column of the request of a user transaction. -/
def ofRequest (name : String) (source : UserTransactionRequest → UInt64)
    (published : Rows.Transaction → Option UInt64) : Int64Column Rows.Transaction :=
  copied name (fun value _ => ((requestOf value).map source).map UInt64.toNat) fun row =>
    (published row).map UInt64.toNat

end Int64Column

/-- The types of the changes that have a row in the table of a family. -/
def kindsOfTable : Table → List Input.ChangeType
  | .Modules => [.WriteModule, .DeleteModule]
  | .Resources => [.WriteResource, .DeleteResource]
  | .TableItems => [.WriteTableItem, .DeleteTableItem]
  | _ => []

open Int64Column in
/-- The `INT64` columns of the schema of a table. -/
def int64Columns : (table : Table) → List (Int64Column table.Row)
  | .Blocks => [
    blockHeight .Blocks, version "blockmetadata_tx_version" .Blocks,
    copied "round" (fun value _ => (roundOf value).map UInt64.toNat) fun row =>
      some row.round.toNat]
  | .Transactions => [
    blockHeight .Transactions, version "tx_version" .Transactions,
    copied "gas_used" (fun value _ => value.info.map fun info => info.gas_used.toNat) fun row =>
      some row.gas_used.toNat,
    sequenceNumber "sequence_number" .Transactions,
    ofRequest "max_gas_amount" UserTransactionRequest.max_gas_amount
      Rows.Transaction.max_gas_amount,
    ofRequest "gas_unit_price" UserTransactionRequest.gas_unit_price
      Rows.Transaction.gas_unit_price,
    copied "num_events" (fun value _ => (eventsOf value).map List.length)
      Rows.Transaction.num_events,
    copied "num_changes.total" (fun value _ => some (kindsOf value).length) fun row =>
      some row.num_changes.total,
    numChanges "num_changes.delete_module" .DeleteModule Rows.ChangesAggregate.delete_module,
    numChanges "num_changes.delete_resource" .DeleteResource
      Rows.ChangesAggregate.delete_resource,
    numChanges "num_changes.delete_table_item" .DeleteTableItem
      Rows.ChangesAggregate.delete_table_item,
    numChanges "num_changes.write_module" .WriteModule Rows.ChangesAggregate.write_module,
    numChanges "num_changes.write_resource" .WriteResource Rows.ChangesAggregate.write_resource,
    numChanges "num_changes.write_table_item" .WriteTableItem
      Rows.ChangesAggregate.write_table_item,
    copied "num_signatures" (fun value _ => signatureCountOf value)
      Rows.Transaction.num_signatures]
  | .Changes => [
    blockHeight .Changes, version "tx_version" .Changes,
    sequenceNumber "tx_sequence_number" .Changes,
    copied "change_index" (fun _ i => some i) fun row => some row.change_index]
  | .Modules => [
    blockHeight .Modules, version "tx_version" .Modules,
    changeIndex (kindsOfTable .Modules) Rows.Module.change_index]
  | .Resources => [
    blockHeight .Resources, version "tx_version" .Resources,
    sequenceNumber "tx_sequence_number" .Resources,
    changeIndex (kindsOfTable .Resources) Rows.Resource.change_index]
  | .TableItems => [
    blockHeight .TableItems, version "tx_version" .TableItems,
    sequenceNumber "tx_sequence_number" .TableItems,
    changeIndex (kindsOfTable .TableItems) Rows.TableItem.change_index]
  | .Events => [
    blockHeight .Events, version "tx_version" .Events,
    sequenceNumber "tx_sequence_number" .Events,
    copied "event_index" (fun _ i => some i) fun row => some row.event_index,
    ofEvent "creation_num" (fun event => event.key.map EventKey.creation_number)
      Rows.Event.creation_num,
    ofEvent "sequence_number" (fun event => some event.sequence_number)
      Rows.Event.sequence_number]
  | .Signatures => [
    blockHeight .Signatures, version "tx_version" .Signatures]

/-! ## Reading the numbers off an extraction -/

section Extraction

variable {crates : Crates} {value : Input.Transaction} {tx : TransactionExtraction}

/-- The events of a message are those of its extraction. -/
theorem eventsOf_eq (hdata : value.txn_data = some tx.tx_data.txndata) :
    eventsOf value = tx.tx_data.events := by
  rw [eventsOf, hdata]
  rfl

/-- The request of a message is that of its extraction. -/
theorem requestOf_eq {request : Option UserTransactionRequest}
    (hdata : value.txn_data = some tx.tx_data.txndata)
    (hrequest : tx.tx_data.userRequest = .ok request) : requestOf value = request := by
  rw [requestOf, hdata]
  obtain ⟨userdata, huser, hrequest, -⟩ | ⟨hother, rfl⟩ := TxDataExtract.userRequest_cases hrequest
  · rw [huser]
    exact hrequest
  · split
    case h_1 userdata huser => exact absurd (Option.some.inj huser) (hother userdata)
    case h_2 => rfl

/-- The declared types of a message are those of the changes of its extraction. -/
theorem kindsOf_eq (htx : TransactionExtraction.tryFrom value = .ok tx) :
    kindsOf value = tx.tx_info.changes.map IncompleteChangeRecord.getType := by
  obtain ⟨info, hinfo, htxInfo⟩ := TransactionExtraction.exists_info_of_tryFrom htx
  obtain ⟨changes, hchanges, htxInfo⟩ := Outcome.bind_eq_ok.1 htxInfo
  have hall := Outcome.tryMap_eq_ok.1 (Outcome.mapErr_eq_ok.1 hchanges)
  rw [kindsOf, hinfo, ← Outcome.ok.inj htxInfo]
  refine Aligned.map_eq_map (hall.imp fun change record hrecord => ?_)
  exact (IncompleteChangeRecord.getType_of_tryFrom hrecord).symm

/-- The round of a block is that of its extraction, and there is a block if that has a round. -/
theorem round_of_getBlock {block : Option Rows.Block} (h : getBlock crates tx = .ok block) :
    tx.tx_data.blockmetadata.map BlockMetadataTransaction.round =
      block.map Rows.Block.round := by
  obtain ⟨hnone, rfl⟩ | ⟨bmd, timestamp, proposer, hbmd, -, -, rfl⟩ := getBlock_eq_ok h
  · rw [hnone, Option.map_none, Option.map_none]
  · rw [hbmd, Option.map_some, Option.map_some]

/-- The numbers of an event are those of its message. -/
theorem eventRow_numbers {timestamp hash : String} {item : Input.Event × ℕ} {row : Rows.Event}
    (h : eventRow crates tx timestamp hash item = .ok row) :
    row.event_index = item.2 ∧ row.sequence_number = item.1.sequence_number ∧
      item.1.key.map EventKey.creation_number = some row.creation_num := by
  obtain ⟨extraction, number, address, hextraction, -, -, rfl⟩ := eventRow_eq_ok h
  obtain ⟨eventkey, type, hkey, -, rfl⟩ := EventExtraction.tryFrom_eq_ok hextraction
  refine ⟨rfl, rfl, ?_⟩
  rw [hkey, Option.map_some]

/-- The gas columns of a transaction are those of its extraction, whichever builder builds it. -/
theorem gas_of_getTransactions {request : Option UserTransactionRequest} {sigCnt : Option ℕ}
    {row : Rows.Transaction} (h : getTransactions crates tx sigCnt = .ok row)
    (hrequest : tx.tx_data.userRequest = .ok request) :
    row.gas_used = tx.tx_info.gas_used ∧
      row.max_gas_amount = request.map UserTransactionRequest.max_gas_amount ∧
        row.gas_unit_price = request.map UserTransactionRequest.gas_unit_price := by
  obtain ⟨timestamp, txType, number, changes, columns, -, hcolumns, rfl⟩ :=
    getTransactions_eq_ok h
  have hmax : tx.tx_data.maxGasAmount =
      .ok (request.map UserTransactionRequest.max_gas_amount) := by
    rw [TxDataExtract.maxGasAmount, hrequest, Outcome.ok_bind]
  have hprice : tx.tx_data.gasUnitPrice =
      .ok (request.map UserTransactionRequest.gas_unit_price) := by
    rw [TxDataExtract.gasUnitPrice, hrequest, Outcome.ok_bind]
  rcases hcolumns with ⟨-, hstrict⟩ | ⟨-, hlenient⟩
  · exact ⟨rfl, Outcome.ok.inj (hstrict.max_gas_amount.symm.trans hmax),
      Outcome.ok.inj (hstrict.gas_unit_price.symm.trans hprice)⟩
  · -- the request is there, so nothing is left out
    have hmax' := hlenient.max_gas_amount
    have hprice' := hlenient.gas_unit_price
    rw [hmax] at hmax'
    rw [hprice] at hprice'
    exact ⟨rfl, (Outcome.ok.inj hmax').symm, (Outcome.ok.inj hprice').symm⟩

/-- There are as many signature rows as keys in the signature of the message. -/
theorem signatureCountOf_eq {sigs : Option (List Rows.Signature)}
    (h : getSignatures crates tx = .ok sigs)
    (hrequest : tx.tx_data.userRequest = .ok (requestOf value)) :
    signatureCountOf value = sigs.map List.length := by
  cases sigs with
  | none =>
    have hnone : requestOf value = none := by
      rw [← Option.not_isSome_iff_eq_none, TxDataExtract.userRequest_eq_ok hrequest,
        ← (getSignatures_spec h).1]
      exact nofun
    rw [signatureCountOf, hnone]
    rfl
  | some rows =>
    obtain ⟨request, signature, data, timestamp, groups, hsigned⟩ := getSignatures_groups h
    have hrequest := Outcome.ok.inj (hrequest.symm.trans hsigned.userRequest)
    have hentries := hasEntry_of_parts hsigned.ofParts (entryOf_parts data)
    have hlengths : groups.map (fun group => (group.rows crates tx timestamp).length) =
        (slotted data).map fun entry => entry.2.length := by
      refine Aligned.map_eq_map (hentries.imp fun group entry hentry => ?_)
      have hslots := congrArg List.length hentry.slots
      rw [List.length_map, List.length_map] at hslots
      rw [SignerGroup.rows, List.length_map, hslots]
    rw [signatureCountOf, hrequest, Option.bind_some, hsigned.signed, Option.bind_some,
      hsigned.signatureData, Option.map_some, Option.map_some, hsigned.ofGroups,
      List.length_flatMap, List.length_flatMap, hlengths]

end Extraction

/-! ## The columns are sourced -/

namespace Int64Column

variable {Row : Type} {value : Input.Transaction} {i : ℕ}

/-- A copied column has the number of the message. -/
theorem sourcedAt_copied {name : String} {source : Input.Transaction → ℕ → Option ℕ}
    {published : Row → Option ℕ} {row : Row} (h : published row = source value i) :
    (copied name source published).SourcedAt value i row := by
  simp only [SourcedAt, copied, h, Option.map_eq_bind]
  rfl

/-- The `block_height` column has the height of the message, cast. -/
theorem sourcedAt_blockHeight {table : Table} {row : table.Row}
    (h : table.blockHeight row = value.block_height.toInt64) :
    (blockHeight table).SourcedAt value i row := by
  simp only [SourcedAt, blockHeight, h, Option.bind_some, Conversion.convert]
  exact congrArg some value.block_height.toBitVec.toInt_eq_toNat_bmod

/-- A column of the sequence number has that of the message, checked. -/
theorem sourcedAt_sequenceNumber {name : String} {table : Table} {row : table.Row}
    (h : table.sequenceNumbers row = some (sequenceNumberColumns
      ((requestOf value).map UserTransactionRequest.sequence_number))) :
    (sequenceNumber name table).SourcedAt value i row := by
  simp only [SourcedAt, sequenceNumber, h, Option.bind_some]
  cases requestOf value with
  | none => rfl
  | some request =>
    simp only [Option.map_some, Option.bind_some, sequenceNumberColumns, Conversion.convert]
    split_ifs <;> rfl

end Int64Column

section Sourced

variable {crates : Crates} {value : Input.Transaction} {tx : TransactionExtraction}

/-- The places of the changes of some types are those of the extraction. -/
theorem placesOf_eq (htx : TransactionExtraction.tryFrom value = .ok tx)
    (kinds : List Input.ChangeType) :
    placesOf value kinds =
      (tx.tx_info.changes.zipIdx.filter fun item => item.1.getType ∈ kinds).map Prod.snd := by
  rw [placesOf, kindsOf_eq htx, List.zipIdx_map, List.filter_map, List.map_map]
  rfl

/-- A change has a detail row, with its place, in the table of its type and in no other. -/
theorem map_index_of_buildChange {columns : TxColumns} {item : IncompleteChangeRecord × ℕ}
    {built : BuiltChange} (hwell : item.1.WellFormed)
    (h : buildChange crates tx columns item = .ok built) :
    (built.rows .Modules).map Rows.Module.change_index =
        (if item.1.getType ∈ kindsOfTable .Modules then [item.2] else []) ∧
      (built.rows .Resources).map Rows.Resource.change_index =
          (if item.1.getType ∈ kindsOfTable .Resources then [item.2] else []) ∧
        (built.rows .TableItems).map Rows.TableItem.change_index =
          (if item.1.getType ∈ kindsOfTable .TableItems then [item.2] else []) := by
  obtain ⟨-, hmodule, hresource, htableItem⟩ := change_index_of_buildChange h
  obtain ⟨record, index⟩ := item
  obtain ⟨change, family, -, hfamily, rfl⟩ := buildChange_eq_ok h
  cases familyOf_of_buildFamily hfamily with
  | Module hok =>
    have hindex := hmodule _ rfl
    rcases hwell with hkind | hkind <;>
      simp [kindsOfTable, IncompleteChangeRecord.getType, hkind, BuiltChange.rows,
        FamilyRow.module?, FamilyRow.resource?, FamilyRow.tableItem?, hindex]
  | Resource hok =>
    have hindex := hresource _ rfl
    rcases hwell with hkind | hkind <;>
      simp [kindsOfTable, IncompleteChangeRecord.getType, hkind, BuiltChange.rows,
        FamilyRow.module?, FamilyRow.resource?, FamilyRow.tableItem?, hindex]
  | TableItem hok =>
    have hindex := htableItem _ rfl
    rcases hwell with hkind | hkind <;>
      simp [kindsOfTable, IncompleteChangeRecord.getType, hkind, BuiltChange.rows,
        FamilyRow.module?, FamilyRow.resource?, FamilyRow.tableItem?, hindex]

/-- The indices of each detail table are the places of the changes of its types. -/
theorem map_index_of_getChanges {changes : ChangeRecords}
    (htx : TransactionExtraction.tryFrom value = .ok tx)
    (h : getChanges crates tx = .ok changes) :
    changes.modules.map Rows.Module.change_index = placesOf value (kindsOfTable .Modules) ∧
      changes.resources.map Rows.Resource.change_index =
          placesOf value (kindsOfTable .Resources) ∧
        changes.tableitems.map Rows.TableItem.change_index =
          placesOf value (kindsOfTable .TableItems) := by
  obtain ⟨columns, built, -, hbuilt, rfl⟩ := getChanges_eq_ok.1 h
  have hwell := (TransactionExtraction.tryFrom_spec htx).1.changes
  have hbuilt := (List.forall₂_and_left _ _).2 ⟨Aligned.forall_mem_zipIdx_iff.2 hwell, hbuilt⟩
  rw [placesOf_eq htx, placesOf_eq htx, placesOf_eq htx, ofBuilt_modules, ofBuilt_resources,
    ofBuilt_tableitems]
  refine ⟨?_, ?_, ?_⟩
  · refine Aligned.map_index_eq hbuilt fun item b hb => ?_
    simpa using (map_index_of_buildChange hb.1 hb.2).1
  · refine Aligned.map_index_eq hbuilt fun item b hb => ?_
    simpa using (map_index_of_buildChange hb.1 hb.2).2.1
  · refine Aligned.map_index_eq hbuilt fun item b hb => ?_
    simpa using (map_index_of_buildChange hb.1 hb.2).2.2

section Stages

variable {block : Option Rows.Block} {changes : ChangeRecords} {events : Option (List Rows.Event)}
  {sigs : Option (List Rows.Signature)} {row : Rows.Transaction}
  (hstages : Extracts crates value tx block changes events sigs row)

include hstages

/-- The data of the message is that of its extraction. -/
theorem txn_data_of_extracts : value.txn_data = some tx.tx_data.txndata :=
  (TransactionExtraction.tryFrom_spec hstages.extraction).2.txn_data

/-- The request of the message is read without an error. -/
theorem userRequest_of_extracts : tx.tx_data.userRequest = .ok (requestOf value) := by
  obtain ⟨-, number, hnumber⟩ := exists_columns_of_getChanges hstages.changes
  obtain ⟨request, hrequest, -⟩ := Outcome.bind_eq_ok.1 hnumber
  rw [hrequest, requestOf_eq (txn_data_of_extracts hstages) hrequest]

/-- The round of the block is that of the message. -/
theorem round_of_extracts : roundOf value = block.map Rows.Block.round := by
  rw [roundOf, txn_data_of_extracts hstages]
  exact round_of_getBlock hstages.block

/-- The columns of the transaction row that count other rows are those of the message. -/
theorem counts_of_extracts :
    (eventsOf value).map List.length = row.num_events ∧
      signatureCountOf value = row.num_signatures ∧ row.num_changes = {
        total := (kindsOf value).length
        delete_module := (kindsOf value).count .DeleteModule
        delete_resource := (kindsOf value).count .DeleteResource
        delete_table_item := (kindsOf value).count .DeleteTableItem
        write_module := (kindsOf value).count .WriteModule
        write_resource := (kindsOf value).count .WriteResource
        write_table_item := (kindsOf value).count .WriteTableItem } := by
  obtain ⟨hwell, -⟩ := TransactionExtraction.tryFrom_spec hstages.extraction
  have hrow := getTransactions_spec hstages.row
  have hsigs : (sigs.map List.length).isSome = true ↔ tx.tx_type = .User := by
    rw [Option.isSome_map]
    exact (getSignatures_spec hstages.signatures).1.trans hwell.isUser.symm
  have haggregate := tx.tx_info.calculateChangesAggregate_eq fun change hchange =>
    getType_ne_unspecified (hwell.changes change hchange)
  refine ⟨?_, ?_, ?_⟩
  · rw [eventsOf_eq (txn_data_of_extracts hstages), hrow.num_events, numEvents]
  · rw [signatureCountOf_eq hstages.signatures (userRequest_of_extracts hstages),
      hrow.num_signatures hsigs]
  · rw [Outcome.ok.inj (hrow.num_changes.symm.trans haggregate), kindsOf_eq hstages.extraction,
      List.length_map]
    rfl

/-- The gas columns of the transaction row are those of the message. -/
theorem gas_of_extracts :
    (value.info.map fun info => info.gas_used.toNat) = some row.gas_used.toNat ∧
      row.max_gas_amount = (requestOf value).map UserTransactionRequest.max_gas_amount ∧
        row.gas_unit_price = (requestOf value).map UserTransactionRequest.gas_unit_price := by
  obtain ⟨hused, hmax, hprice⟩ :=
    gas_of_getTransactions hstages.row (userRequest_of_extracts hstages)
  obtain ⟨info, hinfo, htxInfo⟩ :=
    TransactionExtraction.exists_info_of_tryFrom hstages.extraction
  obtain ⟨converted, -, htxInfo⟩ := Outcome.bind_eq_ok.1 htxInfo
  refine ⟨?_, hmax, hprice⟩
  rw [hinfo, hused, ← Outcome.ok.inj htxInfo]
  rfl

/-- An event row is at the place of its event, with the numbers of the event. -/
theorem event_of_extracts {i : ℕ} {event : Rows.Event} (h : (events.getD [])[i]? = some event) :
    event.event_index = i ∧ ∃ item, ((eventsOf value).getD [])[i]? = some item ∧
      event.sequence_number = item.sequence_number ∧
        item.key.map EventKey.creation_number = some event.creation_num := by
  rw [eventsOf_eq (txn_data_of_extracts hstages)]
  obtain ⟨-, rfl⟩ | ⟨items, timestamp, rows, hitems, -, hrows, rfl⟩ :=
    getEvents_eq_ok hstages.events
  · exact nomatch h
  · obtain ⟨item, hitem, hrow⟩ := Aligned.exists_of_getElem?_zipIdx hrows h
    obtain ⟨hindex, hnumbers⟩ := eventRow_numbers hrow
    rw [hitems]
    exact ⟨hindex, item, hitem, hnumbers⟩

/-- There are as many event rows as events. -/
theorem length_events_of_extracts :
    (events.getD []).length = ((eventsOf value).getD []).length := by
  have hlength := (getEvents_spec hstages.events).1
  rw [← eventsOf_eq (txn_data_of_extracts hstages)] at hlength
  cases events with
  | none =>
    rw [Option.map_none, eq_comm, Option.map_eq_none_iff] at hlength
    rw [hlength]
    rfl
  | some rows =>
    obtain ⟨items, hitems, hlength⟩ := Option.map_eq_some_iff.1 hlength.symm
    rw [hitems]
    exact hlength.symm

/-- There are as many change rows as changes. -/
theorem length_changes_of_extracts : changes.changes.length = (kindsOf value).length := by
  rw [(getChanges_spec hstages.changes).length_changes, kindsOf_eq hstages.extraction,
    List.length_map]

/-- A change row is at the place of its change. -/
theorem change_index_of_extracts {i : ℕ} {change : Rows.Change}
    (h : changes.changes[i]? = some change) : change.change_index = i := by
  obtain ⟨columns, built, -, hbuilt, rfl⟩ := getChanges_eq_ok.1 hstages.changes
  rw [ChangeRecords.ofBuilt, List.getElem?_map, Option.map_eq_some_iff] at h
  obtain ⟨b, hb, rfl⟩ := h
  obtain ⟨record, -, hbuild⟩ := Aligned.exists_of_getElem?_zipIdx hbuilt hb
  exact (change_index_of_buildChange hbuild).1

end Stages

/-- A detail row at a place of its table has the place of its change as its index. -/
theorem sourcedAt_changeIndex {Row : Type} {kinds : List Input.ChangeType} {index : Row → ℕ}
    {rows : List Row} (h : rows.map index = placesOf value kinds) {i : ℕ} {row : Row}
    (hrow : rows[i]? = some row) : (Int64Column.changeIndex kinds index).SourcedAt value i row := by
  refine Int64Column.sourcedAt_copied ?_
  rw [← h, List.getElem?_map, hrow]
  rfl

/-- The columns that every row has are those of the message. -/
theorem shared_of_extractRecords {records : Rows.Records}
    (h : extractRecords crates value = .ok records) {table : Table} {row : table.Row}
    (hrow : row ∈ tableRows records table) :
    table.blockHeight row = value.block_height.toInt64 ∧ table.version row = value.version ∧
      ∀ pair ∈ table.sequenceNumbers row, pair = sequenceNumberColumns
        ((requestOf value).map UserTransactionRequest.sequence_number) := by
  obtain ⟨tx, block, changes, events, sigs, txRow, hstages, -⟩ := extractRecords_eq_ok.1 h
  obtain ⟨⟨timestamp, htimestamp⟩, number, hnumber⟩ := exists_columns_of_getChanges hstages.changes
  have hcarries := carries_of_extractRecords h hstages.extraction htimestamp hnumber table row hrow
  have hversion := (TransactionExtraction.tryFrom_spec hstages.extraction).2.version
  rw [TxDataExtract.sequenceNumber, userRequest_of_extracts hstages, Outcome.ok_bind] at hnumber
  obtain rfl := Outcome.ok.inj hnumber
  have hshared := hcarries.shared
  refine ⟨?_, ?_, hcarries.numbers⟩
  · rw [← TransactionExtraction.blockheight_of_tryFrom hstages.extraction]
    exact congrArg SharedColumns.block_height hshared
  · rw [← hversion]
    exact congrArg SharedColumns.version hshared

open Int64Column in
/-- Every column has what its conversion makes of the number of the message. -/
theorem sourcedAt_int64Columns {records : Rows.Records}
    (h : extractRecords crates value = .ok records) (table : Table) {i : ℕ} {row : table.Row}
    (hrow : (tableRows records table)[i]? = some row) :
    ∀ column ∈ int64Columns table, column.SourcedAt value i row := by
  obtain ⟨hheight, hversion, hnumbers⟩ := shared_of_extractRecords h (List.mem_of_getElem? hrow)
  have hblockHeight : (blockHeight table).SourcedAt value i row := sourcedAt_blockHeight hheight
  have hversion : ∀ name, (version name table).SourcedAt value i row := fun name =>
    sourcedAt_copied (congrArg (fun version => some version.toNat) hversion)
  obtain ⟨tx, block, changes, events, sigs, txRow, hstages, rfl⟩ := extractRecords_eq_ok.1 h
  obtain ⟨hmodules, hresources, htableItems⟩ :=
    map_index_of_getChanges hstages.extraction hstages.changes
  cases table with
  | Transactions =>
    obtain rfl := List.mem_singleton.1 (List.mem_of_getElem? hrow)
    obtain ⟨hnumEvents, hsignatures, hchanges⟩ := counts_of_extracts hstages
    obtain ⟨hused, hmax, hprice⟩ := gas_of_extracts hstages
    simp only [int64Columns, List.forall_mem_cons]
    refine ⟨hblockHeight, hversion _, sourcedAt_copied hused.symm, sourcedAt_sequenceNumber ?_,
      sourcedAt_copied (congrArg (Option.map UInt64.toNat) hmax),
      sourcedAt_copied (congrArg (Option.map UInt64.toNat) hprice),
      sourcedAt_copied hnumEvents.symm, ?_, ?_, ?_, ?_, ?_, ?_, ?_,
      sourcedAt_copied hsignatures.symm, nofun⟩
    · exact congrArg some (hnumbers _ rfl)
    -- the total, and one count for each type
    all_goals exact sourcedAt_copied (by rw [hchanges])
  | Changes =>
    simp only [int64Columns, List.forall_mem_cons]
    refine ⟨hblockHeight, hversion _, sourcedAt_sequenceNumber ?_, sourcedAt_copied ?_, nofun⟩
    · exact congrArg some (hnumbers _ rfl)
    · exact congrArg some (change_index_of_extracts hstages hrow)
  | Modules =>
    simp only [int64Columns, List.forall_mem_cons]
    exact ⟨hblockHeight, hversion _, sourcedAt_changeIndex hmodules hrow, nofun⟩
  | Resources =>
    simp only [int64Columns, List.forall_mem_cons]
    refine ⟨hblockHeight, hversion _, sourcedAt_sequenceNumber ?_,
      sourcedAt_changeIndex hresources hrow, nofun⟩
    exact congrArg some (hnumbers _ rfl)
  | TableItems =>
    simp only [int64Columns, List.forall_mem_cons]
    refine ⟨hblockHeight, hversion _, sourcedAt_sequenceNumber ?_,
      sourcedAt_changeIndex htableItems hrow, nofun⟩
    exact congrArg some (hnumbers _ rfl)
  | Blocks =>
    obtain rfl := Option.mem_toList.1 (List.mem_of_getElem? hrow)
    simp only [int64Columns, List.forall_mem_cons]
    refine ⟨hblockHeight, hversion _, sourcedAt_copied ?_, nofun⟩
    rw [round_of_extracts hstages]
    rfl
  | Events =>
    obtain ⟨hindex, item, hitem, hsequence, hcreation⟩ := event_of_extracts hstages hrow
    simp only [int64Columns, List.forall_mem_cons]
    refine ⟨hblockHeight, hversion _, sourcedAt_sequenceNumber ?_, sourcedAt_copied ?_,
      sourcedAt_copied ?_, sourcedAt_copied ?_, nofun⟩
    · exact congrArg some (hnumbers _ rfl)
    · exact congrArg some hindex
    · rw [hitem, Option.bind_some, hcreation]
      rfl
    · rw [hitem, Option.bind_some, hsequence]
      rfl
  | Signatures =>
    simp only [int64Columns, List.forall_mem_cons]
    exact ⟨hblockHeight, hversion _, nofun⟩

end Sourced

/-! ## When all columns fit -/

/-- What is published without a check is in the range of an `i64`: the numbers of the message, and
the lengths of its lists. -/
structure InInt64 (value : Input.Transaction) : Prop where
  block_height : value.block_height.toNat < 2 ^ 63
  version : value.version.toNat < 2 ^ 63
  gas_used : ∀ info ∈ value.info, info.gas_used.toNat < 2 ^ 63
  max_gas_amount : ∀ request ∈ requestOf value, request.max_gas_amount.toNat < 2 ^ 63
  gas_unit_price : ∀ request ∈ requestOf value, request.gas_unit_price.toNat < 2 ^ 63
  round : ∀ round ∈ roundOf value, round.toNat < 2 ^ 63
  sequence_number : ∀ event ∈ (eventsOf value).getD [], event.sequence_number.toNat < 2 ^ 63
  creation_number : ∀ event ∈ (eventsOf value).getD [], ∀ key ∈ event.key,
    key.creation_number.toNat < 2 ^ 63
  num_events : ((eventsOf value).getD []).length < 2 ^ 63
  num_changes : (kindsOf value).length < 2 ^ 63
  num_signatures : ∀ count ∈ signatureCountOf value, count < 2 ^ 63

/-- A column that is not checked has a number of the message in range, for the row at a place. -/
def Int64Column.InRangeAt {Row : Type} (column : Int64Column Row) (value : Input.Transaction)
    (i : ℕ) : Prop :=
  column.conversion ≠ .Check → ∀ s ∈ column.source value i, s < 2 ^ 63

/-- A column that is sourced fits exactly when it is in range. -/
theorem Int64Column.SourcedAt.fitsAt_iff {Row : Type} {column : Int64Column Row}
    {value : Input.Transaction} {i : ℕ} {row : Row} (h : column.SourcedAt value i row) :
    column.FitsAt value i row ↔ column.InRangeAt value i := by
  rw [FitsAt, h, fits_convert_iff]
  rfl

namespace Int64Column

variable {value : Input.Transaction} {i : ℕ}

/-- A copied column is in range exactly when its number is. -/
theorem inRangeAt_copied {Row : Type} {name : String} {source : Input.Transaction → ℕ → Option ℕ}
    {published : Row → Option ℕ} :
    (copied name source published).InRangeAt value i ↔ ∀ s ∈ source value i, s < 2 ^ 63 :=
  forall_prop_of_true nofun

/-- A column of the request is in range exactly when the number of the request is. -/
theorem inRangeAt_ofRequest {name : String} {source : UserTransactionRequest → UInt64}
    {published : Rows.Transaction → Option UInt64} :
    (ofRequest name source published).InRangeAt value i ↔
      ∀ request ∈ requestOf value, (source request).toNat < 2 ^ 63 := by
  rw [ofRequest, inRangeAt_copied, Option.forall_mem_map, Option.forall_mem_map]

/-- A column of an event is in range exactly when the number of the event is. -/
theorem inRangeAt_ofEvent {name : String} {source : Input.Event → Option UInt64}
    {published : Rows.Event → UInt64} :
    (ofEvent name source published).InRangeAt value i ↔
      ∀ event ∈ ((eventsOf value).getD [])[i]?, ∀ number ∈ source event,
        number.toNat < 2 ^ 63 := by
  rw [ofEvent, inRangeAt_copied, Option.forall_mem_map]
  constructor
  · intro h event hevent number hnumber
    exact h number (Option.mem_bind_iff.2 ⟨event, hevent, hnumber⟩)
  · intro h number hnumber
    obtain ⟨event, hevent, hsource⟩ := Option.mem_bind_iff.1 hnumber
    exact h event hevent number hsource

end Int64Column

section Range

variable {crates : Crates} {value : Input.Transaction} {records : Rows.Records}

/-- The places of the changes of some types are places of changes. -/
theorem lt_of_mem_placesOf {kinds : List Input.ChangeType} {place : ℕ}
    (h : place ∈ placesOf value kinds) : place < (kindsOf value).length := by
  obtain ⟨item, hitem, rfl⟩ := List.mem_map.1 h
  have hlt := List.snd_lt_of_mem_zipIdx (List.mem_filter.1 hitem).1
  rwa [Nat.add_zero] at hlt

open Int64Column in
/-- A message whose numbers are in range has all columns in range. -/
theorem inRangeAt_of_inInt64 (hvalue : InInt64 value)
    (h : extractRecords crates value = .ok records) (table : Table) {i : ℕ} {row : table.Row}
    (hrow : (tableRows records table)[i]? = some row) :
    ∀ column ∈ int64Columns table, column.InRangeAt value i := by
  obtain ⟨tx, block, changes, events, sigs, txRow, hstages, rfl⟩ := extractRecords_eq_ok.1 h
  obtain ⟨hi, -⟩ := List.getElem?_eq_some_iff.1 hrow
  have hheight : (Int64Column.blockHeight table).InRangeAt value i := by
    rintro - _ ⟨⟩
    exact hvalue.block_height
  have hversion : ∀ name, (Int64Column.version name table).InRangeAt value i := by
    rintro name - _ ⟨⟩
    exact hvalue.version
  have hchecked : ∀ name, (Int64Column.sequenceNumber name table).InRangeAt value i :=
    fun name hconversion => absurd rfl hconversion
  have hindex : ∀ {Row : Type} {kinds} (published : Row → ℕ),
      (Int64Column.changeIndex kinds published).InRangeAt value i := by
    rintro Row kinds published - s hs
    exact lt_trans (lt_of_mem_placesOf (List.mem_of_getElem? hs)) hvalue.num_changes
  cases table with
  | Transactions =>
    simp only [int64Columns, List.forall_mem_cons]
    have hcount : ∀ name kind published,
        (Int64Column.numChanges name kind published).InRangeAt value i := by
      rintro name kind published - _ ⟨⟩
      exact lt_of_le_of_lt List.count_le_length hvalue.num_changes
    refine ⟨hheight, hversion _, inRangeAt_copied.2 (Option.forall_mem_map.2 hvalue.gas_used),
      hchecked _, inRangeAt_ofRequest.2 hvalue.max_gas_amount,
      inRangeAt_ofRequest.2 hvalue.gas_unit_price, ?_, ?_, hcount _ _ _, hcount _ _ _,
      hcount _ _ _, hcount _ _ _, hcount _ _ _, hcount _ _ _,
      inRangeAt_copied.2 hvalue.num_signatures, nofun⟩
    · refine inRangeAt_copied.2 (Option.forall_mem_map.2 fun items hitems => ?_)
      have hlength := hvalue.num_events
      rwa [Option.mem_def.1 hitems] at hlength
    · rintro - _ ⟨⟩
      exact hvalue.num_changes
  | Changes =>
    simp only [int64Columns, List.forall_mem_cons]
    refine ⟨hheight, hversion _, hchecked _, ?_, nofun⟩
    rintro - _ ⟨⟩
    exact lt_trans (length_changes_of_extracts hstages ▸ hi) hvalue.num_changes
  | Modules =>
    simp only [int64Columns, List.forall_mem_cons]
    exact ⟨hheight, hversion _, hindex _, nofun⟩
  | Resources =>
    simp only [int64Columns, List.forall_mem_cons]
    exact ⟨hheight, hversion _, hchecked _, hindex _, nofun⟩
  | TableItems =>
    simp only [int64Columns, List.forall_mem_cons]
    exact ⟨hheight, hversion _, hchecked _, hindex _, nofun⟩
  | Blocks =>
    simp only [int64Columns, List.forall_mem_cons]
    exact ⟨hheight, hversion _, inRangeAt_copied.2 (Option.forall_mem_map.2 hvalue.round), nofun⟩
  | Events =>
    simp only [int64Columns, List.forall_mem_cons]
    refine ⟨hheight, hversion _, hchecked _, ?_, ?_, ?_, nofun⟩
    · rintro - _ ⟨⟩
      exact lt_trans (length_events_of_extracts hstages ▸ hi) hvalue.num_events
    · refine inRangeAt_ofEvent.2 fun event hevent => Option.forall_mem_map.2 ?_
      exact hvalue.creation_number event (List.mem_of_getElem? hevent)
    · rw [inRangeAt_ofEvent]
      rintro event hevent _ ⟨⟩
      exact hvalue.sequence_number event (List.mem_of_getElem? hevent)
  | Signatures =>
    simp only [int64Columns, List.forall_mem_cons]
    exact ⟨hheight, hversion _, nofun⟩

open Int64Column in
/-- A message that has all columns in range has its numbers in range. -/
theorem inInt64_of_inRangeAt (h : extractRecords crates value = .ok records)
    (hrange : ∀ (table : Table) (i : ℕ) (row : table.Row),
      (tableRows records table)[i]? = some row →
        ∀ column ∈ int64Columns table, column.InRangeAt value i) : InInt64 value := by
  obtain ⟨tx, block, changes, events, sigs, txRow, hstages, rfl⟩ := extractRecords_eq_ok.1 h
  -- the row of the transaction is always there
  have htransaction := hrange .Transactions 0 txRow rfl
  simp only [int64Columns, List.forall_mem_cons] at htransaction
  obtain ⟨hheight, hversion, hused, -, hmax, hprice, hevents, htotal, -, -, -, -, -, -, hsigs, -⟩ :=
    htransaction
  -- and there is a row for each event
  have hevent : ∀ i item, ((eventsOf value).getD [])[i]? = some item →
      ∀ column ∈ int64Columns .Events, column.InRangeAt value i := by
    intro i item hitem
    obtain ⟨hi, -⟩ := List.getElem?_eq_some_iff.1 hitem
    rw [← length_events_of_extracts hstages] at hi
    exact hrange .Events i _ (List.getElem?_eq_getElem hi)
  simp only [int64Columns, List.forall_mem_cons] at hevent
  constructor
  case block_height => exact hheight nofun _ rfl
  case version => exact hversion nofun _ rfl
  case gas_used => exact Option.forall_mem_map.1 (inRangeAt_copied.1 hused)
  case max_gas_amount => exact inRangeAt_ofRequest.1 hmax
  case gas_unit_price => exact inRangeAt_ofRequest.1 hprice
  case round =>
    intro round hround
    -- a round is there only where a block is
    have hblock := hround
    rw [round_of_extracts hstages] at hblock
    obtain ⟨b, hb, -⟩ := Option.mem_map.1 hblock
    obtain rfl := Option.mem_def.1 hb
    have hrow := hrange .Blocks 0 b rfl
    simp only [int64Columns, List.forall_mem_cons] at hrow
    obtain ⟨-, -, hrounds, -⟩ := hrow
    exact Option.forall_mem_map.1 (inRangeAt_copied.1 hrounds) round hround
  case sequence_number =>
    intro event hevent'
    obtain ⟨i, hi⟩ := List.mem_iff_getElem?.1 hevent'
    obtain ⟨-, -, -, -, -, hsequence, -⟩ := hevent i event hi
    exact inRangeAt_ofEvent.1 hsequence event hi _ rfl
  case creation_number =>
    intro event hevent'
    obtain ⟨i, hi⟩ := List.mem_iff_getElem?.1 hevent'
    obtain ⟨-, -, -, -, hcreation, -⟩ := hevent i event hi
    exact Option.forall_mem_map.1 (inRangeAt_ofEvent.1 hcreation event hi)
  case num_events =>
    cases hcase : eventsOf value with
    | none => exact Nat.two_pow_pos 63
    | some items => exact Option.forall_mem_map.1 (inRangeAt_copied.1 hevents) items hcase
  case num_changes => exact htotal nofun _ rfl
  case num_signatures => exact inRangeAt_copied.1 hsigs

/-- All integer columns of a transaction fit exactly when the numbers of its message that are
published without a check are in the range of an `i64`. -/
theorem extractRecords_fits_iff (h : extractRecords crates value = .ok records) :
    (∀ (table : Table) (i : ℕ) (row : table.Row), (tableRows records table)[i]? = some row →
      ∀ column ∈ int64Columns table, column.FitsAt value i row) ↔ InInt64 value := by
  constructor
  · intro hfits
    refine inInt64_of_inRangeAt h fun table i row hrow column hcolumn => ?_
    have hsourced := sourcedAt_int64Columns h table hrow column hcolumn
    exact hsourced.fitsAt_iff.1 (hfits table i row hrow column hcolumn)
  · intro hvalue table i row hrow column hcolumn
    have hsourced := sourcedAt_int64Columns h table hrow column hcolumn
    exact hsourced.fitsAt_iff.2 (inRangeAt_of_inInt64 hvalue h table hrow column hcolumn)

/-- The numbers of a user transaction with one event, one change and one signature are small. -/
theorem extractRecords_fits_iff_sampleUser :
    ∃ records, extractRecords sampleCrates sampleUser = .ok records ∧
      ((∀ (table : Table) (i : ℕ) (row : table.Row), (tableRows records table)[i]? = some row →
        ∀ column ∈ int64Columns table, column.FitsAt sampleUser i row) ↔ InInt64 sampleUser) := by
  obtain ⟨records, h⟩ := exists_records_sampleUser
  exact ⟨records, h, extractRecords_fits_iff h⟩

end Range

/-- A validator transaction without events, in the block of height `2 ^ 63`. -/
def sampleHigh : Input.Transaction :=
  { sampleValidator with block_height := 9223372036854775808, txn_data := some (.Validator ⟨[]⟩) }

/-- Its height is published as a negative number. -/
theorem not_fitsAt_sampleHigh :
    ¬ ∀ crates value records, extractRecords crates value = .ok records →
      ∀ (table : Table) (i : ℕ) (row : table.Row), (tableRows records table)[i]? = some row →
        ∀ column ∈ int64Columns table, column.FitsAt value i row := by
  intro h
  obtain ⟨records, hok⟩ : ∃ records, extractRecords sampleCrates sampleHigh = .ok records :=
    Outcome.isSome_toOption.1 (by decide)
  obtain ⟨tx, block, changes, events, sigs, row, hstages, rfl⟩ := extractRecords_eq_ok.1 hok
  -- the first column of the transactions is the height
  have hfits := h sampleCrates sampleHigh _ hok .Transactions 0 row rfl _ List.mem_cons_self
  have hsourced := sourcedAt_int64Columns hok .Transactions (i := 0) rfl _ List.mem_cons_self
  exact absurd (hsourced.fitsAt_iff.1 hfits nofun _ rfl) (by decide)

end AptosEtl.Airflow
