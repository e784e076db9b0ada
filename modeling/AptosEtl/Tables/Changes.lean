import AptosEtl.Reps.Transaction
import Mathlib.Algebra.Group.Nat.Defs

/-!
# The change tables

`tables/changes.rs`. One pass over the changes of a transaction fills four tables: every change
has a row in `changes`, and a second row in the table of its family. The pass is a fold over the
four accumulators. `pushChange_spec` says once what a step appends, and everything that is proved
of the tables comes from it by induction on the pass (`GrowsBy`).
-/

namespace AptosEtl.Tables

open Rust Input Reps

/-- The `ChangeType` enum of the published changes. -/
inductive ChangeType where
  | DeleteModule
  | DeleteResource
  | DeleteTableItem
  | WriteModule
  | WriteResource
  | WriteTableItem
  deriving DecidableEq, Repr

/-- `ChangeType::as_str_name`. -/
def ChangeType.asStrName : ChangeType → String
  | DeleteModule => "delete_module"
  | DeleteResource => "delete_resource"
  | DeleteTableItem => "delete_table_item"
  | WriteModule => "write_module"
  | WriteResource => "write_resource"
  | WriteTableItem => "write_table_item"

/-- The errors of `get_changes`. -/
inductive ChangeError where
  | Timestamp (error : TimestampError)
  | TxData (error : TxDataExtractError)
  | UnspecifiedType
  | Address (error : AddressError)
  | InvalidChangeTypeForRecord (type : ChangeType)
  | StructTag (error : StructTagError)
  | ModuleExtractionError (error : ModuleError)
  | ModuleId (error : MoveModuleIdError)
  | ExposedFunction (error : FunctionError)
  | StructError (error : MvStructError)

/-- `convert_change_type`. -/
def convertChangeType : Input.ChangeType → Outcome ChangeError ChangeType
  | .WriteTableItem => .ok .WriteTableItem
  | .DeleteTableItem => .ok .DeleteTableItem
  | .WriteModule => .ok .WriteModule
  | .DeleteModule => .ok .DeleteModule
  | .WriteResource => .ok .WriteResource
  | .DeleteResource => .ok .DeleteResource
  | .Unspecified => .err .UnspecifiedType

/-- The pair of sequence number columns, the first of which is only for what an `i64` holds. -/
def sequenceNumberColumns : Option UInt64 → Option UInt64 × Option String
  | some number =>
    -- `i64::try_from`
    if number.toNat < 2 ^ 63 then (some number, some (toString number))
    else (none, some (toString number))
  | none => (none, none)

/-- `ChangeRecords`. -/
structure ChangeRecords where
  changes : List Rows.Change
  resources : List Rows.Resource
  modules : List Rows.Module
  tableitems : List Rows.TableItem

/-- `ChangeRecords::new`. -/
def ChangeRecords.new : ChangeRecords := ⟨[], [], [], []⟩

/-- The columns that `get_changes` computes once for all rows of a transaction. -/
structure TxColumns where
  timestamp : String
  hash : String
  tx_sequence_number : Option UInt64
  tx_sequence_number_big : Option String

/-- The columns that the loop computes once for the rows of one change. -/
structure ChangeColumns where
  chtype : ChangeType
  addr : String
  state_key_hash : String
  change_index : ℕ

/-- The columns of a module that come from its bytecode and its ABI. -/
structure ModuleColumns where
  bytecode : Option Bytes
  friends : List Rows.Friend
  exposed : List Rows.ExposedFunction
  structs : List Rows.Struct

/-- The columns of a module from its ABI. -/
def abiColumns (crates : Crates) (bytecode : Bytes) (abi : MoveModule) :
    Outcome ChangeError ModuleColumns :=
  (ModuleExtraction.tryFrom abi).mapErr .ModuleExtractionError |>.bind fun extraction =>
    (Outcome.tryMap (ModuleId.tryEncodeFriend crates) extraction.friends).mapErr .ModuleId |>.bind
      fun friends =>
        (Outcome.tryMap (Function.tryEncode crates) extraction.exposed_functions).mapErr
            .ExposedFunction |>.bind fun exposed =>
          (Outcome.tryMap (MvStruct.tryEncode crates) extraction.structs).mapErr
              .StructError |>.bind
            fun structs => .ok ⟨some bytecode, friends, exposed, structs⟩

/-- The columns of a module from its data. -/
def moduleColumns (crates : Crates) : Option MoveModuleBytecode → Outcome ChangeError ModuleColumns
  | some data =>
    match data.abi with
    | some abi => abiColumns crates data.bytecode abi
    -- without an ABI the module has its bytecode only
    | none => .ok ⟨some data.bytecode, [], [], []⟩
  | none => .ok ⟨none, [], [], []⟩

section Rows

variable (crates : Crates) (tx : TransactionExtraction) (columns : TxColumns)
  (change : ChangeColumns)

/-- The row of a change in `changes`. -/
def changeRow : Rows.Change where
  block_height := tx.blockheight
  block_timestamp := columns.timestamp
  tx_version := tx.version
  tx_hash := columns.hash
  tx_sequence_number := columns.tx_sequence_number
  tx_sequence_number_big := columns.tx_sequence_number_big
  change_index := change.change_index
  change_type := change.chtype.asStrName
  address := some change.addr
  state_key_hash := change.state_key_hash
  block_unixtimestamp := tx.getUnixTimestamp

/-- The row of a change in `modules`. -/
def moduleRow (module : IncompleteModuleRecord) : Outcome ChangeError Rows.Module :=
  (moduleColumns crates module.module_data).bind fun data =>
    (module.address.tryEncode crates).mapErr .Address |>.bind fun address =>
      .ok {
        block_height := tx.blockheight
        block_timestamp := columns.timestamp
        tx_version := tx.version
        tx_hash := columns.hash
        change_index := change.change_index
        bytecode := data.bytecode.map crates.base64
        address := address
        name := module.module_id.map ModuleId.name
        friends := data.friends
        exposed_functions := data.exposed
        structs := data.structs
        block_unixtimestamp := tx.getUnixTimestamp }

/-- The `change_type` column of `resources`. -/
def resourceChangeType : ChangeType → Outcome ChangeError String
  | .WriteResource => .ok "write_resource"
  | .DeleteResource => .ok "delete_resource"
  | other => .err (.InvalidChangeTypeForRecord other)

/-- The `struct_tag` column of `resources`. -/
def structTagColumn : Option StructTag → Outcome ChangeError (Option Rows.StructTag)
  | some structTag =>
    (structTag.tryEncode crates).mapErr .StructTag |>.bind fun tag => .ok (some tag)
  | none => .ok none

/-- The row of a change in `resources`. -/
def resourceRow (resource : IncompleteResourceRecord) : Outcome ChangeError Rows.Resource :=
  (resource.address.tryEncode crates).mapErr .Address |>.bind fun address =>
    (resourceChangeType change.chtype).bind fun changeType =>
      (structTagColumn crates resource.struct_tag).bind fun structTag =>
        .ok {
          block_height := tx.blockheight
          block_timestamp := columns.timestamp
          tx_version := tx.version
          tx_hash := columns.hash
          tx_sequence_number := columns.tx_sequence_number
          tx_sequence_number_big := columns.tx_sequence_number_big
          change_index := change.change_index
          address := address
          state_key_hash := change.state_key_hash
          change_type := changeType
          struct_tag := structTag
          type_str := resource.type_str
          resource := resource.data
          block_unixtimestamp := tx.getUnixTimestamp }

/-- The `change_type` column of `table_items`. -/
def tableChangeType : ChangeType → Outcome ChangeError String
  | .WriteTableItem => .ok "write_table_item"
  | .DeleteTableItem => .ok "delete_table_item"
  | other => .err (.InvalidChangeTypeForRecord other)

/-- The row of a change in `table_items`. -/
def tableItemRow (tableitem : IncompleteTableItemRecord) : Outcome ChangeError Rows.TableItem :=
  (tableitem.handle.tryEncode crates).mapErr .Address |>.bind fun address =>
    (tableChangeType change.chtype).bind fun changeType =>
      .ok {
        block_height := tx.blockheight
        block_timestamp := columns.timestamp
        tx_version := tx.version
        tx_hash := columns.hash
        tx_sequence_number := columns.tx_sequence_number
        tx_sequence_number_big := columns.tx_sequence_number_big
        change_index := change.change_index
        change_type := changeType
        address := address
        state_key_hash := change.state_key_hash
        key := tableitem.key
        value := tableitem.value
        block_unixtimestamp := tx.getUnixTimestamp }

end Rows

/-- The columns that the rows of one change share. The address and the state key are unwrapped. -/
def changeColumns (crates : Crates) (change : IncompleteChangeRecord) (index : ℕ) :
    Outcome ChangeError ChangeColumns :=
  (convertChangeType change.getType).bind fun chtype =>
    (Outcome.expect change.address "called `Option::unwrap()` on a `None` value").bind
      fun address =>
      (address.tryEncode crates).mapErr .Address |>.bind fun addr =>
        (Outcome.expect change.stateKeyHash "called `Option::unwrap()` on a `None` value").bind
          fun stateKeyHash => .ok ⟨chtype, addr, stateKeyHash.encode crates, index⟩

/-- The body of the loop of `get_changes`. -/
def pushChange (crates : Crates) (tx : TransactionExtraction) (columns : TxColumns)
    (records : ChangeRecords) (item : IncompleteChangeRecord × ℕ) :
    Outcome ChangeError ChangeRecords :=
  (changeColumns crates item.1 item.2).bind fun change =>
    -- the row in `changes` comes first, whichever table the other row goes to
    let records := { records with changes := records.changes ++ [changeRow tx columns change] }
    match item.1 with
    | .Module module =>
      (moduleRow crates tx columns change module).bind fun row =>
        .ok { records with modules := records.modules ++ [row] }
    | .Resource resource =>
      (resourceRow crates tx columns change resource).bind fun row =>
        .ok { records with resources := records.resources ++ [row] }
    | .TableItem tableitem =>
      (tableItemRow crates tx columns change tableitem).bind fun row =>
        .ok { records with tableitems := records.tableitems ++ [row] }

/-- The columns of a transaction that its change rows share. -/
def txColumns (crates : Crates) (tx : TransactionExtraction) : Outcome ChangeError TxColumns :=
  (tx.getEncodedTimestamp crates).mapErr .Timestamp |>.bind fun timestamp =>
    tx.tx_data.sequenceNumber.mapErr .TxData |>.bind fun number =>
      let (sequenceNumber, sequenceNumberBig) := sequenceNumberColumns number
      .ok ⟨timestamp, tx.getEncodedHash crates, sequenceNumber, sequenceNumberBig⟩

/-- `get_changes`. -/
def getChanges (crates : Crates) (tx : TransactionExtraction) :
    Outcome ChangeError ChangeRecords :=
  (txColumns crates tx).bind fun columns =>
    Outcome.tryFold (pushChange crates tx columns) ChangeRecords.new tx.tx_info.changes.zipIdx

/-! ## Inverting the rows of a change -/

section Invert

variable {crates : Crates} {tx : TransactionExtraction} {columns : TxColumns}
  {change : ChangeColumns}

/-- The columns that the rows of one change share. -/
theorem changeColumns_eq_ok {record : IncompleteChangeRecord} {index : ℕ}
    (h : changeColumns crates record index = .ok change) :
    ∃ chtype address addr stateKeyHash, convertChangeType record.getType = .ok chtype ∧
      record.address = some address ∧ address.tryEncode crates = .ok addr ∧
        record.stateKeyHash = some stateKeyHash ∧
          change = ⟨chtype, addr, stateKeyHash.encode crates, index⟩ := by
  obtain ⟨chtype, hchtype, h⟩ := Outcome.bind_eq_ok.1 h
  obtain ⟨address, haddress, h⟩ := Outcome.bind_eq_ok.1 h
  obtain ⟨addr, haddr, h⟩ := Outcome.bind_eq_ok.1 h
  obtain ⟨stateKeyHash, hstateKeyHash, h⟩ := Outcome.bind_eq_ok.1 h
  exact ⟨chtype, address, addr, stateKeyHash, hchtype, Outcome.expect_eq_ok.1 haddress,
    Outcome.mapErr_eq_ok.1 haddr, Outcome.expect_eq_ok.1 hstateKeyHash, (Outcome.ok.inj h).symm⟩

/-- The row of a module. -/
theorem moduleRow_eq_ok {module : IncompleteModuleRecord} {row : Rows.Module}
    (h : moduleRow crates tx columns change module = .ok row) :
    ∃ data address, moduleColumns crates module.module_data = .ok data ∧
      module.address.tryEncode crates = .ok address ∧ row = {
        block_height := tx.blockheight
        block_timestamp := columns.timestamp
        tx_version := tx.version
        tx_hash := columns.hash
        change_index := change.change_index
        bytecode := data.bytecode.map crates.base64
        address := address
        name := module.module_id.map ModuleId.name
        friends := data.friends
        exposed_functions := data.exposed
        structs := data.structs
        block_unixtimestamp := tx.getUnixTimestamp } := by
  obtain ⟨data, hdata, h⟩ := Outcome.bind_eq_ok.1 h
  obtain ⟨address, haddress, h⟩ := Outcome.bind_eq_ok.1 h
  exact ⟨data, address, hdata, Outcome.mapErr_eq_ok.1 haddress, (Outcome.ok.inj h).symm⟩

/-- The row of a resource. -/
theorem resourceRow_eq_ok {resource : IncompleteResourceRecord} {row : Rows.Resource}
    (h : resourceRow crates tx columns change resource = .ok row) :
    ∃ address changeType structTag, resource.address.tryEncode crates = .ok address ∧
      resourceChangeType change.chtype = .ok changeType ∧
        structTagColumn crates resource.struct_tag = .ok structTag ∧ row = {
          block_height := tx.blockheight
          block_timestamp := columns.timestamp
          tx_version := tx.version
          tx_hash := columns.hash
          tx_sequence_number := columns.tx_sequence_number
          tx_sequence_number_big := columns.tx_sequence_number_big
          change_index := change.change_index
          address := address
          state_key_hash := change.state_key_hash
          change_type := changeType
          struct_tag := structTag
          type_str := resource.type_str
          resource := resource.data
          block_unixtimestamp := tx.getUnixTimestamp } := by
  obtain ⟨address, haddress, h⟩ := Outcome.bind_eq_ok.1 h
  obtain ⟨changeType, hchangeType, h⟩ := Outcome.bind_eq_ok.1 h
  obtain ⟨structTag, hstructTag, h⟩ := Outcome.bind_eq_ok.1 h
  exact ⟨address, changeType, structTag, Outcome.mapErr_eq_ok.1 haddress, hchangeType, hstructTag,
    (Outcome.ok.inj h).symm⟩

/-- The row of a table item. -/
theorem tableItemRow_eq_ok {tableitem : IncompleteTableItemRecord} {row : Rows.TableItem}
    (h : tableItemRow crates tx columns change tableitem = .ok row) :
    ∃ address changeType, tableitem.handle.tryEncode crates = .ok address ∧
      tableChangeType change.chtype = .ok changeType ∧ row = {
        block_height := tx.blockheight
        block_timestamp := columns.timestamp
        tx_version := tx.version
        tx_hash := columns.hash
        tx_sequence_number := columns.tx_sequence_number
        tx_sequence_number_big := columns.tx_sequence_number_big
        change_index := change.change_index
        change_type := changeType
        address := address
        state_key_hash := change.state_key_hash
        key := tableitem.key
        value := tableitem.value
        block_unixtimestamp := tx.getUnixTimestamp } := by
  obtain ⟨address, haddress, h⟩ := Outcome.bind_eq_ok.1 h
  obtain ⟨changeType, hchangeType, h⟩ := Outcome.bind_eq_ok.1 h
  exact ⟨address, changeType, Outcome.mapErr_eq_ok.1 haddress, hchangeType,
    (Outcome.ok.inj h).symm⟩

end Invert

/-! ## What one change appends -/

/-- The rows that one change appends: one in `changes`, and one in the table of its family. Every
row is of the transaction. -/
inductive GrowsBy (tx : TransactionExtraction) :
    IncompleteChangeRecord → ChangeRecords → ChangeRecords → Prop where
  | Module {records : ChangeRecords} {module : IncompleteModuleRecord} {row : Rows.Change}
      {row' : Rows.Module}
      (hrow : row.tx_version = tx.version ∧ row.block_unixtimestamp = tx.getUnixTimestamp)
      (hrow' : row'.tx_version = tx.version ∧ row'.block_unixtimestamp = tx.getUnixTimestamp) :
      GrowsBy tx (.Module module) records { records with
        changes := records.changes ++ [row], modules := records.modules ++ [row'] }
  | Resource {records : ChangeRecords} {resource : IncompleteResourceRecord} {row : Rows.Change}
      {row' : Rows.Resource}
      (hrow : row.tx_version = tx.version ∧ row.block_unixtimestamp = tx.getUnixTimestamp)
      (hrow' : row'.tx_version = tx.version ∧ row'.block_unixtimestamp = tx.getUnixTimestamp) :
      GrowsBy tx (.Resource resource) records { records with
        changes := records.changes ++ [row], resources := records.resources ++ [row'] }
  | TableItem {records : ChangeRecords} {tableitem : IncompleteTableItemRecord}
      {row : Rows.Change} {row' : Rows.TableItem}
      (hrow : row.tx_version = tx.version ∧ row.block_unixtimestamp = tx.getUnixTimestamp)
      (hrow' : row'.tx_version = tx.version ∧ row'.block_unixtimestamp = tx.getUnixTimestamp) :
      GrowsBy tx (.TableItem tableitem) records { records with
        changes := records.changes ++ [row], tableitems := records.tableitems ++ [row'] }

/-- A step of the loop appends the rows of its change. -/
theorem pushChange_spec {crates : Crates} {tx : TransactionExtraction} {columns : TxColumns}
    {records records' : ChangeRecords} {item : IncompleteChangeRecord × ℕ}
    (h : pushChange crates tx columns records item = .ok records') :
    GrowsBy tx item.1 records records' := by
  obtain ⟨change, -, h⟩ := Outcome.bind_eq_ok.1 h
  obtain ⟨record, index⟩ := item
  cases record with
  | Module module =>
    obtain ⟨row, hrow, h⟩ := Outcome.bind_eq_ok.1 h
    obtain rfl := Outcome.ok.inj h
    obtain ⟨data, address, -, -, rfl⟩ := moduleRow_eq_ok hrow
    exact .Module ⟨rfl, rfl⟩ ⟨rfl, rfl⟩
  | Resource resource =>
    obtain ⟨row, hrow, h⟩ := Outcome.bind_eq_ok.1 h
    obtain rfl := Outcome.ok.inj h
    obtain ⟨address, changeType, structTag, -, -, -, rfl⟩ := resourceRow_eq_ok hrow
    exact .Resource ⟨rfl, rfl⟩ ⟨rfl, rfl⟩
  | TableItem tableitem =>
    obtain ⟨row, hrow, h⟩ := Outcome.bind_eq_ok.1 h
    obtain rfl := Outcome.ok.inj h
    obtain ⟨address, changeType, -, -, rfl⟩ := tableItemRow_eq_ok hrow
    exact .TableItem ⟨rfl, rfl⟩ ⟨rfl, rfl⟩

/-! ## What a pass over the changes gives -/

/-- The change is of a module. -/
def isModule : IncompleteChangeRecord → Bool
  | .Module _ => true
  | _ => false

/-- The change is of a resource. -/
def isResource : IncompleteChangeRecord → Bool
  | .Resource _ => true
  | _ => false

/-- The change is of a table item. -/
def isTableItem : IncompleteChangeRecord → Bool
  | .TableItem _ => true
  | _ => false

/-- The records of a list of changes: as many rows in each table as changes of its family, all of
them of the transaction. -/
structure RecordsOf (tx : TransactionExtraction) (changes : List IncompleteChangeRecord)
    (records : ChangeRecords) : Prop where
  length_changes : records.changes.length = changes.length
  length_modules : records.modules.length = changes.countP isModule
  length_resources : records.resources.length = changes.countP isResource
  length_tableitems : records.tableitems.length = changes.countP isTableItem
  changes : ∀ row ∈ records.changes,
    row.tx_version = tx.version ∧ row.block_unixtimestamp = tx.getUnixTimestamp
  modules : ∀ row ∈ records.modules,
    row.tx_version = tx.version ∧ row.block_unixtimestamp = tx.getUnixTimestamp
  resources : ∀ row ∈ records.resources,
    row.tx_version = tx.version ∧ row.block_unixtimestamp = tx.getUnixTimestamp
  tableitems : ∀ row ∈ records.tableitems,
    row.tx_version = tx.version ∧ row.block_unixtimestamp = tx.getUnixTimestamp

/-- No records are the records of no changes. -/
theorem recordsOf_nil (tx : TransactionExtraction) : RecordsOf tx [] ChangeRecords.new := by
  constructor <;> simp [ChangeRecords.new]

/-- One more change keeps the records those of the changes so far. -/
theorem RecordsOf.step {tx : TransactionExtraction} {done : List IncompleteChangeRecord}
    {change : IncompleteChangeRecord} {records records' : ChangeRecords}
    (h : RecordsOf tx done records) (hstep : GrowsBy tx change records records') :
    RecordsOf tx (done ++ [change]) records' := by
  -- in every table that grows, the new row is of the transaction as the others are
  have happend : ∀ {α : Type} {P : α → Prop} {rows : List α} {row : α},
      (∀ r ∈ rows, P r) → P row → ∀ r ∈ rows ++ [row], P r := by
    intro α P rows row hrows hrow
    simpa [or_imp, forall_and] using ⟨hrows, hrow⟩
  obtain ⟨hc, hm, hr, ht, hrowc, hrowm, hrowr, hrowt⟩ := h
  cases hstep with
  | Module hrow hrow' =>
    refine ⟨?_, ?_, ?_, ?_, happend hrowc hrow, happend hrowm hrow', hrowr, hrowt⟩
      <;> simp [hc, hm, hr, ht, isModule, isResource, isTableItem]
  | Resource hrow hrow' =>
    refine ⟨?_, ?_, ?_, ?_, happend hrowc hrow, hrowm, happend hrowr hrow', hrowt⟩
      <;> simp [hc, hm, hr, ht, isModule, isResource, isTableItem]
  | TableItem hrow hrow' =>
    refine ⟨?_, ?_, ?_, ?_, happend hrowc hrow, hrowm, hrowr, happend hrowt hrow'⟩
      <;> simp [hc, hm, hr, ht, isModule, isResource, isTableItem]

/-- The records of a transaction are those of its changes. -/
theorem getChanges_spec {crates : Crates} {tx : TransactionExtraction} {records : ChangeRecords}
    (h : getChanges crates tx = .ok records) : RecordsOf tx tx.tx_info.changes records := by
  obtain ⟨columns, -, h⟩ := Outcome.bind_eq_ok.1 h
  have hrun := Outcome.tryFold_induct
    (P := fun done records => RecordsOf tx (done.map Prod.fst) records) h (recordsOf_nil tx)
    fun done item records records' hdone hpush => by
      rw [List.map_append]
      exact hdone.step (pushChange_spec hpush)
  simpa using hrun

/-- Where the change records are built, the timestamp and the sequence number are there. -/
theorem exists_columns_of_getChanges {crates : Crates} {tx : TransactionExtraction}
    {records : ChangeRecords} (h : getChanges crates tx = .ok records) :
    (∃ timestamp, tx.getEncodedTimestamp crates = .ok timestamp) ∧
      ∃ number, tx.tx_data.sequenceNumber = .ok number := by
  obtain ⟨columns, hcolumns, -⟩ := Outcome.bind_eq_ok.1 h
  obtain ⟨timestamp, htimestamp, hcolumns⟩ := Outcome.bind_eq_ok.1 hcolumns
  obtain ⟨number, hnumber, -⟩ := Outcome.bind_eq_ok.1 hcolumns
  exact ⟨⟨timestamp, Outcome.mapErr_eq_ok.1 htimestamp⟩, ⟨number, Outcome.mapErr_eq_ok.1 hnumber⟩⟩

/-- Evaluating the changes of a transaction shows that it is converted and that they are built. -/
theorem exists_changes_of_isSome {crates : Crates} {value : Input.Transaction}
    (h : ((TransactionExtraction.tryFrom value).toOption.bind fun tx =>
      (getChanges crates tx).toOption).isSome = true) :
    ∃ tx records, TransactionExtraction.tryFrom value = .ok tx ∧
      getChanges crates tx = .ok records := by
  obtain ⟨records, h⟩ := Option.isSome_iff_exists.1 h
  obtain ⟨tx, htx, hrecords⟩ := Option.bind_eq_some_iff.1 h
  exact ⟨tx, records, Outcome.toOption_eq_some.1 htx, Outcome.toOption_eq_some.1 hrecords⟩

/-! ## Building the records settles -/

/-- The columns of a module are computed without a panic. -/
theorem moduleColumns_settles (data : Option MoveModuleBytecode) :
    (moduleColumns crates data).Settles := by
  unfold moduleColumns
  split
  · split
    · unfold abiColumns
      refine (ModuleExtraction.tryFrom_settles _).mapErr.bind fun _ _ => ?_
      refine (Outcome.settles_tryMap fun friend _ =>
        friend.tryEncodeFriend_settles).mapErr.bind fun _ _ => ?_
      refine (Outcome.settles_tryMap fun function _ =>
        function.tryEncode_settles).mapErr.bind fun _ _ => ?_
      exact (Outcome.settles_tryMap fun mvstruct _ =>
        mvstruct.tryEncode_settles).mapErr.bind fun _ _ => Outcome.settles_ok _
    · exact Outcome.settles_ok _
  · exact Outcome.settles_ok _

/-- The columns of a change are computed without a panic: every change has an address and a state
key, so the two calls of `unwrap` are dead. -/
theorem changeColumns_settles (change : IncompleteChangeRecord) (index : ℕ) :
    (changeColumns crates change index).Settles := by
  unfold changeColumns
  refine Outcome.Settles.bind ?_ fun chtype _ => ?_
  · unfold convertChangeType
    split <;> simp
  · refine Outcome.Settles.bind ?_ fun address _ => ?_
    · cases change <;> simp [IncompleteChangeRecord.address, Outcome.expect]
    · refine (Address.tryEncode_settles _).mapErr.bind fun _ _ => ?_
      refine Outcome.Settles.bind ?_ fun _ _ => Outcome.settles_ok _
      cases change <;> simp [IncompleteChangeRecord.stateKeyHash, Outcome.expect]

/-- A step of the loop returns. -/
theorem pushChange_settles (crates : Crates) (tx : TransactionExtraction) (columns : TxColumns)
    (records : ChangeRecords) (item : IncompleteChangeRecord × ℕ) :
    (pushChange crates tx columns records item).Settles := by
  refine (changeColumns_settles _ _).bind fun change _ => ?_
  split
  · refine Outcome.Settles.bind ?_ fun _ _ => Outcome.settles_ok _
    exact (moduleColumns_settles _).bind fun _ _ =>
      (Address.tryEncode_settles _).mapErr.bind fun _ _ =>
        Outcome.settles_ok _
  · refine Outcome.Settles.bind ?_ fun _ _ => Outcome.settles_ok _
    refine (Address.tryEncode_settles _).mapErr.bind fun _ _ => ?_
    refine Outcome.Settles.bind ?_ fun _ _ => Outcome.Settles.bind ?_ fun _ _ =>
      Outcome.settles_ok _
    · unfold resourceChangeType
      split <;> simp
    · unfold structTagColumn
      split
      · exact (StructTag.tryEncode_settles _).mapErr.bind fun _ _ =>
          Outcome.settles_ok _
      · exact Outcome.settles_ok _
  · refine Outcome.Settles.bind ?_ fun _ _ => Outcome.settles_ok _
    refine (Address.tryEncode_settles _).mapErr.bind fun _ _ => ?_
    refine Outcome.Settles.bind ?_ fun _ _ => Outcome.settles_ok _
    unfold tableChangeType
    split <;> simp

/-- Building the change records returns. -/
theorem getChanges_settles (crates : Crates) (tx : TransactionExtraction) :
    (getChanges crates tx).Settles := by
  refine Outcome.Settles.bind ?_ fun columns _ => ?_
  · exact (Timestamp.tryEncode_settles _ _).mapErr.bind fun _ _ =>
      (TxDataExtract.sequenceNumber_settles _).mapErr.bind fun _ _ =>
        Outcome.settles_ok _
  · exact Outcome.settles_tryFold (fun _ _ _ => pushChange_settles _ _ _ _ _) _

end AptosEtl.Tables
