import AptosEtl.Tables.Events
import AptosEtl.Tables.Transactions

/-!
# All tables of a transaction

`tables/all.rs` and `tables/options.rs`. `extractRecords` builds the rows of all eight tables of
one transaction. It is compared here with `rowsOf`, which says what the rows of a transaction are
in one table, regardless of the others; `extractRecords` fails when any table does, and otherwise
its rows are those (`extractRecords_rows`). Two results follow from what each table's function
does: the counts of the transaction row are the numbers of rows of the other tables, and a panic
is reached exactly through an event whose data is not JSON.
-/

namespace AptosEtl.Tables

open Rust Input Reps
open TransactionInfoExtraction (countKind countKind_cons)

/-! ## The tables -/

/-- The eight tables, in the order in which the worker publishes them. -/
inductive Table where
  | Transactions
  | Changes
  | Modules
  | TableItems
  | Resources
  | Blocks
  | Events
  | Signatures
  deriving DecidableEq, Repr

/-- The tables, in that order. -/
def Table.all : List Table :=
  [.Transactions, .Changes, .Modules, .TableItems, .Resources, .Blocks, .Events, .Signatures]

/-- The rows of a table. -/
@[reducible]
def Table.Row : Table → Type
  | Transactions => Rows.Transaction
  | Changes => Rows.Change
  | Modules => Rows.Module
  | TableItems => Rows.TableItem
  | Resources => Rows.Resource
  | Blocks => Rows.Block
  | Events => Rows.Event
  | Signatures => Rows.Signature

/-- The version column of a row. -/
def Table.version : (table : Table) → table.Row → UInt64
  | Transactions, row => Rows.Transaction.tx_version row
  | Changes, row => Rows.Change.tx_version row
  | Modules, row => Rows.Module.tx_version row
  | TableItems, row => Rows.TableItem.tx_version row
  | Resources, row => Rows.Resource.tx_version row
  | Blocks, row => Rows.Block.blockmetadata_tx_version row
  | Events, row => Rows.Event.tx_version row
  | Signatures, row => Rows.Signature.tx_version row

/-- The `block_unixtimestamp` column of a row. -/
def Table.unixTimestamp : (table : Table) → table.Row → Rows.UnixTimestamp
  | Transactions, row => Rows.Transaction.block_unixtimestamp row
  | Changes, row => Rows.Change.block_unixtimestamp row
  | Modules, row => Rows.Module.block_unixtimestamp row
  | TableItems, row => Rows.TableItem.block_unixtimestamp row
  | Resources, row => Rows.Resource.block_unixtimestamp row
  | Blocks, row => Rows.Block.block_unixtimestamp row
  | Events, row => Rows.Event.block_unixtimestamp row
  | Signatures, row => Rows.Signature.block_unixtimestamp row

/-- The rows of a table among the records. -/
def tableRows (records : Rows.Records) : (table : Table) → List table.Row
  | .Transactions => records.transactions
  | .Changes => records.changes
  | .Modules => records.modules
  | .TableItems => records.table_items
  | .Resources => records.resources
  | .Blocks => records.blocks
  | .Events => records.events
  | .Signatures => records.signatures

/-- `TableOptions`. -/
structure TableOptions where
  blocks : Option Bool
  transactions : Option Bool
  events : Option Bool
  changes : Option Bool
  modules : Option Bool
  table_items : Option Bool
  resource : Option Bool
  signatures : Option Bool
  deriving DecidableEq, Repr

namespace TableOptions

/-- `TableOptions::new_all`. -/
def newAll : TableOptions :=
  ⟨some true, some true, some true, some true, some true, some true, some true, some true⟩

/-- `TableOptions::do_blocks`. -/
def doBlocks (self : TableOptions) : Bool := self.blocks.getD false

/-- `TableOptions::do_signatures`. -/
def doSignatures (self : TableOptions) : Bool := self.signatures.getD false

/-- `TableOptions::do_transactions`. -/
def doTransactions (self : TableOptions) : Bool := self.transactions.getD false

/-- `TableOptions::do_events`. -/
def doEvents (self : TableOptions) : Bool := self.events.getD false

/-- `TableOptions::do_changes`. -/
def doChanges (self : TableOptions) : Bool := self.changes.getD false

/-- `TableOptions::do_modules`. -/
def doModules (self : TableOptions) : Bool := self.modules.getD false

/-- `TableOptions::do_resources`. -/
def doResources (self : TableOptions) : Bool := self.resource.getD false

/-- `TableOptions::do_table_items`. -/
def doTableItems (self : TableOptions) : Bool := self.table_items.getD false

/-- `TableOptions::do_changes_or_subchanges`. -/
def doChangesOrSubchanges (self : TableOptions) : Bool :=
  self.doChanges || self.doModules || self.doResources || self.doTableItems

/-- The option that enables a table. -/
def enables (self : TableOptions) : Table → Bool
  | .Transactions => self.doTransactions
  | .Changes => self.doChanges
  | .Modules => self.doModules
  | .TableItems => self.doTableItems
  | .Resources => self.doResources
  | .Blocks => self.doBlocks
  | .Events => self.doEvents
  | .Signatures => self.doSignatures

end TableOptions

/-! ## The rows of a transaction -/

/-- The errors of `extract_records`, one for each of its stages. -/
inductive RecordsError where
  | Transaction (error : TxExtractionError)
  | Block (error : BlockError)
  | Changes (error : ChangeError)
  | Events (error : EventError)
  | Signatures (error : SigProcessError)
  | Row (error : TxError)

/-- `extract_records`. -/
def extractRecords (crates : Crates) (tx : Input.Transaction) :
    Outcome RecordsError Rows.Records :=
  let records := Rows.Records.new
  (TransactionExtraction.tryFrom tx).mapErr .Transaction |>.bind fun txExtraction =>
  (getBlock crates txExtraction).mapErr .Block |>.bind fun block =>
  let records := { records with blocks := records.blocks ++ block.toList }
  (getChanges crates txExtraction).mapErr .Changes |>.bind fun changes =>
  let records := { records with
    changes := records.changes ++ changes.changes
    resources := records.resources ++ changes.resources
    table_items := records.table_items ++ changes.tableitems
    modules := records.modules ++ changes.modules }
  (getEvents crates txExtraction).mapErr .Events |>.bind fun events =>
  let records := { records with events := records.events ++ events.getD [] }
  (getSignatures crates txExtraction).mapErr .Signatures |>.bind fun sigs =>
  -- no signatures are no count, not the count zero
  let sigCnt := sigs.map List.length
  let records := { records with signatures := records.signatures ++ sigs.getD [] }
  (getTransactions crates txExtraction sigCnt).mapErr .Row |>.bind fun row =>
  .ok { records with transactions := records.transactions ++ [row] }

/-- The rows of a converted transaction in a table: what the function of the table returns. -/
def rowsOfExtraction (crates : Crates) (tx : TransactionExtraction) :
    (table : Table) → List table.Row
  | .Transactions =>
    (getSignatures crates tx).elems fun sigs =>
      (getTransactions crates tx (sigs.map List.length)).elems fun row => [row]
  | .Changes => (getChanges crates tx).elems ChangeRecords.changes
  | .Modules => (getChanges crates tx).elems ChangeRecords.modules
  | .TableItems => (getChanges crates tx).elems ChangeRecords.tableitems
  | .Resources => (getChanges crates tx).elems ChangeRecords.resources
  | .Blocks => (getBlock crates tx).elems Option.toList
  | .Events => (getEvents crates tx).elems fun events => events.getD []
  | .Signatures => (getSignatures crates tx).elems fun sigs => sigs.getD []

/-- The rows of a transaction in a table. -/
def rowsOf (crates : Crates) (tx : Input.Transaction) (table : Table) : List table.Row :=
  (TransactionExtraction.tryFrom tx).elems fun txExtraction =>
    rowsOfExtraction crates txExtraction table

/-- What is known when all stages of `extract_records` return a value. -/
structure Extracts (crates : Crates) (value : Input.Transaction) (tx : TransactionExtraction)
    (block : Option Rows.Block) (changes : ChangeRecords) (events : Option (List Rows.Event))
    (sigs : Option (List Rows.Signature)) (row : Rows.Transaction) : Prop where
  extraction : TransactionExtraction.tryFrom value = .ok tx
  block : getBlock crates tx = .ok block
  changes : getChanges crates tx = .ok changes
  events : getEvents crates tx = .ok events
  signatures : getSignatures crates tx = .ok sigs
  row : getTransactions crates tx (sigs.map List.length) = .ok row

/-- The records of a transaction collect what its stages return. -/
theorem extractRecords_eq_ok {crates : Crates} {value : Input.Transaction}
    {records : Rows.Records} :
    extractRecords crates value = .ok records ↔
      ∃ tx block changes events sigs row, Extracts crates value tx block changes events sigs row ∧
        records = {
          blocks := block.toList
          transactions := [row]
          table_items := changes.tableitems
          resources := changes.resources
          modules := changes.modules
          changes := changes.changes
          events := events.getD []
          signatures := sigs.getD [] } := by
  constructor
  · intro h
    obtain ⟨tx, htx, h⟩ := Outcome.bind_eq_ok.1 h
    obtain ⟨block, hblock, h⟩ := Outcome.bind_eq_ok.1 h
    obtain ⟨changes, hchanges, h⟩ := Outcome.bind_eq_ok.1 h
    obtain ⟨events, hevents, h⟩ := Outcome.bind_eq_ok.1 h
    obtain ⟨sigs, hsigs, h⟩ := Outcome.bind_eq_ok.1 h
    obtain ⟨row, hrow, h⟩ := Outcome.bind_eq_ok.1 h
    rw [Outcome.mapErr_eq_ok] at htx hblock hchanges hevents hsigs hrow
    refine ⟨tx, block, changes, events, sigs, row,
      ⟨htx, hblock, hchanges, hevents, hsigs, hrow⟩, ?_⟩
    simpa [Rows.Records.new] using (Outcome.ok.inj h).symm
  · rintro ⟨tx, block, changes, events, sigs, row, h, rfl⟩
    simp only [extractRecords, h.extraction, h.block, h.changes, h.events, h.signatures, h.row,
      Outcome.mapErr_ok, Outcome.ok_bind, Rows.Records.new, List.nil_append]

/-- The rows of a transaction in a table are the records of that table. -/
theorem extractRecords_rows {crates : Crates} {value : Input.Transaction} {records : Rows.Records}
    (h : extractRecords crates value = .ok records) (table : Table) :
    tableRows records table = rowsOf crates value table := by
  obtain ⟨tx, block, changes, events, sigs, row, hstages, rfl⟩ := extractRecords_eq_ok.1 h
  rw [rowsOf, hstages.extraction, Outcome.elems_ok]
  cases table <;>
    simp only [tableRows, rowsOfExtraction, hstages.block, hstages.changes, hstages.events,
      hstages.signatures, hstages.row, Outcome.elems_ok]

/-- Every row of a converted transaction carries its version and its timestamp. -/
theorem rowsOfExtraction_spec {crates : Crates} {tx : TransactionExtraction} {table : Table}
    {row : table.Row} (h : row ∈ rowsOfExtraction crates tx table) :
    table.version row = tx.version ∧ table.unixTimestamp row = tx.getUnixTimestamp := by
  cases table with
  | Transactions =>
    obtain ⟨sigs, -, hrow⟩ := Outcome.mem_elems.1 h
    obtain ⟨row', hrow', hmem⟩ := Outcome.mem_elems.1 hrow
    obtain rfl := List.mem_singleton.1 hmem
    exact ⟨(getTransactions_spec hrow').version, (getTransactions_spec hrow').timestamp⟩
  | Changes =>
    obtain ⟨changes, hchanges, hmem⟩ := Outcome.mem_elems.1 h
    exact (getChanges_spec hchanges).changes row hmem
  | Modules =>
    obtain ⟨changes, hchanges, hmem⟩ := Outcome.mem_elems.1 h
    exact (getChanges_spec hchanges).modules row hmem
  | TableItems =>
    obtain ⟨changes, hchanges, hmem⟩ := Outcome.mem_elems.1 h
    exact (getChanges_spec hchanges).tableitems row hmem
  | Resources =>
    obtain ⟨changes, hchanges, hmem⟩ := Outcome.mem_elems.1 h
    exact (getChanges_spec hchanges).resources row hmem
  | Blocks =>
    obtain ⟨block, hblock, hmem⟩ := Outcome.mem_elems.1 h
    obtain rfl := Option.mem_toList.1 hmem
    exact getBlock_spec hblock
  | Events =>
    obtain ⟨events, hevents, hmem⟩ := Outcome.mem_elems.1 h
    cases events with
    | none => exact absurd hmem List.not_mem_nil
    | some rows => exact (getEvents_spec hevents).2 rows rfl row hmem
  | Signatures =>
    obtain ⟨sigs, hsigs, hmem⟩ := Outcome.mem_elems.1 h
    cases sigs with
    | none => exact absurd hmem List.not_mem_nil
    | some rows => exact (getSignatures_spec hsigs).2 rows rfl row hmem

/-- Every row of a transaction carries its version. -/
theorem rowsOf_version {crates : Crates} {tx : Input.Transaction} {table : Table}
    {row : table.Row} (h : row ∈ rowsOf crates tx table) : table.version row = tx.version := by
  obtain ⟨txExtraction, htx, hmem⟩ := Outcome.mem_elems.1 h
  rw [(rowsOfExtraction_spec hmem).1, (TransactionExtraction.tryFrom_spec htx).2.version]

/-! ## Row counts -/

/-- The columns of a transaction row that count rows of other tables, for the transaction that the
records are of. -/
structure Reconciles (value : Input.Transaction) (records : Rows.Records) (row : Rows.Transaction) :
    Prop where
  total : row.num_changes.total = records.changes.length
  modules : row.num_changes.write_module + row.num_changes.delete_module = records.modules.length
  resources :
    row.num_changes.write_resource + row.num_changes.delete_resource = records.resources.length
  table_items : row.num_changes.write_table_item + row.num_changes.delete_table_item =
    records.table_items.length
  sum : row.num_changes.write_module + row.num_changes.delete_module +
    row.num_changes.write_resource + row.num_changes.delete_resource +
    row.num_changes.write_table_item + row.num_changes.delete_table_item = row.num_changes.total
  events : row.num_events = some records.events.length ∨
    row.num_events = none ∧ records.events = []
  signatures : value.type.getD .Unspecified = .User →
    row.num_signatures = some records.signatures.length
  no_signatures : value.type.getD .Unspecified ≠ .User →
    row.num_signatures = none ∧ records.signatures = []

/-- A kind of change is counted by the family of the records that keep it. -/
theorem countP_family {changes : List IncompleteChangeRecord}
    (h : ∀ change ∈ changes, change.WellFormed) :
    countKind changes .WriteModule + countKind changes .DeleteModule =
        changes.countP isModule ∧
      countKind changes .WriteResource + countKind changes .DeleteResource =
        changes.countP isResource ∧
      countKind changes .WriteTableItem + countKind changes .DeleteTableItem =
        changes.countP isTableItem := by
  induction changes with
  | nil => simp
  | cons change changes ih =>
    obtain ⟨hm, hr, ht⟩ := ih fun c hc => h c (List.mem_cons_of_mem change hc)
    -- the first change is counted by its kind on one side and by its family on the other
    have hwell := h change List.mem_cons_self
    simp only [countKind_cons, List.countP_cons]
    cases change with
    | Module record =>
      rcases hwell with hkind | hkind <;>
        simp [IncompleteChangeRecord.getType, hkind, isModule, isResource, isTableItem] <;> omega
    | Resource record =>
      rcases hwell with hkind | hkind <;>
        simp [IncompleteChangeRecord.getType, hkind, isModule, isResource, isTableItem] <;> omega
    | TableItem record =>
      rcases hwell with hkind | hkind <;>
        simp [IncompleteChangeRecord.getType, hkind, isModule, isResource, isTableItem] <;> omega

/-- Every change is of one family. -/
theorem countP_families (changes : List IncompleteChangeRecord) :
    changes.countP isModule + changes.countP isResource + changes.countP isTableItem =
      changes.length := by
  induction changes with
  | nil => rfl
  | cons change changes ih =>
    simp only [List.countP_cons, List.length_cons]
    cases change <;> simp [isModule, isResource, isTableItem] <;> omega

/-- A well-formed change is of a specified kind. -/
theorem getType_ne_unspecified {change : IncompleteChangeRecord} (h : change.WellFormed) :
    change.getType ≠ .Unspecified := by
  cases change <;> rcases h with h | h <;> simp [IncompleteChangeRecord.getType, h]

/-- The records of a transaction hold one transaction row, and its counts are the numbers of rows
of the other tables. -/
theorem extractRecords_reconciles {crates : Crates} {value : Input.Transaction}
    {records : Rows.Records} (h : extractRecords crates value = .ok records) :
    ∃ row, records.transactions = [row] ∧ Reconciles value records row := by
  obtain ⟨tx, block, changes, events, sigs, row, hstages, rfl⟩ := extractRecords_eq_ok.1 h
  obtain ⟨hwell, hconverts⟩ := TransactionExtraction.tryFrom_spec hstages.extraction
  have hrecords := getChanges_spec hstages.changes
  have hevents := (getEvents_spec hstages.events).1
  have hsigs : sigs.isSome = true ↔ tx.tx_type = .User :=
    (getSignatures_spec hstages.signatures).1.trans hwell.isUser.symm
  have hrow := getTransactions_spec hstages.row
  have haggregate := tx.tx_info.calculateChangesAggregate_eq fun change hchange =>
    getType_ne_unspecified (hwell.changes change hchange)
  -- the aggregate of the row is the count of the kinds, since every kind is specified
  have hnum := Outcome.ok.inj (hrow.num_changes.symm.trans haggregate)
  have hnumSigs : row.num_signatures = sigs.map List.length :=
    hrow.num_signatures (by rw [Option.isSome_map, hsigs])
  obtain ⟨hm, hr, ht⟩ := countP_family hwell.changes
  have hfamilies := countP_families tx.tx_info.changes
  refine ⟨row, rfl, ?_⟩
  constructor
  case total => rw [hnum]; exact hrecords.length_changes.symm
  case modules => rw [hnum]; exact hm.trans hrecords.length_modules.symm
  case resources => rw [hnum]; exact hr.trans hrecords.length_resources.symm
  case table_items => rw [hnum]; exact ht.trans hrecords.length_tableitems.symm
  case sum =>
    simp only [hnum]
    omega
  case events =>
    rw [hrow.num_events, numEvents, ← hevents]
    cases events with
    | none => exact .inr ⟨rfl, rfl⟩
    | some rows => exact .inl rfl
  case signatures =>
    intro huser
    rw [hnumSigs]
    obtain ⟨rows, rfl⟩ := Option.isSome_iff_exists.1 (hsigs.2 (hconverts.tx_type ▸ huser))
    rfl
  case no_signatures =>
    intro huser
    rw [hnumSigs]
    cases sigs with
    | none => exact ⟨rfl, rfl⟩
    | some rows => exact absurd (hsigs.1 rfl) (hconverts.tx_type ▸ huser)

/-- An event, with its data. -/
def sampleEvent (data : String) : Input.Event where
  key := some ⟨0, "0x1"⟩
  sequence_number := 0
  type := some (.mk (.known (.Plain "U64")) none)
  type_str := "u64"
  data := data

/-- A user transaction with one event and one written module. -/
def sampleUser : Input.Transaction where
  timestamp := some ⟨0, 0⟩
  version := 1
  info := some {
    hash := [1]
    state_change_hash := []
    event_root_hash := []
    state_checkpoint_hash := none
    gas_used := 1
    success := true
    vm_status := "Executed successfully"
    accumulator_root_hash := []
    changes := [⟨.known .WriteModule, some (.WriteModule ⟨"0x1", [], some ⟨[], none⟩⟩)⟩] }
  epoch := 0
  block_height := 0
  type := .known .User
  txn_data := some (.User {
    request := some {
      sender := "0x1"
      sequence_number := 0
      max_gas_amount := 1
      gas_unit_price := 1
      expiration_timestamp_secs := some ⟨0, 0⟩
      payload := some ⟨.known .MultisigPayload, some (.MultisigPayload ⟨"0x1"⟩)⟩
      signature := some ⟨.known .Ed25519, some (.Ed25519 ⟨[], []⟩)⟩ }
    events := [sampleEvent "\x7b\x7d"] })

/-- The records of the user transaction can be extracted. -/
theorem exists_records_sampleUser :
    ∃ records, extractRecords sampleCrates sampleUser = .ok records :=
  Outcome.isSome_toOption.1 (by decide +kernel)

/-- The counts of a user transaction with one event, one change and one signature. -/
theorem extractRecords_reconciles_sampleUser :
    ∃ records row, extractRecords sampleCrates sampleUser = .ok records ∧
      records.transactions = [row] ∧ Reconciles sampleUser records row := by
  obtain ⟨records, h⟩ := exists_records_sampleUser
  obtain ⟨row, hrow, hreconciles⟩ := extractRecords_reconciles h
  exact ⟨records, row, h, hrow, hreconciles⟩

/-! ## Panics -/

/-- `extractRecords` gets as far as an event of the transaction: the message converts, its block
and its changes can be built, and so can the rows of the events before this one. -/
structure ReachesEvent (crates : Crates) (value : Input.Transaction) (event : Input.Event) :
    Prop where
  exists_split : ∃ tx done rest, TransactionExtraction.tryFrom value = .ok tx ∧
    tx.tx_data.events = some (done ++ event :: rest) ∧ (∀ prior ∈ done, EventBuilds crates prior) ∧
    (∃ block, getBlock crates tx = .ok block) ∧ ∃ changes, getChanges crates tx = .ok changes

/-- The conversion, the block and the changes return, and so do the signatures and the transaction
row: only the pass over the events, where it is reached, decides. -/
theorem extractRecords_settles_iff_getEvents (crates : Crates) (value : Input.Transaction) :
    (extractRecords crates value).Settles ↔
      ∀ tx, TransactionExtraction.tryFrom value = .ok tx →
        ∀ block, getBlock crates tx = .ok block → ∀ changes, getChanges crates tx = .ok changes →
          (getEvents crates tx).Settles := by
  unfold extractRecords
  rw [Outcome.settles_bind_iff (TransactionExtraction.tryFrom_settles _).mapErr]
  simp only [Outcome.mapErr_eq_ok]
  refine forall₂_congr fun tx _ => ?_
  rw [Outcome.settles_bind_iff (getBlock_settles _ _).mapErr]
  simp only [Outcome.mapErr_eq_ok]
  refine forall₂_congr fun block _ => ?_
  rw [Outcome.settles_bind_iff (getChanges_settles _ _).mapErr]
  simp only [Outcome.mapErr_eq_ok]
  refine forall₂_congr fun changes _ => ?_
  constructor
  · intro h
    exact Outcome.settles_mapErr.1 h.of_bind
  · intro h
    refine h.mapErr.bind fun _ _ => ?_
    refine (getSignatures_settles _ _).mapErr.bind fun _ _ => ?_
    exact (getTransactions_settles _ _ _).mapErr.bind fun _ _ => Outcome.settles_ok _

/-- The one panic that is alive: `extractRecords` returns exactly when no event that it gets to,
with a key and a Move type of a known kind, has data that is not JSON. -/
theorem extractRecords_settles_iff (crates : Crates) (value : Input.Transaction) :
    (extractRecords crates value).Settles ↔
      ∀ event, ReachesEvent crates value event →
        EventExtraction.Malformed event ∨ crates.isJson event.data = true := by
  rw [extractRecords_settles_iff_getEvents]
  constructor
  · rintro h event ⟨tx, done, rest, htx, hevents, hdone, ⟨block, hblock⟩, changes, hchanges⟩
    -- the columns that the events need too were built for the changes
    obtain ⟨htimestamp, number, hnumber⟩ := exists_columns_of_getChanges hchanges
    have hsettles := h tx htx block hblock changes hchanges
    refine (getEvents_settles_iff crates tx).1 hsettles event ⟨htimestamp, done, rest, hevents, ?_⟩
    exact fun prior hprior => ⟨hdone prior hprior, number, hnumber⟩
  · intro h tx htx block hblock changes hchanges
    refine (getEvents_settles_iff crates tx).2 fun event hreaches => ?_
    obtain ⟨done, rest, hevents, hdone⟩ := hreaches.exists_split
    have hbuilds : ∀ prior ∈ done, EventBuilds crates prior :=
      fun prior hprior => (hdone prior hprior).1
    exact h event ⟨tx, done, rest, htx, hevents, hbuilds, ⟨block, hblock⟩, changes, hchanges⟩

/-- A validator transaction whose event has no data. -/
def sampleValidator : Input.Transaction where
  timestamp := some ⟨0, 0⟩
  version := 0
  info := some {
    hash := []
    state_change_hash := []
    event_root_hash := []
    state_checkpoint_hash := none
    gas_used := 0
    success := true
    vm_status := ""
    accumulator_root_hash := []
    changes := [] }
  epoch := 0
  block_height := 0
  type := .known .Validator
  txn_data := some (.Validator ⟨[sampleEvent ""]⟩)

/-- An event with empty data takes the worker down. -/
theorem extractRecords_panics_sampleValidator :
    ¬ ∀ crates value, (extractRecords crates value).Settles := by
  intro h
  exact h sampleCrates sampleValidator
    "Issue with JsonObjectString: Failed to create JsonStringObject: ``" (by rfl)

end AptosEtl.Tables
