import AptosEtl.Lib.Batches
import AptosEtl.Tables.All

/-!
# Extracting a range

`extract_range` of `aptos_config/mod.rs` and `pull_from_stream` of `grpc/stream.rs`. The worker
pulls responses from a stream, appends the rows of each transaction to eight accumulators with
their timestamps, and publishes all of them at the end. The stream is a list of what each pull
returns, and the end of the list is its exhaustion.

The loop is split into what it reads and what it does with it. `scan` says which transactions it
reads and how its reading ends, and `pullLoop_eq` that the loop is then a fold of
`pushTransaction` over these transactions. What one transaction appends (`pushTransaction_spec`)
gives by induction what a run appends, in every table, so that the published rows are those of
the transactions that were read (`extractRange_eq_ok`).
-/

namespace AptosEtl.Worker

open Rust Input Reps Tables

/-! ## Errors -/

/-- `tonic::Status`. -/
structure Status where
  code : ℕ
  message : String
  deriving DecidableEq, Repr

/-- The `StreamCreationError` of `get_stream`. -/
inductive StreamCreationError where
  | BadResponse
  deriving DecidableEq, Repr

/-- The `ExtractError` of `extract_range`. -/
inductive ExtractError where
  | StreamCreationError (error : StreamCreationError)
  | StreamErrorStatus (status : Status)
  | TxExtraction (error : TxExtractionError)
  | TxRecord (error : TxError)
  | SignatureRecord (error : SigProcessError)
  | EventRecord (error : EventError)
  | ChangeRecord (error : ChangeError)
  | BlockRecord (error : BlockError)

/-- `ExtractionInteruptionError`. -/
structure ExtractionInteruptionError where
  extracterror : ExtractError
  start_version : UInt64
  end_version : UInt64
  failed_on : UInt64

/-! ## The accumulators -/

/-- The vectors that the loop of `extract_range` fills. -/
structure Accumulators where
  all_tx_records : List Rows.Transaction
  all_block_records : List Rows.Block
  all_change_records : List Rows.Change
  all_signature_records : List Rows.Signature
  all_event_records : List Rows.Event
  all_table_item_records : List Rows.TableItem
  all_module_records : List Rows.Module
  all_resource_records : List Rows.Resource
  all_tx_timestamps : List Rows.UnixTimestamp
  all_block_timestamps : List Rows.UnixTimestamp
  all_change_timestamps : List Rows.UnixTimestamp
  all_signature_timestamps : List Rows.UnixTimestamp
  all_event_timestamps : List Rows.UnixTimestamp
  all_table_item_timestamps : List Rows.UnixTimestamp
  all_module_timestamps : List Rows.UnixTimestamp
  all_resource_timestamps : List Rows.UnixTimestamp

namespace Accumulators

/-- The vectors before the loop. -/
def new : Accumulators := ⟨[], [], [], [], [], [], [], [], [], [], [], [], [], [], [], []⟩

/-- The accumulated rows of a table. -/
def records (acc : Accumulators) : (table : Table) → List table.Row
  | .Transactions => acc.all_tx_records
  | .Changes => acc.all_change_records
  | .Modules => acc.all_module_records
  | .TableItems => acc.all_table_item_records
  | .Resources => acc.all_resource_records
  | .Blocks => acc.all_block_records
  | .Events => acc.all_event_records
  | .Signatures => acc.all_signature_records

/-- The accumulated timestamps of a table. -/
def timestamps (acc : Accumulators) : Table → List Rows.UnixTimestamp
  | .Transactions => acc.all_tx_timestamps
  | .Changes => acc.all_change_timestamps
  | .Modules => acc.all_module_timestamps
  | .TableItems => acc.all_table_item_timestamps
  | .Resources => acc.all_resource_timestamps
  | .Blocks => acc.all_block_timestamps
  | .Events => acc.all_event_timestamps
  | .Signatures => acc.all_signature_timestamps

end Accumulators

/-! ## One transaction -/

section PushTransaction

variable (crates : Crates) (options : TableOptions) (tx : TransactionExtraction)

/-- The vectors with the signature rows of a transaction. -/
def appendSignatures (signatures : Option (List Rows.Signature)) (acc : Accumulators) :
    Accumulators :=
  { acc with
    all_signature_timestamps := acc.all_signature_timestamps ++
      (signatures.getD []).map Rows.Signature.block_unixtimestamp
    all_signature_records := acc.all_signature_records ++ signatures.getD [] }

/-- The signature stage of the loop, which also counts the signatures for the transaction row. -/
def pushSignatures (acc : Accumulators) : Outcome ExtractError (Option ℕ × Accumulators) :=
  if options.doSignatures || options.doTransactions then
    (getSignatures crates tx).mapErr .SignatureRecord |>.bind fun signatures =>
      .ok (signatures.map List.length,
        if options.doSignatures then appendSignatures signatures acc else acc)
  else
    .ok (none, acc)

/-- The vectors with the block row of a transaction, if it has one. -/
def appendBlock (block : Option Rows.Block) (acc : Accumulators) : Accumulators :=
  match block with
  | some contents =>
    { acc with
      all_block_timestamps := acc.all_block_timestamps ++ [contents.block_unixtimestamp]
      all_block_records := acc.all_block_records ++ [contents] }
  | none => acc

/-- The block stage of the loop. -/
def pushBlock (acc : Accumulators) : Outcome ExtractError Accumulators :=
  if options.doBlocks then
    (getBlock crates tx).mapErr .BlockRecord |>.bind fun block => .ok (appendBlock block acc)
  else
    .ok acc

/-- The transaction stage of the loop. -/
def pushTxRecord (sigCnt : Option ℕ) (acc : Accumulators) : Outcome ExtractError Accumulators :=
  if options.doTransactions then
    (getTransactions crates tx sigCnt).mapErr .TxRecord |>.bind fun txRec =>
      .ok { acc with
        all_tx_timestamps := acc.all_tx_timestamps ++ [txRec.block_unixtimestamp]
        all_tx_records := acc.all_tx_records ++ [txRec] }
  else
    .ok acc

/-- The event stage of the loop. -/
def pushEvents (acc : Accumulators) : Outcome ExtractError Accumulators :=
  if options.doEvents then
    (getEvents crates tx).mapErr .EventRecord |>.bind fun events =>
      .ok { acc with
        all_event_timestamps := acc.all_event_timestamps ++
          (events.getD []).map Rows.Event.block_unixtimestamp
        all_event_records := acc.all_event_records ++ events.getD [] }
  else
    .ok acc

/-- The change rows that the options select. -/
def pushChangeRecords (records : ChangeRecords) (acc : Accumulators) : Accumulators :=
  let acc := if options.doChanges then
      { acc with
        all_change_timestamps := acc.all_change_timestamps ++
          records.changes.map Rows.Change.block_unixtimestamp
        all_change_records := acc.all_change_records ++ records.changes }
    else acc
  let acc := if options.doResources then
      { acc with
        all_resource_timestamps := acc.all_resource_timestamps ++
          records.resources.map Rows.Resource.block_unixtimestamp
        all_resource_records := acc.all_resource_records ++ records.resources }
    else acc
  let acc := if options.doModules then
      { acc with
        all_module_timestamps := acc.all_module_timestamps ++
          records.modules.map Rows.Module.block_unixtimestamp
        all_module_records := acc.all_module_records ++ records.modules }
    else acc
  if options.doTableItems then
    { acc with
      all_table_item_timestamps := acc.all_table_item_timestamps ++
        records.tableitems.map Rows.TableItem.block_unixtimestamp
      all_table_item_records := acc.all_table_item_records ++ records.tableitems }
  else acc

/-- The change stage of the loop. -/
def pushChanges (acc : Accumulators) : Outcome ExtractError Accumulators :=
  if options.doChangesOrSubchanges then
    (getChanges crates tx).mapErr .ChangeRecord |>.bind fun changeRecords =>
      .ok (pushChangeRecords options changeRecords acc)
  else
    .ok acc

/-- The body of the loop of `extract_range` over the transactions of a response. -/
def pushTransaction (acc : Accumulators) (tx : Input.Transaction) :
    Outcome ExtractError Accumulators :=
  (TransactionExtraction.tryFrom tx).mapErr .TxExtraction |>.bind fun txExtract =>
    (pushSignatures crates options txExtract acc).bind fun (sigCnt, acc) =>
      (pushBlock crates options txExtract acc).bind fun acc =>
        (pushTxRecord crates options txExtract sigCnt acc).bind fun acc =>
          (pushEvents crates options txExtract acc).bind fun acc =>
            pushChanges crates options txExtract acc

end PushTransaction

/-! ## The loop -/

/-- The state of the loop: `cur_version` and the vectors. -/
structure LoopState where
  cur_version : UInt64
  acc : Accumulators

section Loop

variable (crates : Crates) (options : TableOptions) (start «end» : UInt64)

/-- The step of the loop for one transaction, which becomes the current one before it can fail. -/
def step (s : LoopState) (tx : Input.Transaction) :
    Outcome ExtractionInteruptionError LoopState :=
  let curVersion := tx.version
  (pushTransaction crates options s.acc tx).mapErr (⟨·, start, «end», curVersion⟩) |>.bind
    fun acc =>
    .ok ⟨curVersion, acc⟩

/-- The inner loop, over the transactions of a response. -/
def processResponse : List Input.Transaction → LoopState →
    Outcome ExtractionInteruptionError LoopState
  | [], s => .ok s
  | tx :: txs, s =>
    (step crates options start «end» s tx).bind fun s =>
      -- the rest of a response is dropped once the end of the range is there
      if s.cur_version = «end» then .ok s else processResponse txs s

/-- The outer loop, over the pulls from the stream: nothing when the stream is exhausted, which
returns from `extract_range` at once. -/
def pullLoop : List (Except Status (List Input.Transaction)) → LoopState →
    Outcome ExtractionInteruptionError (Option LoopState)
  | [], _ => .ok none
  | .error status :: _, s => .err ⟨.StreamErrorStatus status, start, «end», s.cur_version⟩
  | .ok transactions :: rest, s =>
    (processResponse crates options start «end» transactions s).bind fun s =>
      -- only the last version is compared: one beyond the end does not stop the loop
      if s.cur_version = «end» then .ok (some s) else pullLoop rest s

end Loop

/-! ## Publishing -/

/-- A call of `publish_records`: the publisher of a table, the rows, the name of the batch and the
timestamps. -/
structure PublishCall where
  table : Table
  records : List table.Row
  name : Option String
  timestamps : List Rows.UnixTimestamp

/-- A call that an option guards. -/
def publishIf (enabled : Bool) (call : PublishCall) : List PublishCall :=
  if enabled then [call] else []

/-- The calls of `publish_records` after the loop. -/
def publishAll (options : TableOptions) (acc : Accumulators) (name : String) : List PublishCall :=
  publishIf options.doTransactions
    ⟨.Transactions, acc.all_tx_records, some name, acc.all_tx_timestamps⟩ ++
  publishIf options.doChanges
    ⟨.Changes, acc.all_change_records, some name, acc.all_change_timestamps⟩ ++
  publishIf options.doModules
    ⟨.Modules, acc.all_module_records, some name, acc.all_module_timestamps⟩ ++
  publishIf options.doTableItems
    ⟨.TableItems, acc.all_table_item_records, some name, acc.all_table_item_timestamps⟩ ++
  publishIf options.doResources
    ⟨.Resources, acc.all_resource_records, some name, acc.all_resource_timestamps⟩ ++
  publishIf options.doBlocks
    ⟨.Blocks, acc.all_block_records, some name, acc.all_block_timestamps⟩ ++
  publishIf options.doEvents
    ⟨.Events, acc.all_event_records, some name, acc.all_event_timestamps⟩ ++
  publishIf options.doSignatures
    ⟨.Signatures, acc.all_signature_records, some name, acc.all_signature_timestamps⟩

/-- The name of a range's batches. -/
def rangeName (start «end» : UInt64) : String := toString start ++ "_" ++ toString «end»

/-- The result of `get_stream`: what each pull from the stream returns until it is exhausted. -/
abbrev Stream := Except StreamCreationError (List (Except Status (List Input.Transaction)))

/-- `extract_range`, with the calls of `publish_records` that it makes. The length of the range is
computed for the capacities and overflows when the range is reversed. Left out are the preparation
of the publisher and the reservations of the vectors, which `extractRangeOn` adds. -/
def extractRange (crates : Crates) (start «end» : UInt64) (tableOptions : Option TableOptions)
    (stream : Stream) : Outcome ExtractionInteruptionError (List PublishCall) :=
  let options := tableOptions.getD .newAll
  match stream with
  | .error error => .err ⟨.StreamCreationError error, start, «end», start⟩
  | .ok responses =>
    if «end» < start then
      .panic "attempt to subtract with overflow"
    else
      (pullLoop crates options start «end» responses ⟨start, .new⟩).bind fun
        -- the stream ran out: the worker returns without an error and publishes nothing
        | none => .ok []
        | some s => .ok (publishAll options s.acc (rangeName start «end»))

/-! ## What one transaction appends -/

/-- The accumulators grow by rows and their timestamps. -/
def Appends (acc acc' : Accumulators) (rows : (table : Table) → List table.Row) : Prop :=
  ∀ table, acc'.records table = acc.records table ++ rows table ∧
    acc'.timestamps table = acc.timestamps table ++ (rows table).map table.unixTimestamp

/-- Growing twice is growing by the rows of both. -/
theorem Appends.trans {acc acc' acc'' : Accumulators}
    {rows rows' : (table : Table) → List table.Row}
    (h : Appends acc acc' rows) (h' : Appends acc' acc'' rows') :
    Appends acc acc'' fun table => rows table ++ rows' table := by
  intro table
  obtain ⟨hr, ht⟩ := h table
  obtain ⟨hr', ht'⟩ := h' table
  exact ⟨by rw [hr', hr, List.append_assoc], by rw [ht', ht, List.map_append, List.append_assoc]⟩

/-- The rows of a transaction in the enabled tables. -/
def enabledRows (crates : Crates) (options : TableOptions) (tx : Input.Transaction)
    (table : Table) : List table.Row :=
  if options.enables table then rowsOf crates tx table else []

/-- The rows of a converted transaction in the enabled ones of some tables. -/
def stageRows (crates : Crates) (options : TableOptions) (tx : TransactionExtraction)
    (tables : List Table) (table : Table) : List table.Row :=
  if table ∈ tables ∧ options.enables table then rowsOfExtraction crates tx table else []

section Specs

variable {crates : Crates} {options : TableOptions} {tx : TransactionExtraction}
  {acc acc' : Accumulators}

/-- A stage that is not enabled appends nothing. -/
theorem appends_nil {tables : List Table} (h : ∀ table ∈ tables, options.enables table = false) :
    Appends acc acc (stageRows crates options tx tables) := by
  intro table
  have hnone : stageRows crates options tx tables table = [] :=
    if_neg fun ⟨hmem, henabled⟩ => by simp [h table hmem] at henabled
  simp [hnone]

/-- The signature stage appends the signature rows, and knows their count for the transaction
stage. -/
theorem pushSignatures_spec {sigCnt : Option ℕ}
    (h : pushSignatures crates options tx acc = .ok (sigCnt, acc')) :
    Appends acc acc' (stageRows crates options tx [.Signatures]) ∧
      (options.doTransactions = true →
        ∃ sigs, getSignatures crates tx = .ok sigs ∧ sigCnt = sigs.map List.length) := by
  unfold pushSignatures at h
  by_cases hdo : (options.doSignatures || options.doTransactions) = true
  · rw [if_pos hdo] at h
    obtain ⟨sigs, hsigs, h⟩ := Outcome.bind_eq_ok.1 h
    rw [Outcome.mapErr_eq_ok] at hsigs
    obtain ⟨rfl, rfl⟩ := Prod.mk.inj (Outcome.ok.inj h)
    refine ⟨?_, fun _ => ⟨sigs, hsigs, rfl⟩⟩
    by_cases hsig : options.doSignatures = true
    · rw [if_pos hsig]
      intro table
      cases table <;> simp [stageRows, TableOptions.enables, hsig, rowsOfExtraction, hsigs,
        appendSignatures, Accumulators.records, Accumulators.timestamps, Table.unixTimestamp]
    · rw [if_neg hsig]
      exact appends_nil (by simpa [TableOptions.enables] using hsig)
  · rw [if_neg hdo] at h
    obtain ⟨rfl, rfl⟩ := Prod.mk.inj (Outcome.ok.inj h)
    simp only [Bool.or_eq_true, not_or, Bool.not_eq_true] at hdo
    exact ⟨appends_nil (by simpa [TableOptions.enables] using hdo.1),
      fun htx => absurd htx (by simp [hdo.2])⟩

/-- The block stage appends the block row. -/
theorem pushBlock_spec (h : pushBlock crates options tx acc = .ok acc') :
    Appends acc acc' (stageRows crates options tx [.Blocks]) := by
  unfold pushBlock at h
  by_cases hdo : options.doBlocks = true
  · rw [if_pos hdo] at h
    obtain ⟨block, hblock, h⟩ := Outcome.bind_eq_ok.1 h
    rw [Outcome.mapErr_eq_ok] at hblock
    obtain rfl := Outcome.ok.inj h
    intro table
    cases block <;> cases table <;> simp [stageRows, TableOptions.enables, hdo, rowsOfExtraction,
      hblock, appendBlock, Accumulators.records, Accumulators.timestamps, Table.unixTimestamp]
  · rw [if_neg hdo] at h
    obtain rfl := Outcome.ok.inj h
    exact appends_nil (by simpa [TableOptions.enables] using hdo)

/-- The transaction stage appends the transaction row, given the count of the signature stage. -/
theorem pushTxRecord_spec {sigCnt : Option ℕ}
    (h : pushTxRecord crates options tx sigCnt acc = .ok acc')
    (hcnt : options.doTransactions = true →
      ∃ sigs, getSignatures crates tx = .ok sigs ∧ sigCnt = sigs.map List.length) :
    Appends acc acc' (stageRows crates options tx [.Transactions]) := by
  unfold pushTxRecord at h
  by_cases hdo : options.doTransactions = true
  · rw [if_pos hdo] at h
    obtain ⟨sigs, hsigs, rfl⟩ := hcnt hdo
    obtain ⟨row, hrow, h⟩ := Outcome.bind_eq_ok.1 h
    rw [Outcome.mapErr_eq_ok] at hrow
    obtain rfl := Outcome.ok.inj h
    intro table
    cases table <;> simp [stageRows, TableOptions.enables, hdo, rowsOfExtraction, hsigs, hrow,
      Accumulators.records, Accumulators.timestamps, Table.unixTimestamp]
  · rw [if_neg hdo] at h
    obtain rfl := Outcome.ok.inj h
    exact appends_nil (by simpa [TableOptions.enables] using hdo)

/-- The event stage appends the event rows. -/
theorem pushEvents_spec (h : pushEvents crates options tx acc = .ok acc') :
    Appends acc acc' (stageRows crates options tx [.Events]) := by
  unfold pushEvents at h
  by_cases hdo : options.doEvents = true
  · rw [if_pos hdo] at h
    obtain ⟨events, hevents, h⟩ := Outcome.bind_eq_ok.1 h
    rw [Outcome.mapErr_eq_ok] at hevents
    obtain rfl := Outcome.ok.inj h
    intro table
    cases table <;> simp [stageRows, TableOptions.enables, hdo, rowsOfExtraction, hevents,
      Accumulators.records, Accumulators.timestamps, Table.unixTimestamp]
  · rw [if_neg hdo] at h
    obtain rfl := Outcome.ok.inj h
    exact appends_nil (by simpa [TableOptions.enables] using hdo)

/-- The change stage appends the rows of four tables. -/
theorem pushChanges_spec (h : pushChanges crates options tx acc = .ok acc') :
    Appends acc acc'
      (stageRows crates options tx [.Changes, .Resources, .Modules, .TableItems]) := by
  unfold pushChanges at h
  by_cases hdo : options.doChangesOrSubchanges = true
  · rw [if_pos hdo] at h
    obtain ⟨records, hrecords, h⟩ := Outcome.bind_eq_ok.1 h
    rw [Outcome.mapErr_eq_ok] at hrecords
    obtain rfl := Outcome.ok.inj h
    intro table
    unfold pushChangeRecords
    -- four independent options, and the rows of each table depend on its own
    cases hc : options.doChanges <;> cases hr : options.doResources <;>
      cases hm : options.doModules <;> cases ht : options.doTableItems <;> cases table <;>
      simp [stageRows, TableOptions.enables, hc, hr, hm, ht, rowsOfExtraction, hrecords,
        Accumulators.records, Accumulators.timestamps, Table.unixTimestamp]
  · rw [if_neg hdo] at h
    obtain rfl := Outcome.ok.inj h
    simp only [TableOptions.doChangesOrSubchanges, Bool.or_eq_true, not_or,
      Bool.not_eq_true] at hdo
    exact appends_nil (by simp [TableOptions.enables, hdo])

/-- A transaction appends its rows in the enabled tables. -/
theorem pushTransaction_spec {tx : Input.Transaction}
    (h : pushTransaction crates options acc tx = .ok acc') :
    Appends acc acc' (enabledRows crates options tx) := by
  obtain ⟨txExtract, htx, h⟩ := Outcome.bind_eq_ok.1 h
  obtain ⟨⟨sigCnt, acc₁⟩, hsigs, h⟩ := Outcome.bind_eq_ok.1 h
  obtain ⟨acc₂, hblock, h⟩ := Outcome.bind_eq_ok.1 h
  obtain ⟨acc₃, hrow, h⟩ := Outcome.bind_eq_ok.1 h
  obtain ⟨acc₄, hevents, hchanges⟩ := Outcome.bind_eq_ok.1 h
  rw [Outcome.mapErr_eq_ok] at htx
  obtain ⟨hsigs, hcnt⟩ := pushSignatures_spec hsigs
  have hall := (((hsigs.trans (pushBlock_spec hblock)).trans (pushTxRecord_spec hrow hcnt)).trans
    (pushEvents_spec hevents)).trans (pushChanges_spec hchanges)
  -- the five stages are for disjoint tables that are all of them together
  convert hall using 1
  funext table
  cases table <;> simp [enabledRows, stageRows, rowsOf, htx]

end Specs

/-- Every builder that the options ask for returns a value on the transaction. -/
structure Builds (crates : Crates) (options : TableOptions) (tx : TransactionExtraction) :
    Prop where
  signatures : options.doSignatures = true ∨ options.doTransactions = true →
    ∃ sigs, getSignatures crates tx = .ok sigs
  block : options.doBlocks = true → ∃ block, getBlock crates tx = .ok block
  row : options.doTransactions = true → ∀ sigs, getSignatures crates tx = .ok sigs →
    ∃ row, getTransactions crates tx (sigs.map List.length) = .ok row
  events : options.doEvents = true → ∃ events, getEvents crates tx = .ok events
  changes : options.doChangesOrSubchanges = true → ∃ changes, getChanges crates tx = .ok changes

/-- The transaction converts, and every builder that the options ask for returns a value. -/
def Transforms (crates : Crates) (options : TableOptions) (tx : Input.Transaction) : Prop :=
  ∃ txExtract, TransactionExtraction.tryFrom tx = .ok txExtract ∧ Builds crates options txExtract

/-- A stage that asks for a value only when it is enabled returns when the value is there. -/
theorem stage_eq_ok_iff {ε α β : Type} {enabled : Bool} {x : Outcome ε α} {g : ε → ExtractError}
    {f : α → β} {b : β} :
    (∃ c, (if enabled then (x.mapErr g).bind fun a => .ok (f a) else .ok b) = Outcome.ok c) ↔
      (enabled = true → ∃ a, x = .ok a) := by
  cases enabled <;> simp

/-- Every builder before the events that the options ask for returns a value on the transaction. -/
structure BuildsRows (crates : Crates) (options : TableOptions) (tx : TransactionExtraction) :
    Prop where
  signatures : options.doSignatures = true ∨ options.doTransactions = true →
    ∃ sigs, getSignatures crates tx = .ok sigs
  block : options.doBlocks = true → ∃ block, getBlock crates tx = .ok block
  row : options.doTransactions = true → ∀ sigs, getSignatures crates tx = .ok sigs →
    ∃ row, getTransactions crates tx (sigs.map List.length) = .ok row

/-- The stages before the events return exactly when their builders do, whatever has been
accumulated. -/
theorem exists_pushRows_iff {crates : Crates} {options : TableOptions} (acc : Accumulators)
    {tx : TransactionExtraction} :
    (∃ sigCnt acc₁ acc₂ acc₃, pushSignatures crates options tx acc = .ok (sigCnt, acc₁) ∧
      pushBlock crates options tx acc₁ = .ok acc₂ ∧
        pushTxRecord crates options tx sigCnt acc₂ = .ok acc₃) ↔ BuildsRows crates options tx := by
  constructor
  · rintro ⟨sigCnt, acc₁, acc₂, acc₃, hsigs, hblock, hrow⟩
    -- the count that the transaction stage gets is that of the signature stage
    have hcnt := (pushSignatures_spec hsigs).2
    constructor
    case signatures => exact fun hdo => stage_eq_ok_iff.1 ⟨_, hsigs⟩ (by simpa using hdo)
    case block => exact stage_eq_ok_iff.1 ⟨_, hblock⟩
    case row =>
      intro hdo sigs hget
      obtain ⟨sigs', hget', rfl⟩ := hcnt hdo
      obtain rfl := Outcome.ok.inj (hget.symm.trans hget')
      exact stage_eq_ok_iff.1 ⟨_, hrow⟩ hdo
  · intro hbuilds
    obtain ⟨⟨sigCnt, acc₁⟩, hsigs⟩ : ∃ r, pushSignatures crates options tx acc = .ok r :=
      stage_eq_ok_iff.2 fun hdo => hbuilds.signatures (by simpa using hdo)
    obtain ⟨acc₂, hblock⟩ : ∃ r, pushBlock crates options tx acc₁ = .ok r :=
      stage_eq_ok_iff.2 hbuilds.block
    obtain ⟨acc₃, hrow⟩ : ∃ r, pushTxRecord crates options tx sigCnt acc₂ = .ok r :=
      stage_eq_ok_iff.2 fun hdo => by
        obtain ⟨sigs, hget, rfl⟩ := (pushSignatures_spec hsigs).2 hdo
        exact hbuilds.row hdo sigs hget
    exact ⟨sigCnt, acc₁, acc₂, acc₃, hsigs, hblock, hrow⟩

/-- The step for a transaction returns exactly when the transaction transforms, whatever has been
accumulated. -/
theorem pushTransaction_eq_ok_iff {crates : Crates} {options : TableOptions} (acc : Accumulators)
    {tx : Input.Transaction} :
    (∃ acc', pushTransaction crates options acc tx = .ok acc') ↔ Transforms crates options tx := by
  constructor
  · rintro ⟨acc', h⟩
    obtain ⟨txExtract, htx, h⟩ := Outcome.bind_eq_ok.1 h
    obtain ⟨⟨sigCnt, acc₁⟩, hsigs, h⟩ := Outcome.bind_eq_ok.1 h
    obtain ⟨acc₂, hblock, h⟩ := Outcome.bind_eq_ok.1 h
    obtain ⟨acc₃, hrow, h⟩ := Outcome.bind_eq_ok.1 h
    obtain ⟨acc₄, hevents, hchanges⟩ := Outcome.bind_eq_ok.1 h
    have hrows : BuildsRows crates options txExtract :=
      (exists_pushRows_iff acc).1 ⟨sigCnt, acc₁, acc₂, acc₃, hsigs, hblock, hrow⟩
    refine ⟨txExtract, Outcome.mapErr_eq_ok.1 htx, ?_⟩
    constructor
    case signatures => exact hrows.signatures
    case block => exact hrows.block
    case row => exact hrows.row
    case events => exact stage_eq_ok_iff.1 ⟨_, hevents⟩
    case changes => exact stage_eq_ok_iff.1 ⟨_, hchanges⟩
  · rintro ⟨txExtract, htx, hbuilds⟩
    have hrows : BuildsRows crates options txExtract :=
      ⟨hbuilds.signatures, hbuilds.block, hbuilds.row⟩
    obtain ⟨sigCnt, acc₁, acc₂, acc₃, hsigs, hblock, hrow⟩ := (exists_pushRows_iff acc).2 hrows
    obtain ⟨acc₄, hevents⟩ : ∃ r, pushEvents crates options txExtract acc₃ = .ok r :=
      stage_eq_ok_iff.2 hbuilds.events
    obtain ⟨acc₅, hchanges⟩ : ∃ r, pushChanges crates options txExtract acc₄ = .ok r :=
      stage_eq_ok_iff.2 hbuilds.changes
    exact ⟨acc₅, by simp only [pushTransaction, htx, hsigs, hblock, hrow, hevents, hchanges,
      Outcome.mapErr_ok, Outcome.ok_bind]⟩

/-- A transaction whose records can all be extracted transforms under every options. -/
theorem transforms_of_extractRecords {crates : Crates} {tx : Input.Transaction}
    {records : Rows.Records} (h : extractRecords crates tx = .ok records) (options : TableOptions) :
    Transforms crates options tx := by
  obtain ⟨txExtract, block, changes, events, sigs, row, hstages, -⟩ := extractRecords_eq_ok.1 h
  refine ⟨txExtract, hstages.extraction, ?_⟩
  constructor
  case signatures => exact fun _ => ⟨sigs, hstages.signatures⟩
  case block => exact fun _ => ⟨block, hstages.block⟩
  case row =>
    intro _ sigs' hsigs
    obtain rfl := Outcome.ok.inj (hstages.signatures.symm.trans hsigs)
    exact ⟨row, hstages.row⟩
  case events => exact fun _ => ⟨events, hstages.events⟩
  case changes => exact fun _ => ⟨changes, hstages.changes⟩

/-! ## The loop as a fold over what it reads -/

section LoopSpecs

variable {crates : Crates} {options : TableOptions} {start «end» : UInt64}

/-- A step makes its transaction the current one and appends its rows. -/
theorem step_spec {s s' : LoopState} {tx : Input.Transaction}
    (h : step crates options start «end» s tx = .ok s') :
    s'.cur_version = tx.version ∧ Appends s.acc s'.acc (enabledRows crates options tx) := by
  obtain ⟨acc, hpush, h⟩ := Outcome.bind_eq_ok.1 h
  obtain rfl := Outcome.ok.inj h
  exact ⟨rfl, pushTransaction_spec (Outcome.mapErr_eq_ok.1 hpush)⟩

/-- A run of steps ends at the last transaction, and appends the rows of all of them. -/
theorem steps_spec {s s' : LoopState} {txs : List Input.Transaction}
    (h : Outcome.tryFold (step crates options start «end») s txs = .ok s') :
    s'.cur_version = lastKey Input.Transaction.version txs s.cur_version ∧
      Appends s.acc s'.acc fun table =>
        txs.flatMap fun tx => enabledRows crates options tx table := by
  refine Outcome.tryFold_induct
    (P := fun done t => t.cur_version = lastKey Input.Transaction.version done s.cur_version ∧
      Appends s.acc t.acc fun table => done.flatMap fun tx => enabledRows crates options tx table)
    h ⟨rfl, fun table => by simp⟩ ?_
  rintro done tx t t' ⟨-, hacc⟩ hstep
  obtain ⟨hversion, hstep⟩ := step_spec hstep
  refine ⟨by rw [lastKey_concat, hversion], ?_⟩
  simpa using hacc.trans hstep

/-- A run of steps returns exactly when every transaction transforms. -/
theorem steps_eq_ok_iff (start «end» : UInt64) (s : LoopState) {txs : List Input.Transaction} :
    (∃ s', Outcome.tryFold (step crates options start «end») s txs = .ok s') ↔
      ∀ tx ∈ txs, Transforms crates options tx := by
  induction txs generalizing s with
  | nil => simp [Outcome.tryFold]
  | cons tx txs ih =>
    have hstep : (∃ t, step crates options start «end» s tx = .ok t) ↔
        Transforms crates options tx := by
      rw [← pushTransaction_eq_ok_iff s.acc]
      simp [step]
    rw [List.forall_mem_cons, ← hstep]
    simp only [Outcome.tryFold, Outcome.bind_eq_ok]
    constructor
    · rintro ⟨s', t, ht, hrest⟩
      exact ⟨⟨t, ht⟩, (ih t).1 ⟨s', hrest⟩⟩
    · rintro ⟨⟨t, ht⟩, hrest⟩
      obtain ⟨s', hs'⟩ := (ih t).2 hrest
      exact ⟨s', t, ht, hs'⟩

/-- The inner loop takes the steps of the transactions through the end of the range. -/
theorem processResponse_eq (txs : List Input.Transaction) (s : LoopState) :
    processResponse crates options start «end» txs s =
      Outcome.tryFold (step crates options start «end») s
        (takeThrough (fun tx => tx.version = «end») txs) := by
  induction txs generalizing s with
  | nil => rfl
  | cons tx txs ih =>
    rw [processResponse, takeThrough]
    cases hstep : step crates options start «end» s tx with
    | ok t =>
      have hversion := (step_spec hstep).1
      by_cases hend : tx.version = «end»
      · simp [hend, hversion, Outcome.tryFold, hstep]
      · simp [hend, hversion, Outcome.tryFold, hstep, ih]
    -- a step that fails ends both, whether or not it was the last one to take
    | err error => split_ifs <;> simp [Outcome.tryFold, hstep]
    | panic message => split_ifs <;> simp [Outcome.tryFold, hstep]

/-- What the outer loop returns at the end of its reading. -/
def conclude (start «end» : UInt64) (ending : Ending Status) (s : LoopState) :
    Outcome ExtractionInteruptionError (Option LoopState) :=
  match ending with
  | .Exhausted => .ok none
  | .Failed status => .err ⟨.StreamErrorStatus status, start, «end», s.cur_version⟩
  | .Reached => .ok (some s)

/-- The outer loop takes the steps of the transactions that are read, and then concludes. -/
theorem pullLoop_eq (responses : List (Except Status (List Input.Transaction))) (s : LoopState) :
    pullLoop crates options start «end» responses s =
      (Outcome.tryFold (step crates options start «end») s
        (scan Input.Transaction.version «end» responses s.cur_version).1).bind
          (conclude start «end»
            (scan Input.Transaction.version «end» responses s.cur_version).2) := by
  induction responses generalizing s with
  | nil => rfl
  | cons response responses ih =>
    cases response with
    | error status => rfl
    | ok transactions =>
      rw [pullLoop, processResponse_eq, scan]
      -- what is taken of this response decides whether the loop goes on
      set taken := takeThrough (fun tx => decide (tx.version = «end»)) transactions
      cases hsteps : Outcome.tryFold (step crates options start «end») s taken with
      | ok t =>
        have hversion := (steps_spec hsteps).1
        by_cases hend : lastKey Input.Transaction.version taken s.cur_version = «end»
        · simp [hend, hversion, hsteps, conclude]
        · simp only [hversion, hend, if_false, Outcome.ok_bind, ih, Outcome.tryFold_append, hsteps]
      | err error => split_ifs <;> simp [hsteps, Outcome.tryFold_append]
      | panic message => split_ifs <;> simp [hsteps, Outcome.tryFold_append]

end LoopSpecs

end AptosEtl.Worker
