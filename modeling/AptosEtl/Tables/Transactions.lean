import AptosEtl.Tables.Changes

/-!
# The transaction table

`tables/transactions.rs`. A transaction has one row, built by one of two functions: the strict one
for a transaction that succeeded, and the lenient one for a transaction that failed, where a
payload or a sender that cannot be encoded is left out. The two also differ in the expiration
timestamps that the formatting refuses, and in the signature count: the strict one checks that a
user transaction has one, the lenient one passes it on.
-/

namespace AptosEtl.Tables

open Rust Input Reps

/-- The errors of `get_transactions`. -/
inductive TxError where
  | Timestamp (error : TimestampError)
  | TxDataExtract (error : TxDataExtractError)
  | TxInfoExtract (error : TxInfoExtractionError)
  | Address (error : AddressError)
  | MissingSender
  | Payload (error : TxPayloadError)
  | TxExtractError (error : TxExtractionError)
  | MissingSigCount (type : TxType)

/-- The columns in which the two builders differ. -/
structure TxRowColumns where
  payload : Option Rows.Payload
  payload_type : Option String
  max_gas_amount : Option UInt64
  sender : Option String
  expiration_timestamp : Option String
  gas_unit_price : Option UInt64
  expiration_unixtimestamp : Option Rows.UnixTimestamp
  num_signatures : Option ℕ

/-- The `num_events` column. -/
def numEvents (tx : TransactionExtraction) : Option ℕ := tx.tx_data.events.map List.length

/-- The row of a transaction, from the columns that the two builders share and those in which they
differ. -/
def transactionRow (crates : Crates) (tx : TransactionExtraction) (timestamp : String)
    (txType : TxType) (number : Option UInt64) (changes : Rows.ChangesAggregate)
    (columns : TxRowColumns) : Rows.Transaction where
  block_height := tx.blockheight
  block_timestamp := timestamp
  tx_type := txType.asStrName
  tx_version := tx.version
  tx_hash := tx.getEncodedHash crates
  state_change_hash := tx.tx_info.state_change_hash.encode crates
  event_root_hash := tx.tx_info.event_root_hash.encode crates
  state_checkpoint_hash := tx.tx_info.state_checkpoint_hash.map (HashValue.encode crates)
  gas_used := tx.tx_info.gas_used
  success := tx.tx_info.success
  vm_status := some tx.tx_info.vm_status
  accumulator_root_hash := some (tx.tx_info.accumulator_root_hash.encode crates)
  sequence_number := (sequenceNumberColumns number).1
  sequence_number_big := (sequenceNumberColumns number).2
  max_gas_amount := columns.max_gas_amount
  sender := columns.sender
  num_events := numEvents tx
  num_changes := changes
  expiration_timestamp := columns.expiration_timestamp
  payload := columns.payload
  gas_unit_price := columns.gas_unit_price
  payload_type := columns.payload_type
  block_unixtimestamp := tx.getUnixTimestamp
  expiration_unixtimestamp := columns.expiration_unixtimestamp
  num_signatures := columns.num_signatures

/-! ## The strict builder -/

section Strict

variable (crates : Crates) (tx : TransactionExtraction)

/-- The payload columns of `get_successful_transaction`. -/
def payloadColumns : Outcome TxError (Option Rows.Payload × Option String) :=
  tx.tx_data.payload.mapErr .TxDataExtract |>.bind fun
    | none => .ok (none, none)
    | some extract =>
      (extract.tryEncode crates).mapErr .Payload |>.bind fun payload =>
        extract.encodePayloadType.mapErr .Payload |>.bind fun payloadType =>
          .ok (some payload, some payloadType)

/-- The `sender` column of `get_successful_transaction`. -/
def senderColumn : Outcome TxError (Option String) :=
  tx.tx_data.sender.mapErr .TxDataExtract |>.bind fun
    | some addr => (addr.tryEncode crates).mapErr .Address |>.bind fun encoded => .ok (some encoded)
    | none => if tx.isUsertx then .err .MissingSender else .ok none

/-- The `expiration_timestamp` column, with what stands for a timestamp out of range. -/
def expirationColumn (outOfRange : Option String) : Outcome TxError (Option String) :=
  tx.tx_data.expirationTimestampSecs.mapErr .TxDataExtract |>.bind fun
    | none => .ok none
    | some timestamp =>
      match timestamp.tryEncode crates with
      | .ok string => .ok (some string)
      -- a user may ask for any expiration, so a date that cannot be written is no error
      | .err (.OutOfRangeUtc _ _) => .ok outOfRange
      | .err (.OutOfRangeBigQuery _ _) => .ok outOfRange
      | .err error => .err (.Timestamp error)
      | .panic message => .panic message

/-- The `expiration_unixtimestamp` column of `get_successful_transaction`. -/
def expirationUnixColumn : Outcome TxError (Option Rows.UnixTimestamp) :=
  tx.tx_data.expirationTimestampSecs.mapErr .TxDataExtract |>.bind fun timestamp =>
    .ok (timestamp.map Timestamp.encode)

/-- The `num_signatures` column of `get_successful_transaction`: only for user transactions, and
there it must be known. -/
def numSignaturesColumn (sigCnt : Option ℕ) : Outcome TxError (Option ℕ) :=
  match sigCnt, tx.getTxtype with
  | some sigVal, .ok .User => .ok (some sigVal)
  | none, .ok .User => .err (.MissingSigCount .User)
  -- the type is asked for again here, and a count of another type is dropped
  | _, .err error => .err (.TxExtractError error)
  | _, .panic message => .panic message
  | _, _ => .ok none

/-- `get_successful_transaction`. -/
def getSuccessfulTransaction (sigCnt : Option ℕ) : Outcome TxError Rows.Transaction :=
  (payloadColumns crates tx).bind fun (payload, payloadType) =>
  tx.tx_data.sequenceNumber.mapErr .TxDataExtract |>.bind fun number =>
  (tx.getEncodedTimestamp crates).mapErr .Timestamp |>.bind fun timestamp =>
  tx.getTxtype.mapErr .TxExtractError |>.bind fun txType =>
  tx.tx_data.maxGasAmount.mapErr .TxDataExtract |>.bind fun maxGasAmount =>
  (senderColumn crates tx).bind fun sender =>
  tx.tx_info.calculateChangesAggregate.mapErr .TxInfoExtract |>.bind fun changes =>
  (expirationColumn crates tx none).bind fun expiration =>
  tx.tx_data.gasUnitPrice.mapErr .TxDataExtract |>.bind fun gasUnitPrice =>
  (expirationUnixColumn tx).bind fun expirationUnix =>
  (numSignaturesColumn tx sigCnt).bind fun numSignatures =>
    .ok (transactionRow crates tx timestamp txType number changes {
      payload := payload
      payload_type := payloadType
      max_gas_amount := maxGasAmount
      sender := sender
      expiration_timestamp := expiration
      gas_unit_price := gasUnitPrice
      expiration_unixtimestamp := expirationUnix
      num_signatures := numSignatures })

end Strict

/-! ## The lenient builder -/

section Lenient

variable (crates : Crates) (tx : TransactionExtraction)

/-- The payload columns of `get_failed_transaction`: what cannot be encoded is left out. -/
def lenientPayloadColumns : Outcome TxError (Option Rows.Payload × Option String) :=
  match tx.tx_data.payload with
  | .ok none => .ok (none, none)
  | .ok (some extract) =>
    -- `Result::ok` on both: either column may be left out without the other
    match extract.tryEncode crates, extract.encodePayloadType with
    | .panic message, _ => .panic message
    | _, .panic message => .panic message
    | payload, payloadType => .ok (payload.toOption, payloadType.toOption)
  | .err _ => .ok (none, none)
  | .panic message => .panic message

/-- The value of a column whose error leaves it out. -/
def lenient {ε α : Type} (x : Outcome ε (Option α)) : Outcome TxError (Option α) :=
  match x with
  | .ok a => .ok a
  | .err _ => .ok none
  | .panic message => .panic message

/-- The `sender` column of `get_failed_transaction`. -/
def lenientSenderColumn : Outcome TxError (Option String) :=
  match tx.tx_data.sender with
  | .ok (some addr) => lenient ((addr.tryEncode crates).bind fun encoded => .ok (some encoded))
  -- a user transaction without a sender is an error here too
  | .ok none => if tx.isUsertx then .err .MissingSender else .ok none
  | .err _ => .ok none
  | .panic message => .panic message

/-- `get_failed_transaction`. -/
def getFailedTransaction (sigCnt : Option ℕ) : Outcome TxError Rows.Transaction :=
  (lenientPayloadColumns crates tx).bind fun (payload, payloadType) =>
  -- the columns that are not lenient: the sequence number, the timestamp, the type and the changes
  tx.tx_data.sequenceNumber.mapErr .TxDataExtract |>.bind fun number =>
  (tx.getEncodedTimestamp crates).mapErr .Timestamp |>.bind fun timestamp =>
  tx.getTxtype.mapErr .TxExtractError |>.bind fun txType =>
  (lenient tx.tx_data.maxGasAmount).bind fun maxGasAmount =>
  (lenientSenderColumn crates tx).bind fun sender =>
  tx.tx_info.calculateChangesAggregate.mapErr .TxInfoExtract |>.bind fun changes =>
  (expirationColumn crates tx (some Timestamp.bigquerryMaxTimestampString)).bind fun expiration =>
  (lenient tx.tx_data.gasUnitPrice).bind fun gasUnitPrice =>
  (lenient (tx.tx_data.expirationTimestampSecs.bind fun timestamp =>
    .ok (timestamp.map Timestamp.encode))).bind fun expirationUnix =>
    .ok (transactionRow crates tx timestamp txType number changes {
      payload := payload
      payload_type := payloadType
      max_gas_amount := maxGasAmount
      sender := sender
      expiration_timestamp := expiration
      gas_unit_price := gasUnitPrice
      expiration_unixtimestamp := expirationUnix
      num_signatures := sigCnt })

end Lenient

/-- `get_transactions`. -/
def getTransactions (crates : Crates) (tx : TransactionExtraction) (sigCnt : Option ℕ) :
    Outcome TxError Rows.Transaction :=
  match tx.tx_info.success with
  | true => getSuccessfulTransaction crates tx sigCnt
  | false => getFailedTransaction crates tx sigCnt

/-! ## Inverting the builders -/

/-- What both builders compute alike. -/
structure SharedBy (crates : Crates) (tx : TransactionExtraction) (timestamp : String)
    (txType : TxType) (number : Option UInt64) (changes : Rows.ChangesAggregate) : Prop where
  number : tx.tx_data.sequenceNumber = .ok number
  timestamp : tx.getEncodedTimestamp crates = .ok timestamp
  txType : tx.getTxtype = .ok txType
  changes : tx.tx_info.calculateChangesAggregate = .ok changes

/-- The columns of the strict builder. -/
structure StrictColumns (crates : Crates) (tx : TransactionExtraction) (sigCnt : Option ℕ)
    (columns : TxRowColumns) : Prop where
  payload : payloadColumns crates tx = .ok (columns.payload, columns.payload_type)
  max_gas_amount : tx.tx_data.maxGasAmount = .ok columns.max_gas_amount
  sender : senderColumn crates tx = .ok columns.sender
  expiration_timestamp : expirationColumn crates tx none = .ok columns.expiration_timestamp
  gas_unit_price : tx.tx_data.gasUnitPrice = .ok columns.gas_unit_price
  expiration_unixtimestamp : expirationUnixColumn tx = .ok columns.expiration_unixtimestamp
  num_signatures : numSignaturesColumn tx sigCnt = .ok columns.num_signatures

/-- The columns of the lenient builder. -/
structure LenientColumns (crates : Crates) (tx : TransactionExtraction) (sigCnt : Option ℕ)
    (columns : TxRowColumns) : Prop where
  payload : lenientPayloadColumns crates tx = .ok (columns.payload, columns.payload_type)
  max_gas_amount : lenient tx.tx_data.maxGasAmount = .ok columns.max_gas_amount
  sender : lenientSenderColumn crates tx = .ok columns.sender
  expiration_timestamp :
    expirationColumn crates tx (some Timestamp.bigquerryMaxTimestampString) =
      .ok columns.expiration_timestamp
  gas_unit_price : lenient tx.tx_data.gasUnitPrice = .ok columns.gas_unit_price
  expiration_unixtimestamp :
    lenient (tx.tx_data.expirationTimestampSecs.bind fun timestamp =>
      .ok (timestamp.map Timestamp.encode)) = .ok columns.expiration_unixtimestamp
  num_signatures : columns.num_signatures = sigCnt

section Invert

variable {crates : Crates} {tx : TransactionExtraction} {sigCnt : Option ℕ}
  {row : Rows.Transaction}

/-- The row that the strict builder makes. -/
theorem getSuccessfulTransaction_eq_ok (h : getSuccessfulTransaction crates tx sigCnt = .ok row) :
    ∃ timestamp txType number changes columns,
      SharedBy crates tx timestamp txType number changes ∧
        StrictColumns crates tx sigCnt columns ∧
          row = transactionRow crates tx timestamp txType number changes columns := by
  obtain ⟨⟨payload, payloadType⟩, hpayload, h⟩ := Outcome.bind_eq_ok.1 h
  obtain ⟨number, hnumber, h⟩ := Outcome.bind_eq_ok.1 h
  obtain ⟨timestamp, htimestamp, h⟩ := Outcome.bind_eq_ok.1 h
  obtain ⟨txType, htype, h⟩ := Outcome.bind_eq_ok.1 h
  obtain ⟨maxGasAmount, hmaxGas, h⟩ := Outcome.bind_eq_ok.1 h
  obtain ⟨sender, hsender, h⟩ := Outcome.bind_eq_ok.1 h
  obtain ⟨changes, hchanges, h⟩ := Outcome.bind_eq_ok.1 h
  obtain ⟨expiration, hexpiration, h⟩ := Outcome.bind_eq_ok.1 h
  obtain ⟨gasUnitPrice, hprice, h⟩ := Outcome.bind_eq_ok.1 h
  obtain ⟨expirationUnix, hunix, h⟩ := Outcome.bind_eq_ok.1 h
  obtain ⟨numSignatures, hsignatures, h⟩ := Outcome.bind_eq_ok.1 h
  rw [Outcome.mapErr_eq_ok] at hnumber htimestamp htype hmaxGas hchanges hprice
  exact ⟨timestamp, txType, number, changes, _, ⟨hnumber, htimestamp, htype, hchanges⟩,
    ⟨hpayload, hmaxGas, hsender, hexpiration, hprice, hunix, hsignatures⟩,
    (Outcome.ok.inj h).symm⟩

/-- The row that the lenient builder makes. -/
theorem getFailedTransaction_eq_ok (h : getFailedTransaction crates tx sigCnt = .ok row) :
    ∃ timestamp txType number changes columns,
      SharedBy crates tx timestamp txType number changes ∧
        LenientColumns crates tx sigCnt columns ∧
          row = transactionRow crates tx timestamp txType number changes columns := by
  obtain ⟨⟨payload, payloadType⟩, hpayload, h⟩ := Outcome.bind_eq_ok.1 h
  obtain ⟨number, hnumber, h⟩ := Outcome.bind_eq_ok.1 h
  obtain ⟨timestamp, htimestamp, h⟩ := Outcome.bind_eq_ok.1 h
  obtain ⟨txType, htype, h⟩ := Outcome.bind_eq_ok.1 h
  obtain ⟨maxGasAmount, hmaxGas, h⟩ := Outcome.bind_eq_ok.1 h
  obtain ⟨sender, hsender, h⟩ := Outcome.bind_eq_ok.1 h
  obtain ⟨changes, hchanges, h⟩ := Outcome.bind_eq_ok.1 h
  obtain ⟨expiration, hexpiration, h⟩ := Outcome.bind_eq_ok.1 h
  obtain ⟨gasUnitPrice, hprice, h⟩ := Outcome.bind_eq_ok.1 h
  obtain ⟨expirationUnix, hunix, h⟩ := Outcome.bind_eq_ok.1 h
  rw [Outcome.mapErr_eq_ok] at hnumber htimestamp htype hchanges
  exact ⟨timestamp, txType, number, changes, _, ⟨hnumber, htimestamp, htype, hchanges⟩,
    ⟨hpayload, hmaxGas, hsender, hexpiration, hprice, hunix, rfl⟩, (Outcome.ok.inj h).symm⟩

/-- The row that is made, by the builder that the success of the transaction selects. -/
theorem getTransactions_eq_ok (h : getTransactions crates tx sigCnt = .ok row) :
    ∃ timestamp txType number changes columns,
      SharedBy crates tx timestamp txType number changes ∧
        (tx.tx_info.success = true ∧ StrictColumns crates tx sigCnt columns ∨
          tx.tx_info.success = false ∧ LenientColumns crates tx sigCnt columns) ∧
            row = transactionRow crates tx timestamp txType number changes columns := by
  unfold getTransactions at h
  split at h
  case h_1 hsuccess =>
    obtain ⟨timestamp, txType, number, changes, columns, hshared, hcolumns, rfl⟩ :=
      getSuccessfulTransaction_eq_ok h
    exact ⟨timestamp, txType, number, changes, columns, hshared, .inl ⟨hsuccess, hcolumns⟩, rfl⟩
  case h_2 hsuccess =>
    obtain ⟨timestamp, txType, number, changes, columns, hshared, hcolumns, rfl⟩ :=
      getFailedTransaction_eq_ok h
    exact ⟨timestamp, txType, number, changes, columns, hshared, .inr ⟨hsuccess, hcolumns⟩, rfl⟩

end Invert

/-! ## The counts of a row -/

/-- What both builders put in the columns that count other rows. -/
structure CountsOf (tx : TransactionExtraction) (sigCnt : Option ℕ) (row : Rows.Transaction) :
    Prop where
  version : row.tx_version = tx.version
  timestamp : row.block_unixtimestamp = tx.getUnixTimestamp
  num_events : row.num_events = numEvents tx
  num_changes : tx.tx_info.calculateChangesAggregate = .ok row.num_changes
  num_signatures : (sigCnt.isSome = true ↔ tx.tx_type = .User) → row.num_signatures = sigCnt

/-- A signature count that is there exactly for a user transaction is passed on by the strict
builder too. -/
theorem numSignaturesColumn_eq_ok {tx : TransactionExtraction} {sigCnt numSignatures : Option ℕ}
    (h : numSignaturesColumn tx sigCnt = .ok numSignatures)
    (hsig : sigCnt.isSome = true ↔ tx.tx_type = .User) : numSignatures = sigCnt := by
  unfold numSignaturesColumn TransactionExtraction.getTxtype at h
  cases sigCnt with
  | none =>
    -- without a count the type is not `User`, and every other type gives no count
    cases htype : tx.tx_type <;>
      simp_all [TransactionExtraction.convertTxtype]
  | some sigVal =>
    simp only [hsig.1 rfl, TransactionExtraction.convertTxtype, Outcome.ok.injEq] at h
    exact h.symm

/-- Both builders count alike. -/
theorem getTransactions_spec {crates : Crates} {tx : TransactionExtraction} {sigCnt : Option ℕ}
    {row : Rows.Transaction} (h : getTransactions crates tx sigCnt = .ok row) :
    CountsOf tx sigCnt row := by
  obtain ⟨timestamp, txType, number, changes, columns, hshared, hcolumns, rfl⟩ :=
    getTransactions_eq_ok h
  refine ⟨rfl, rfl, rfl, hshared.changes, fun hsig => ?_⟩
  rcases hcolumns with ⟨-, hstrict⟩ | ⟨-, hlenient⟩
  · exact numSignaturesColumn_eq_ok hstrict.num_signatures hsig
  -- the lenient builder passes the count on without a look at the type
  · exact hlenient.num_signatures

/-! ## Building the row settles -/

/-- The payload columns are computed without a panic. -/
theorem payloadColumns_settles (crates : Crates) (tx : TransactionExtraction) :
    (payloadColumns crates tx).Settles := by
  refine (TxDataExtract.payload_settles _).mapErr.bind fun payload _ => ?_
  split
  · exact Outcome.settles_ok _
  · refine (TxPayloadExtract.tryEncode_settles _ _).mapErr.bind fun _ _ => ?_
    exact (TxPayloadExtract.encodePayloadType_settles _).mapErr.bind
      fun _ _ => Outcome.settles_ok _

/-- The lenient payload columns are computed without a panic. -/
theorem lenientPayloadColumns_settles (crates : Crates) (tx : TransactionExtraction) :
    (lenientPayloadColumns crates tx).Settles := by
  have hpayload := TxDataExtract.payload_settles tx.tx_data
  unfold lenientPayloadColumns
  split
  · exact Outcome.settles_ok _
  case h_2 extract _ =>
    have hencode := TxPayloadExtract.tryEncode_settles crates extract
    have htype := TxPayloadExtract.encodePayloadType_settles extract
    split
    case h_1 message heq => exact absurd heq (hencode message)
    case h_2 message heq _ => exact absurd heq (htype message)
    case h_3 => exact Outcome.settles_ok _
  · exact Outcome.settles_ok _
  case h_4 message heq => exact absurd heq (hpayload message)

/-- Leaving a column out settles as computing it does. -/
theorem lenient_settles {ε α : Type} {x : Outcome ε (Option α)} (h : x.Settles) :
    (lenient x).Settles := by
  unfold lenient
  split
  · exact Outcome.settles_ok _
  · exact Outcome.settles_ok _
  case h_3 message => exact absurd h (Outcome.not_settles_panic message)

/-- The sender column is computed without a panic. -/
theorem senderColumn_settles (tx : TransactionExtraction) : (senderColumn crates tx).Settles := by
  refine (TxDataExtract.sender_settles _).mapErr.bind fun sender _ => ?_
  split
  · exact (Address.tryEncode_settles _).mapErr.bind fun _ _ =>
      Outcome.settles_ok _
  · split_ifs <;> simp

/-- The lenient sender column is computed without a panic. -/
theorem lenientSenderColumn_settles (tx : TransactionExtraction) :
    (lenientSenderColumn crates tx).Settles := by
  have hsender := TxDataExtract.sender_settles tx.tx_data
  unfold lenientSenderColumn
  split
  · exact lenient_settles ((Address.tryEncode_settles _).bind fun _ _ => Outcome.settles_ok _)
  · split_ifs <;> simp
  · exact Outcome.settles_ok _
  case h_4 message heq => exact absurd heq (hsender message)

/-- The expiration column is computed without a panic. -/
theorem expirationColumn_settles (crates : Crates) (tx : TransactionExtraction)
    (outOfRange : Option String) : (expirationColumn crates tx outOfRange).Settles := by
  refine (TxDataExtract.expirationTimestampSecs_settles _).mapErr.bind
    fun timestamp _ => ?_
  cases timestamp with
  | none => exact Outcome.settles_ok _
  | some timestamp =>
    have hencode := Timestamp.tryEncode_settles crates timestamp
    cases hcase : timestamp.tryEncode crates with
    | ok string => simp [hcase]
    -- two of the errors stand for a value, and none of them panics
    | err error => cases error <;> simp [hcase]
    | panic message => exact absurd hcase (hencode message)

/-- The signature count is computed without a panic. -/
theorem numSignaturesColumn_settles (tx : TransactionExtraction) (sigCnt : Option ℕ) :
    (numSignaturesColumn tx sigCnt).Settles := by
  have htype := TransactionExtraction.getTxtype_settles tx
  unfold numSignaturesColumn
  split
  case h_4 message heq => exact absurd heq (htype message)
  all_goals simp

/-- Building the row of a transaction returns. -/
theorem getTransactions_settles (crates : Crates) (tx : TransactionExtraction)
    (sigCnt : Option ℕ) : (getTransactions crates tx sigCnt).Settles := by
  have hnumber := TxDataExtract.sequenceNumber_settles tx.tx_data
  have htimestamp := Timestamp.tryEncode_settles crates tx.timestamp
  have htype := TransactionExtraction.getTxtype_settles tx
  have hrequest := TxDataExtract.userRequest_settles tx.tx_data
  have hchanges := tx.tx_info.calculateChangesAggregate_settles
  have hexpiration := TxDataExtract.expirationTimestampSecs_settles tx.tx_data
  unfold getTransactions
  split
  · refine (payloadColumns_settles _ _).bind fun _ _ => ?_
    refine hnumber.mapErr.bind fun _ _ => ?_
    refine htimestamp.mapErr.bind fun _ _ => ?_
    refine htype.mapErr.bind fun _ _ => ?_
    refine (hrequest.bind fun _ _ => Outcome.settles_ok _).mapErr.bind
      fun _ _ => ?_
    refine (senderColumn_settles _).bind fun _ _ => ?_
    refine hchanges.mapErr.bind fun _ _ => ?_
    refine (expirationColumn_settles _ _ _).bind fun _ _ => ?_
    refine (hrequest.bind fun _ _ => Outcome.settles_ok _).mapErr.bind
      fun _ _ => ?_
    refine (hexpiration.mapErr.bind fun _ _ => Outcome.settles_ok _).bind
      fun _ _ => ?_
    exact (numSignaturesColumn_settles _ _).bind fun _ _ => Outcome.settles_ok _
  · refine (lenientPayloadColumns_settles _ _).bind fun _ _ => ?_
    refine hnumber.mapErr.bind fun _ _ => ?_
    refine htimestamp.mapErr.bind fun _ _ => ?_
    refine htype.mapErr.bind fun _ _ => ?_
    refine (lenient_settles (hrequest.bind fun _ _ => Outcome.settles_ok _)).bind fun _ _ => ?_
    refine (lenientSenderColumn_settles _).bind fun _ _ => ?_
    refine hchanges.mapErr.bind fun _ _ => ?_
    refine (expirationColumn_settles _ _ _).bind fun _ _ => ?_
    refine (lenient_settles (hrequest.bind fun _ _ => Outcome.settles_ok _)).bind fun _ _ => ?_
    exact (lenient_settles (hexpiration.bind fun _ _ => Outcome.settles_ok _)).bind fun _ _ =>
      Outcome.settles_ok _

end AptosEtl.Tables
