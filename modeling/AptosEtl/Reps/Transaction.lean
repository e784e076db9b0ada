import AptosEtl.Lib.Tally
import AptosEtl.Reps.Changes
import AptosEtl.Reps.Payload

/-!
# Transactions

`reps/transaction/tx_info.rs`, `reps/transaction/tx_data.rs` and `reps/transaction/tx.rs`. A
transaction message becomes a `TransactionExtraction`, from which every table is built. The
conversion checks that the declared type is that of the data, and converts the changes; the rest
of the data is read later, by the accessors of `TxDataExtract`, and each of them has its own
errors.
-/

namespace AptosEtl.Reps

open Rust Input

/-! ## Transaction info -/

/-- The errors of `TransactionInfoExtraction`. -/
inductive TxInfoExtractionError where
  | Change (error : ChangeRecordError)
  | UnaccountedForChanges (types : List ChangeType)

/-- `TransactionInfoExtraction`. -/
structure TransactionInfoExtraction where
  hash : HashValue
  state_change_hash : HashValue
  event_root_hash : HashValue
  state_checkpoint_hash : Option HashValue
  gas_used : UInt64
  success : Bool
  vm_status : String
  accumulator_root_hash : HashValue
  changes : List IncompleteChangeRecord

namespace TransactionInfoExtraction

/-- `TransactionInfoExtraction::try_from`. -/
def tryFrom (value : TransactionInfo) : Outcome TxInfoExtractionError TransactionInfoExtraction :=
  (Outcome.tryMap IncompleteChangeRecord.tryFrom value.changes).mapErr .Change |>.bind
    fun changes =>
    .ok {
      hash := ⟨value.hash⟩
      state_change_hash := ⟨value.state_change_hash⟩
      event_root_hash := ⟨value.event_root_hash⟩
      state_checkpoint_hash := value.state_checkpoint_hash.map HashValue.mk
      gas_used := value.gas_used
      success := value.success
      vm_status := value.vm_status
      accumulator_root_hash := ⟨value.accumulator_root_hash⟩
      changes := changes }

/-- `TransactionInfoExtraction::calculate_changes_aggregate`: the six known kinds are taken out of
the map one after the other, and what is left over is an error. -/
def calculateChangesAggregate (self : TransactionInfoExtraction) :
    Outcome TxInfoExtractionError Rows.ChangesAggregate :=
  let counts := Tally.ofList (self.changes.map IncompleteChangeRecord.getType)
  let (delete_module, counts) := counts.extract .DeleteModule
  let (write_module, counts) := counts.extract .WriteModule
  let (delete_resource, counts) := counts.extract .DeleteResource
  let (write_resource, counts) := counts.extract .WriteResource
  let (delete_table_item, counts) := counts.extract .DeleteTableItem
  let (write_table_item, counts) := counts.extract .WriteTableItem
  if counts.entries.isEmpty then
    .ok {
      total := self.changes.length
      delete_module := delete_module.getD 0
      delete_resource := delete_resource.getD 0
      delete_table_item := delete_table_item.getD 0
      write_module := write_module.getD 0
      write_resource := write_resource.getD 0
      write_table_item := write_table_item.getD 0 }
  else
    .err (.UnaccountedForChanges counts.keys)

/-- How many changes are of a kind. -/
def countKind (changes : List IncompleteChangeRecord) (kind : ChangeType) : ℕ :=
  (changes.map IncompleteChangeRecord.getType).count kind

@[simp] theorem countKind_nil (kind : ChangeType) : countKind [] kind = 0 := rfl

@[simp] theorem countKind_cons (change : IncompleteChangeRecord)
    (changes : List IncompleteChangeRecord) (kind : ChangeType) :
    countKind (change :: changes) kind =
      countKind changes kind + if change.getType = kind then 1 else 0 := by
  simp [countKind, List.count_cons]

/-- When no change is of an unspecified kind, the aggregate exists and counts each kind. -/
theorem calculateChangesAggregate_eq (self : TransactionInfoExtraction)
    (h : ∀ change ∈ self.changes, change.getType ≠ .Unspecified) :
    self.calculateChangesAggregate = .ok {
      total := self.changes.length
      delete_module := countKind self.changes .DeleteModule
      delete_resource := countKind self.changes .DeleteResource
      delete_table_item := countKind self.changes .DeleteTableItem
      write_module := countKind self.changes .WriteModule
      write_resource := countKind self.changes .WriteResource
      write_table_item := countKind self.changes .WriteTableItem } := by
  set kinds := self.changes.map IncompleteChangeRecord.getType with hkinds
  have hget : ∀ type, (AList.lookup type (Tally.ofList kinds)).getD 0 = kinds.count type :=
    Tally.get_ofList kinds
  -- the six kinds are all but one of them, and no change is of that one
  have hempty : (AList.erase .WriteTableItem (AList.erase .DeleteTableItem
      (AList.erase .WriteResource (AList.erase .DeleteResource (AList.erase .WriteModule
        (AList.erase .DeleteModule (Tally.ofList kinds))))))).entries = [] := by
    rw [Tally.entries_eq_nil_iff]
    intro type htype
    simp only [AList.mem_erase, Tally.mem_ofList] at htype
    obtain ⟨h₁, h₂, h₃, h₄, h₅, h₆, hmem⟩ := htype
    obtain ⟨change, hchange, rfl⟩ := List.mem_map.1 (hkinds ▸ hmem)
    have hspecified := h change hchange
    cases htype : change.getType <;> simp_all
  unfold calculateChangesAggregate countKind
  simp only [← hkinds, AList.extract_eq_lookup_erase, hempty, List.isEmpty_nil, if_true]
  simp only [AList.lookup_erase_ne, ne_eq, reduceCtorEq, not_false_eq_true, hget]

/-- Computing the aggregate returns. -/
theorem calculateChangesAggregate_settles (self : TransactionInfoExtraction) :
    self.calculateChangesAggregate.Settles := by
  unfold calculateChangesAggregate
  simp only
  split_ifs <;> simp

/-- Converting the info of a transaction returns. -/
theorem tryFrom_settles (value : TransactionInfo) : (tryFrom value).Settles :=
  (Outcome.settles_tryMap fun change _ =>
    IncompleteChangeRecord.tryFrom_settles change).mapErr.bind fun _ _ => Outcome.settles_ok _

/-- The changes of a converted info are well formed. -/
theorem wellFormed_of_tryFrom {value : TransactionInfo} {info : TransactionInfoExtraction}
    (h : tryFrom value = .ok info) : ∀ change ∈ info.changes, change.WellFormed := by
  obtain ⟨changes, hchanges, hinfo⟩ := Outcome.bind_eq_ok.1 h
  obtain rfl := Outcome.ok.inj hinfo
  -- each converted change is that of the message at the same place
  have hall := Outcome.tryMap_eq_ok.1 (Outcome.mapErr_eq_ok.1 hchanges)
  intro change hchange
  obtain ⟨i, hi, rfl⟩ := List.mem_iff_getElem.1 hchange
  have hj : i < value.changes.length := hall.length_eq ▸ hi
  exact IncompleteChangeRecord.wellFormed_of_tryFrom
    (by simpa using List.Forall₂.get hall hj hi)

end TransactionInfoExtraction

/-! ## Transaction data -/

/-- The errors of `TxDataExtract`. -/
inductive TxDataExtractError where
  | MissingUserRequest
  | MissingSignature
  | TimestampError (error : TimestampError)
  | MissingExpirationTimestamp
  | Address (error : AddressError)
  | GenesisPayloadError
  | MissingUserPayload
  | Payload (error : TxPayloadError)

/-- `TxDataExtract`. -/
structure TxDataExtract where
  txndata : TxnData

namespace TxDataExtract

/-- `TxDataExtract::blockmetadata`. -/
def blockmetadata (self : TxDataExtract) : Option BlockMetadataTransaction :=
  match self.txndata with
  | .BlockMetadata blockmetadata => some blockmetadata
  | _ => none

/-- `TxDataExtract::user_request`. -/
def userRequest (self : TxDataExtract) :
    Outcome TxDataExtractError (Option UserTransactionRequest) :=
  match self.txndata with
  | .User userdata =>
    match userdata.request with
    | some request => .ok (some request)
    | none => .err .MissingUserRequest
  | _ => .ok none

/-- `TxDataExtract::max_gas_amount`. -/
def maxGasAmount (self : TxDataExtract) : Outcome TxDataExtractError (Option UInt64) :=
  self.userRequest.bind fun request => .ok (request.map UserTransactionRequest.max_gas_amount)

/-- `TxDataExtract::sequence_number`. -/
def sequenceNumber (self : TxDataExtract) : Outcome TxDataExtractError (Option UInt64) :=
  self.userRequest.bind fun request => .ok (request.map UserTransactionRequest.sequence_number)

/-- `TxDataExtract::gas_unit_price`. -/
def gasUnitPrice (self : TxDataExtract) : Outcome TxDataExtractError (Option UInt64) :=
  self.userRequest.bind fun request => .ok (request.map UserTransactionRequest.gas_unit_price)

/-- `TxDataExtract::sender`. -/
def sender (self : TxDataExtract) : Outcome TxDataExtractError (Option Address) :=
  self.userRequest.bind fun request => .ok (request.map fun req => .string req.sender)

/-- `TxDataExtract::proposer`, which cannot fail. -/
def proposer (self : TxDataExtract) : Option Address :=
  self.blockmetadata.map fun bmd => .string bmd.proposer

/-- The encoding of an optional address. -/
def encodeAddress (crates : Crates) (address : Option Address) :
    Outcome TxDataExtractError (Option String) :=
  match address with
  | some addr => (addr.tryEncode crates).mapErr .Address |>.bind fun encoded => .ok (some encoded)
  | none => .ok none

/-- `TxDataExtract::encoded_sender`. -/
def encodedSender (crates : Crates) (self : TxDataExtract) :
    Outcome TxDataExtractError (Option String) :=
  self.sender.bind (encodeAddress crates)

/-- `TxDataExtract::encoded_proposer`. -/
def encodedProposer (crates : Crates) (self : TxDataExtract) :
    Outcome TxDataExtractError (Option String) :=
  encodeAddress crates self.proposer

/-- `TxDataExtract::expiration_timestamp_secs`. -/
def expirationTimestampSecs (self : TxDataExtract) :
    Outcome TxDataExtractError (Option Timestamp) :=
  self.userRequest.bind fun
    | some request =>
      match request.expiration_timestamp_secs with
      | some expiration =>
        (Timestamp.tryFrom expiration).mapErr .TimestampError |>.bind fun timestamp =>
          .ok (some timestamp)
      | none => .err .MissingExpirationTimestamp
    | none => .ok none

/-- `TxDataExtract::signature`. -/
def signature (self : TxDataExtract) : Outcome TxDataExtractError (Option Signature) :=
  self.userRequest.bind fun
    | some data =>
      match data.signature with
      | some signature => .ok (some signature)
      | none => .err .MissingSignature
    | none => .ok none

/-- `TxDataExtract::events`: nothing for the types without events. -/
def events (self : TxDataExtract) : Option (List Input.Event) :=
  match self.txndata with
  | .BlockMetadata blockmetadata => some blockmetadata.events
  | .User userdata => some userdata.events
  | .Genesis genesisdata => some genesisdata.events
  | .Validator validatorData => some validatorData.events
  | .StateCheckpoint => none
  | .BlockEpilogue => none

/-- `TxDataExtract::payload`. -/
def payload (self : TxDataExtract) : Outcome TxDataExtractError (Option TxPayloadExtract) :=
  match self.txndata with
  | .User _ =>
    self.userRequest.bind fun
      | some userreq =>
        match userreq.payload with
        | some payload =>
          (TxPayloadExtract.tryFrom payload).mapErr .Payload |>.bind fun extract =>
            .ok (some extract)
        | none => .err .MissingUserPayload
      | none => .panic
          "Should only return Ok(None) if not userrequest, however we just verified it was."
  | .Genesis genesisdata =>
    match genesisdata.payload with
    | some genesisPayload =>
      match genesisPayload.write_set with
      | some writeSet => .ok (some (.ofWriteSet writeSet))
      | none => .err .GenesisPayloadError
    | none => .err .GenesisPayloadError
  | _ => .ok none

/-- The user request that is read: that of a user transaction, and none of another one. -/
theorem userRequest_cases {self : TxDataExtract} {request : Option UserTransactionRequest}
    (h : self.userRequest = .ok request) :
    (∃ userdata, self.txndata = .User userdata ∧ userdata.request = request ∧
      request.isSome = true) ∨
    ((∀ userdata, self.txndata ≠ .User userdata) ∧ request = none) := by
  unfold userRequest at h
  split at h
  case h_1 userdata huser =>
    split at h
    case h_1 request hsome =>
      obtain rfl := Outcome.ok.inj h
      exact .inl ⟨userdata, huser, hsome, rfl⟩
    case h_2 => exact nomatch h
  case h_2 hother => exact .inr ⟨hother, (Outcome.ok.inj h).symm⟩

/-- The user request of a user transaction is there, or its absence is an error. -/
theorem userRequest_eq_ok {self : TxDataExtract} {request : Option UserTransactionRequest}
    (h : self.userRequest = .ok request) :
    request.isSome = true ↔ ∃ userdata, self.txndata = .User userdata := by
  obtain ⟨userdata, huser, -, hsome⟩ | ⟨hother, rfl⟩ := userRequest_cases h
  · exact ⟨fun _ => ⟨userdata, huser⟩, fun _ => hsome⟩
  · exact ⟨nofun, fun ⟨userdata, huser⟩ => absurd huser (hother userdata)⟩

/-- Reading the user request returns. -/
theorem userRequest_settles (self : TxDataExtract) : self.userRequest.Settles := by
  unfold userRequest
  split
  · split <;> simp
  · exact Outcome.settles_ok _

/-- Reading the sequence number returns. -/
theorem sequenceNumber_settles (self : TxDataExtract) : self.sequenceNumber.Settles :=
  (userRequest_settles self).bind fun _ _ => Outcome.settles_ok _

/-- Reading the sender returns. -/
theorem sender_settles (self : TxDataExtract) : self.sender.Settles :=
  (userRequest_settles self).bind fun _ _ => Outcome.settles_ok _

/-- Encoding an optional address returns. -/
theorem encodeAddress_settles (crates : Crates) (address : Option Address) :
    (encodeAddress crates address).Settles := by
  unfold encodeAddress
  split
  · exact (Address.tryEncode_settles _).mapErr.bind fun _ _ =>
      Outcome.settles_ok _
  · exact Outcome.settles_ok _

/-- Encoding the sender returns. -/
theorem encodedSender_settles (crates : Crates) (self : TxDataExtract) :
    (self.encodedSender crates).Settles :=
  (sender_settles self).bind fun _ _ => encodeAddress_settles crates _

/-- Encoding an address keeps whether there is one. -/
theorem isSome_of_encodeAddress_eq_ok {crates : Crates} {address : Option Address}
    {encoded : Option String} (h : encodeAddress crates address = .ok encoded) :
    encoded.isSome = address.isSome := by
  unfold encodeAddress at h
  split at h
  · obtain ⟨string, -, hencoded⟩ := Outcome.bind_eq_ok.1 h
    obtain rfl := Outcome.ok.inj hencoded
    rfl
  · obtain rfl := Outcome.ok.inj h
    rfl

/-- Reading the expiration timestamp returns. -/
theorem expirationTimestampSecs_settles (self : TxDataExtract) :
    self.expirationTimestampSecs.Settles := by
  refine (userRequest_settles self).bind fun request _ => ?_
  split
  · split
    · exact (Timestamp.tryFrom_settles _).mapErr.bind fun _ _ =>
        Outcome.settles_ok _
    · exact Outcome.settles_err _
  · exact Outcome.settles_ok _

/-- Reading the signature returns. -/
theorem signature_settles (self : TxDataExtract) : self.signature.Settles := by
  refine (userRequest_settles self).bind fun request _ => ?_
  split
  · split <;> simp
  · exact Outcome.settles_ok _

/-- There is a signature exactly for a user transaction. -/
theorem signature_eq_ok {self : TxDataExtract} {signature : Option Signature}
    (h : self.signature = .ok signature) :
    signature.isSome = true ↔ ∃ userdata, self.txndata = .User userdata := by
  obtain ⟨request, hrequest, hsignature⟩ := Outcome.bind_eq_ok.1 h
  rw [← userRequest_eq_ok hrequest]
  cases request with
  | none =>
    obtain rfl := Outcome.ok.inj hsignature
    rfl
  | some data =>
    cases hdata : data.signature with
    | none => simp [hdata] at hsignature
    | some signature' =>
      simp only [hdata, Outcome.ok.injEq] at hsignature
      simp [← hsignature]

/-- The encoded sender of a user transaction is there, or its absence is an error. -/
theorem encodedSender_isSome {crates : Crates} {self : TxDataExtract} {encoded : Option String}
    {userdata : UserTransaction} (huser : self.txndata = .User userdata)
    (h : self.encodedSender crates = .ok encoded) : encoded.isSome = true := by
  obtain ⟨address, haddress, hencoded⟩ := Outcome.bind_eq_ok.1 h
  obtain ⟨request, hrequest, hsender⟩ := Outcome.bind_eq_ok.1 haddress
  obtain rfl := Outcome.ok.inj hsender
  rw [isSome_of_encodeAddress_eq_ok hencoded, Option.isSome_map]
  exact (userRequest_eq_ok hrequest).2 ⟨userdata, huser⟩

/-- Reading the payload returns: the `unreachable!` in it is dead. -/
theorem payload_settles (self : TxDataExtract) : self.payload.Settles := by
  unfold payload
  split
  case h_1 userdata huser =>
    refine (userRequest_settles self).bind fun request hrequest => ?_
    -- the data is that of a user transaction, so its request is there or reading it has failed
    have hsome := (userRequest_eq_ok hrequest).2 ⟨userdata, huser⟩
    cases request with
    | none => exact nomatch hsome
    | some userreq =>
      simp only
      split
      · exact (TxPayloadExtract.tryFrom_settles _).mapErr.bind fun _ _ =>
          Outcome.settles_ok _
      · exact Outcome.settles_err _
  case h_2 genesisdata hgenesis =>
    split
    · split <;> simp
    · exact Outcome.settles_err _
  case h_3 => exact Outcome.settles_ok _

end TxDataExtract

/-! ## Transactions -/

/-- The errors of `TransactionExtraction`. -/
inductive TxExtractionError where
  | MissingTimeStamp
  | TimestampError (error : TimestampError)
  | MissingInfo
  | MissingData
  | InvalidData
  | Unspecified
  | TxInfoExtractionError (error : TxInfoExtractionError)

/-- The `TxType` enum of the published transactions. -/
inductive TxType where
  | User
  | Genesis
  | BlockMetadata
  | StateCheckpoint
  | Validator
  | BlockEpilogue
  deriving DecidableEq, Repr

/-- `TxType::as_str_name`. -/
def TxType.asStrName : TxType → String
  | User => "user"
  | Genesis => "genesis"
  | BlockMetadata => "block_metadata"
  | StateCheckpoint => "state_checkpoint"
  | Validator => "validator"
  | BlockEpilogue => "block_epilogue"

/-- `TransactionExtraction`. -/
structure TransactionExtraction where
  version : UInt64
  epoch : UInt64
  blockheight : Int64
  timestamp : Timestamp
  tx_type : TransactionType
  tx_info : TransactionInfoExtraction
  tx_data : TxDataExtract

namespace TransactionExtraction

/-- `TransactionExtraction::is_usertx`. -/
def isUsertx (self : TransactionExtraction) : Bool :=
  match self.tx_type with
  | .User => true
  | _ => false

/-- `TransactionExtraction::get_encoded_timestamp`. -/
def getEncodedTimestamp (crates : Crates) (self : TransactionExtraction) :
    Outcome TimestampError String := self.timestamp.tryEncode crates

/-- `TransactionExtraction::get_unix_timestamp`. -/
def getUnixTimestamp (self : TransactionExtraction) : Rows.UnixTimestamp := self.timestamp.encode

/-- `TransactionExtraction::get_encoded_hash`. -/
def getEncodedHash (crates : Crates) (self : TransactionExtraction) : String :=
  self.tx_info.hash.encode crates

/-- `TransactionExtraction::convert_txtype`. -/
def convertTxtype : TransactionType → Outcome TxExtractionError TxType
  | .BlockMetadata => .ok .BlockMetadata
  | .StateCheckpoint => .ok .StateCheckpoint
  | .User => .ok .User
  | .Genesis => .ok .Genesis
  | .Validator => .ok .Validator
  | .BlockEpilogue => .ok .BlockEpilogue
  | .Unspecified => .err .Unspecified

/-- `TransactionExtraction::get_txtype`. -/
def getTxtype (self : TransactionExtraction) : Outcome TxExtractionError TxType :=
  convertTxtype self.tx_type

/-- The timestamp of `TransactionExtraction::try_from`. -/
def extractTimestamp : Option Input.Timestamp → Outcome TxExtractionError Timestamp
  | some inputTimestamp => (Timestamp.tryFrom inputTimestamp).mapErr .TimestampError
  | none => .err .MissingTimeStamp

/-- The type and the data of `TransactionExtraction::try_from`, which must match. -/
def extractData (type : TransactionType) (data : Option TxnData) :
    Outcome TxExtractionError (TransactionType × TxnData) :=
  match type, data with
  | .Unspecified, _ => .err .Unspecified
  | .User, some (.User data) => .ok (.User, .User data)
  | .Genesis, some (.Genesis data) => .ok (.Genesis, .Genesis data)
  | .BlockMetadata, some (.BlockMetadata data) => .ok (.BlockMetadata, .BlockMetadata data)
  | .StateCheckpoint, some .StateCheckpoint => .ok (.StateCheckpoint, .StateCheckpoint)
  | .Validator, some (.Validator data) => .ok (.Validator, .Validator data)
  | .BlockEpilogue, some .BlockEpilogue => .ok (.BlockEpilogue, .BlockEpilogue)
  -- a known type without data, and then data of another type
  | _, none => .err .MissingData
  | _, some _ => .err .InvalidData

/-- `TransactionExtraction::try_from`. The block height is reinterpreted as a signed number. -/
def tryFrom (value : Input.Transaction) : Outcome TxExtractionError TransactionExtraction :=
  (extractTimestamp value.timestamp).bind fun timestamp =>
    (extractData (value.type.getD .Unspecified) value.txn_data).bind fun (txType, txData) =>
      match value.info with
      | none => .err .MissingInfo
      | some txInfo =>
        (TransactionInfoExtraction.tryFrom txInfo).mapErr .TxInfoExtractionError |>.bind
          fun txInfo =>
            .ok {
              version := value.version
              epoch := value.epoch
              blockheight := value.block_height.toInt64
              timestamp := timestamp
              tx_type := txType
              tx_info := txInfo
              tx_data := ⟨txData⟩ }

/-- What a conversion establishes: the type is that of the data, it is a known one, and every
change has the kind of its family. -/
structure WellFormed (tx : TransactionExtraction) : Prop where
  isUser : tx.tx_type = .User ↔ ∃ userdata, tx.tx_data.txndata = .User userdata
  isSpecified : tx.tx_type ≠ .Unspecified
  changes : ∀ change ∈ tx.tx_info.changes, change.WellFormed

/-- What a conversion takes from the message as it is. -/
structure Converts (value : Input.Transaction) (tx : TransactionExtraction) : Prop where
  version : tx.version = value.version
  tx_type : value.type.getD .Unspecified = tx.tx_type
  txn_data : value.txn_data = some tx.tx_data.txndata

/-- The data of a transaction has the type that it is declared with. -/
theorem extractData_eq_ok {type type' : TransactionType} {data : Option TxnData} {data' : TxnData}
    (h : extractData type data = .ok (type', data')) :
    type = type' ∧ data = some data' ∧ type' ≠ .Unspecified ∧
      (type' = .User ↔ ∃ userdata, data' = .User userdata) := by
  unfold extractData at h
  split at h <;> simp_all
  all_goals obtain ⟨rfl, rfl⟩ := h; simp

/-- A conversion gives a well-formed extraction of its message. -/
theorem tryFrom_spec {value : Input.Transaction} {tx : TransactionExtraction}
    (h : tryFrom value = .ok tx) : tx.WellFormed ∧ Converts value tx := by
  obtain ⟨timestamp, -, h⟩ := Outcome.bind_eq_ok.1 h
  obtain ⟨⟨txType, txData⟩, hdata, h⟩ := Outcome.bind_eq_ok.1 h
  obtain ⟨htype, hdata, hspecified, huser⟩ := extractData_eq_ok hdata
  simp only at h
  split at h
  · exact nomatch h
  · obtain ⟨txInfo, hinfo, h⟩ := Outcome.bind_eq_ok.1 h
    obtain rfl := Outcome.ok.inj h
    have hchanges :=
      TransactionInfoExtraction.wellFormed_of_tryFrom (Outcome.mapErr_eq_ok.1 hinfo)
    exact ⟨⟨huser, hspecified, hchanges⟩, ⟨rfl, htype, hdata⟩⟩

/-- The block height of a conversion is that of the message, as a signed number. -/
theorem blockheight_of_tryFrom {value : Input.Transaction} {tx : TransactionExtraction}
    (h : tryFrom value = .ok tx) : tx.blockheight = value.block_height.toInt64 := by
  obtain ⟨timestamp, -, h⟩ := Outcome.bind_eq_ok.1 h
  obtain ⟨data, -, h⟩ := Outcome.bind_eq_ok.1 h
  simp only at h
  split at h
  · exact nomatch h
  · obtain ⟨txInfo, -, h⟩ := Outcome.bind_eq_ok.1 h
    rw [← Outcome.ok.inj h]

/-- The info of a transaction that is converted is there, and it is converted. -/
theorem exists_info_of_tryFrom {value : Input.Transaction} {tx : TransactionExtraction}
    (h : tryFrom value = .ok tx) :
    ∃ info, value.info = some info ∧ TransactionInfoExtraction.tryFrom info = .ok tx.tx_info := by
  obtain ⟨timestamp, -, h⟩ := Outcome.bind_eq_ok.1 h
  obtain ⟨data, -, h⟩ := Outcome.bind_eq_ok.1 h
  simp only at h
  split at h
  · exact nomatch h
  case h_2 info hinfo =>
    obtain ⟨txInfo, htxInfo, h⟩ := Outcome.bind_eq_ok.1 h
    obtain rfl := Outcome.ok.inj h
    exact ⟨info, hinfo, Outcome.mapErr_eq_ok.1 htxInfo⟩

/-- Converting a transaction returns. -/
theorem tryFrom_settles (value : Input.Transaction) : (tryFrom value).Settles := by
  have htimestamp : (extractTimestamp value.timestamp).Settles := by
    unfold extractTimestamp
    split
    · exact Outcome.settles_mapErr.2 (Timestamp.tryFrom_settles _)
    · exact Outcome.settles_err _
  have hdata : (extractData (value.type.getD .Unspecified) value.txn_data).Settles := by
    unfold extractData
    split <;> simp
  refine htimestamp.bind fun timestamp _ => hdata.bind fun data _ => ?_
  simp only
  split
  · exact Outcome.settles_err _
  · exact (TransactionInfoExtraction.tryFrom_settles _).mapErr.bind
      fun _ _ => Outcome.settles_ok _

/-- Reading the type returns. -/
theorem getTxtype_settles (self : TransactionExtraction) : self.getTxtype.Settles := by
  unfold getTxtype convertTxtype
  split <;> simp

end TransactionExtraction

end AptosEtl.Reps
