import AptosEtl.Tables.SharedColumns

/-!
# Address columns

The columns of the eight tables that hold an address. All but two of them come from
`Address::try_encode`, which gives nothing but `0x` and 64 digits. The columns `multisig_address`
and `execute_as` of a payload are copied from the message as they are, so they are standardized
exactly when the message's own text is (`addressesStandardized_iff`).
-/

namespace AptosEtl.Tables

open Rust Input Reps

/-! ## The columns -/

/-- The addresses in a payload. -/
def payloadAddresses (payload : Rows.Payload) : List String :=
  payload.multisig_address.toList ++ payload.execute_as.toList

/-- The addresses in a row, those that are `NULL` left out. -/
def Table.addresses : (table : Table) → table.Row → List String
  | Transactions, row =>
    (Rows.Transaction.sender row).toList ++
      (Rows.Transaction.payload row).toList.flatMap payloadAddresses
  | Blocks, row => [Rows.Block.proposer row]
  | Changes, row => (Rows.Change.address row).toList
  | Resources, row =>
    Rows.Resource.address row :: (Rows.Resource.struct_tag row).toList.map Rows.StructTag.address
  | Modules, row => Rows.Module.address row :: (Rows.Module.friends row).map Rows.Friend.address
  | TableItems, row => [Rows.TableItem.address row]
  | Events, row => [Rows.Event.address row]
  | Signatures, row => [Rows.Signature.signer row]

/-- All addresses in the records are standardized. -/
def AddressesStandardized (records : Rows.Records) : Prop :=
  ∀ table, ∀ row ∈ tableRows records table, ∀ address ∈ table.addresses row, Standardized address

/-! ## Columns that are encoded -/

section Encoded

variable {crates : Crates} {tx : TransactionExtraction}

/-- An encoded optional address is standardized. -/
theorem standardized_of_encodeAddress {address : Option Address} {encoded : Option String}
    (h : TxDataExtract.encodeAddress crates address = .ok encoded) :
    ∀ text ∈ encoded, Standardized text := by
  cases address with
  | none =>
    obtain rfl := Outcome.ok.inj h
    exact nofun
  | some address =>
    obtain ⟨text, htext, h⟩ := Outcome.bind_eq_ok.1 h
    obtain rfl := Outcome.ok.inj h
    rintro _ ⟨⟩
    exact Address.standardized_of_tryEncode (Outcome.mapErr_eq_ok.1 htext)

/-- The proposer of a block is standardized. -/
theorem standardized_proposer {block : Rows.Block} (h : getBlock crates tx = .ok (some block)) :
    Standardized block.proposer := by
  obtain ⟨-, hnone⟩ | ⟨bmd, timestamp, proposer, -, -, hproposer, hsome⟩ := getBlock_eq_ok h
  · exact nomatch hnone
  · obtain rfl := Option.some.inj hsome
    exact standardized_of_encodeAddress hproposer proposer rfl

/-- The address of an event is standardized. -/
theorem standardized_event {timestamp hash : String} {item : Input.Event × ℕ} {row : Rows.Event}
    (h : eventRow crates tx timestamp hash item = .ok row) : Standardized row.address := by
  obtain ⟨extraction, number, address, -, -, haddress, rfl⟩ := eventRow_eq_ok h
  exact Address.standardized_of_tryEncode haddress

/-- The signer of a signature is standardized. -/
theorem standardized_signer {rows : List Rows.Signature}
    (h : getSignatures crates tx = .ok (some rows)) {row : Rows.Signature} (hrow : row ∈ rows) :
    Standardized row.signer := by
  obtain ⟨request, signature, data, timestamp, groups, hsigned⟩ := getSignatures_groups h
  rw [hsigned.ofGroups] at hrow
  obtain ⟨part, -, subrecord, signer, rfl, hsigner⟩ := exists_part_of_mem hsigned.ofParts hrow
  exact Address.standardized_of_tryEncode hsigner

/-- The friends of a module are standardized. -/
theorem standardized_friends {data : Option MoveModuleBytecode} {columns : ModuleColumns}
    (h : moduleColumns crates data = .ok columns) :
    ∀ friend ∈ columns.friends, Standardized friend.address := by
  unfold moduleColumns at h
  split at h
  · split at h
    · obtain ⟨extraction, -, h⟩ := Outcome.bind_eq_ok.1 h
      obtain ⟨friends, hfriends, h⟩ := Outcome.bind_eq_ok.1 h
      obtain ⟨exposed, -, h⟩ := Outcome.bind_eq_ok.1 h
      obtain ⟨structs, -, h⟩ := Outcome.bind_eq_ok.1 h
      obtain rfl := Outcome.ok.inj h
      intro friend hfriend
      obtain ⟨moduleId, -, hencode⟩ :=
        Outcome.exists_of_mem_tryMap (Outcome.mapErr_eq_ok.1 hfriends) hfriend
      obtain ⟨address, haddress, hencode⟩ := Outcome.bind_eq_ok.1 hencode
      obtain rfl := Outcome.ok.inj hencode
      exact Address.standardized_of_tryEncode (Outcome.mapErr_eq_ok.1 haddress)
    · obtain rfl := Outcome.ok.inj h
      exact nofun
  · obtain rfl := Outcome.ok.inj h
    exact nofun

/-- The address in a struct tag is standardized. -/
theorem standardized_structTag {structTag : Option StructTag} {column : Option Rows.StructTag}
    (h : structTagColumn crates structTag = .ok column) :
    ∀ tag ∈ column, Standardized tag.address := by
  unfold structTagColumn at h
  split at h
  · obtain ⟨tag, htag, h⟩ := Outcome.bind_eq_ok.1 h
    obtain rfl := Outcome.ok.inj h
    obtain ⟨address, haddress, htag⟩ := Outcome.bind_eq_ok.1 (Outcome.mapErr_eq_ok.1 htag)
    obtain ⟨params, -, htag⟩ := Outcome.bind_eq_ok.1 htag
    obtain rfl := Outcome.ok.inj htag
    rintro _ ⟨⟩
    exact Address.standardized_of_tryEncode (Outcome.mapErr_eq_ok.1 haddress)
  · obtain rfl := Outcome.ok.inj h
    exact nofun

/-- The addresses in both rows of a change are standardized. -/
theorem standardized_change {columns : TxColumns} {item : IncompleteChangeRecord × ℕ}
    {built : BuiltChange} (h : buildChange crates tx columns item = .ok built) (table : Table)
    {row : table.Row} (hrow : row ∈ built.rows table) :
    ∀ address ∈ table.addresses row, Standardized address := by
  obtain ⟨change, family, hchange, hfamily, rfl⟩ := buildChange_eq_ok h
  cases table with
  | Changes =>
    obtain rfl := List.mem_singleton.1 hrow
    obtain ⟨chtype, address, addr, stateKeyHash, -, -, haddr, -, rfl⟩ :=
      changeColumns_eq_ok hchange
    intro text htext
    obtain rfl := List.mem_singleton.1 htext
    exact Address.standardized_of_tryEncode haddr
  | Modules =>
    obtain ⟨module, -, hok⟩ := moduleRow_of_buildFamily hfamily (Option.mem_toList.1 hrow)
    obtain ⟨data, address, hdata, haddress, rfl⟩ := moduleRow_eq_ok hok
    intro text htext
    rcases List.mem_cons.1 htext with rfl | htext
    · exact Address.standardized_of_tryEncode haddress
    · obtain ⟨friend, hfriend, rfl⟩ := List.mem_map.1 htext
      exact standardized_friends hdata friend hfriend
  | Resources =>
    obtain ⟨resource, -, hok⟩ := resourceRow_of_buildFamily hfamily (Option.mem_toList.1 hrow)
    obtain ⟨address, changeType, structTag, haddress, -, hstructTag, rfl⟩ := resourceRow_eq_ok hok
    intro text htext
    rcases List.mem_cons.1 htext with rfl | htext
    · exact Address.standardized_of_tryEncode haddress
    · obtain ⟨tag, htag, rfl⟩ := List.mem_map.1 htext
      exact standardized_structTag hstructTag tag (Option.mem_toList.1 htag)
  | TableItems =>
    obtain ⟨tableitem, -, hok⟩ := tableItemRow_of_buildFamily hfamily (Option.mem_toList.1 hrow)
    obtain ⟨address, changeType, haddress, -, rfl⟩ := tableItemRow_eq_ok hok
    intro text htext
    obtain rfl := List.mem_singleton.1 htext
    exact Address.standardized_of_tryEncode haddress
  | Transactions => exact absurd hrow List.not_mem_nil
  | Blocks => exact absurd hrow List.not_mem_nil
  | Events => exact absurd hrow List.not_mem_nil
  | Signatures => exact absurd hrow List.not_mem_nil

/-- The sender column of the strict builder is standardized. -/
theorem standardized_senderColumn {sender : Option String}
    (h : senderColumn crates tx = .ok sender) :
    ∀ text ∈ sender, Standardized text := by
  obtain ⟨address, -, h⟩ := Outcome.bind_eq_ok.1 h
  cases address with
  | some address =>
    obtain ⟨text, htext, h⟩ := Outcome.bind_eq_ok.1 h
    obtain rfl := Outcome.ok.inj h
    rintro _ ⟨⟩
    exact Address.standardized_of_tryEncode (Outcome.mapErr_eq_ok.1 htext)
  | none =>
    simp only at h
    split_ifs at h
    obtain rfl := Outcome.ok.inj h
    exact nofun

/-- A column that is left out on an error has the value that was computed, if any. -/
theorem lenient_eq_ok {ε α : Type} {x : Outcome ε (Option α)} {a : α}
    (h : lenient x = .ok (some a)) : x = .ok (some a) := by
  cases x with
  | ok column => rw [← Outcome.ok.inj h]
  | err error => exact nomatch h
  | panic message => exact nomatch h

/-- The sender column of the lenient builder is standardized: an address that cannot be encoded is
left out. -/
theorem standardized_lenientSenderColumn {sender : Option String}
    (h : lenientSenderColumn crates tx = .ok sender) : ∀ text ∈ sender, Standardized text := by
  rintro text ⟨⟩
  unfold lenientSenderColumn at h
  split at h
  · obtain ⟨encoded, hencoded, hsome⟩ := Outcome.bind_eq_ok.1 (lenient_eq_ok h)
    obtain rfl := Option.some.inj (Outcome.ok.inj hsome)
    exact Address.standardized_of_tryEncode hencoded
  · split_ifs at h
    exact nomatch h
  · exact nomatch h
  · exact nomatch h

end Encoded

/-! ## Columns that are copied -/

/-- The payload of some transaction data is published: it is there, and it can be encoded. -/
def PublishesPayload (crates : Crates) (data : TxnData) (payload : Rows.Payload) : Prop :=
  ∃ extract, (TxDataExtract.mk data).payload = .ok (some extract) ∧
    extract.tryEncode crates = .ok payload

section Copied

variable {crates : Crates} {tx : TransactionExtraction}

/-- The strict builder publishes the payload of the data. -/
theorem payloadColumns_eq_ok {column : Option Rows.Payload} {type : Option String}
    (h : payloadColumns crates tx = .ok (column, type)) {payload : Rows.Payload} :
    column = some payload ↔ PublishesPayload crates tx.tx_data.txndata payload := by
  obtain ⟨extract, hextract, h⟩ := Outcome.bind_eq_ok.1 h
  rw [Outcome.mapErr_eq_ok] at hextract
  cases extract with
  | none =>
    obtain ⟨rfl, rfl⟩ := Prod.mk.inj (Outcome.ok.inj h)
    refine ⟨nofun, fun ⟨extract, hother, _⟩ => ?_⟩
    exact nomatch Outcome.ok.inj (hextract.symm.trans hother)
  | some extract =>
    obtain ⟨encoded, hencoded, h⟩ := Outcome.bind_eq_ok.1 h
    obtain ⟨payloadType, -, h⟩ := Outcome.bind_eq_ok.1 h
    obtain ⟨rfl, rfl⟩ := Prod.mk.inj (Outcome.ok.inj h)
    rw [Outcome.mapErr_eq_ok] at hencoded
    constructor
    · rintro ⟨⟩
      exact ⟨extract, hextract, hencoded⟩
    · rintro ⟨extract', hother, hencode⟩
      obtain rfl := Option.some.inj (Outcome.ok.inj (hextract.symm.trans hother))
      rw [Outcome.ok.inj (hencoded.symm.trans hencode)]

/-- The lenient builder publishes it too, if it can be encoded. -/
theorem lenientPayloadColumns_eq_ok {column : Option Rows.Payload} {type : Option String}
    (h : lenientPayloadColumns crates tx = .ok (column, type)) {payload : Rows.Payload} :
    column = some payload ↔ PublishesPayload crates tx.tx_data.txndata payload := by
  unfold lenientPayloadColumns at h
  split at h
  case h_1 hextract =>
    obtain ⟨rfl, rfl⟩ := Prod.mk.inj (Outcome.ok.inj h)
    constructor
    · intro hsome
      cases hsome
    · rintro ⟨extract, hother, -⟩
      cases Outcome.ok.inj (hextract.symm.trans hother)
  case h_2 extract hextract =>
    have hcolumn : column = (extract.tryEncode crates).toOption := by
      split at h
      · cases h
      · cases h
      · obtain ⟨hcolumn, -⟩ := Prod.mk.inj (Outcome.ok.inj h)
        exact hcolumn.symm
    rw [hcolumn]
    constructor
    · intro hsome
      refine ⟨extract, hextract, ?_⟩
      cases hcase : extract.tryEncode crates <;> simp_all [Outcome.toOption]
    · rintro ⟨extract', hother, hencode⟩
      obtain rfl := Option.some.inj (Outcome.ok.inj (hextract.symm.trans hother))
      rw [hencode, Outcome.toOption]
  case h_3 error hextract =>
    obtain ⟨rfl, rfl⟩ := Prod.mk.inj (Outcome.ok.inj h)
    constructor
    · intro hsome
      cases hsome
    · rintro ⟨extract, hother, -⟩
      cases hextract.symm.trans hother
  case h_4 => cases h

end Copied

/-! ## What is copied -/

/-- The `execute_as` of a write set: a direct one has none. -/
def writeSetAddresses : WriteSet → List String
  | .ScriptWriteSet sws => [sws.execute_as]
  | .DirectWriteSet => []

/-- The texts of a user's payload that are published as addresses without being encoded. -/
def copiedAddresses : PayloadData → List String
  | .MultisigPayload data => [data.multisig_address]
  | .WriteSetPayload data => (data.write_set.bind (·.write_set)).toList.flatMap writeSetAddresses
  | _ => []

/-- The texts of a transaction that are published as addresses without being encoded. -/
def rawAddresses : TxnData → List String
  | .User data => ((data.request.bind (·.payload)).bind (·.payload)).toList.flatMap copiedAddresses
  | .Genesis data => (data.payload.bind (·.write_set)).toList.flatMap writeSetAddresses
  | _ => []

/-- The two address columns of an encoded payload. -/
theorem addressColumns_of_tryEncode {crates : Crates} {extract : TxPayloadExtract}
    {payload : Rows.Payload} (h : extract.tryEncode crates = .ok payload) :
    payload.multisig_address = extract.multisigAddress ∧
      extract.executeAs = .ok payload.execute_as := by
  obtain ⟨function, -, h⟩ := Outcome.bind_eq_ok.1 h
  obtain ⟨typeArguments, -, h⟩ := Outcome.bind_eq_ok.1 h
  obtain ⟨arguments, -, h⟩ := Outcome.bind_eq_ok.1 h
  obtain ⟨code, -, h⟩ := Outcome.bind_eq_ok.1 h
  obtain ⟨executeAs, hexecuteAs, h⟩ := Outcome.bind_eq_ok.1 h
  obtain rfl := Outcome.ok.inj h
  exact ⟨rfl, hexecuteAs⟩

/-- The addresses of an encoded user payload are the texts of its data. -/
theorem payloadAddresses_of_data {crates : Crates} {type : PayloadType} {data : PayloadData}
    {payload : Rows.Payload}
    (h : (TxPayloadExtract.mk (some type) (some data) none).tryEncode crates = .ok payload) :
    payloadAddresses payload = copiedAddresses data := by
  obtain ⟨hmultisig, hexecuteAs⟩ := addressColumns_of_tryEncode h
  rw [payloadAddresses, hmultisig]
  cases data with
  | WriteSetPayload data =>
    obtain ⟨writeSet, hwriteSet, hexecuteAs⟩ := Outcome.bind_eq_ok.1 hexecuteAs
    have hinner : data.write_set.bind (·.write_set) = some writeSet := by
      rw [TxPayloadExtract.extractWritesetpayload] at hwriteSet
      simp only at hwriteSet
      split at hwriteSet
      case h_1 outer houter =>
        split at hwriteSet
        case h_1 inner hinner =>
          rw [houter, ← Outcome.ok.inj hwriteSet]
          exact hinner
        case h_2 => exact nomatch hwriteSet
      case h_2 => exact nomatch hwriteSet
    rw [copiedAddresses, hinner]
    cases writeSet with
    | ScriptWriteSet sws =>
      rw [← Outcome.ok.inj hexecuteAs]
      rfl
    | DirectWriteSet => exact nomatch hexecuteAs
  | MultisigPayload data =>
    rw [← Outcome.ok.inj hexecuteAs]
    rfl
  | EntryFunctionPayload data =>
    rw [← Outcome.ok.inj hexecuteAs]
    rfl
  | ScriptPayload data =>
    rw [← Outcome.ok.inj hexecuteAs]
    rfl
  | EncryptedTransactionPayload =>
    rw [← Outcome.ok.inj hexecuteAs]
    rfl

/-- The addresses of the encoded genesis write set are the texts of the write set. -/
theorem payloadAddresses_of_writeSet {crates : Crates} {writeSet : WriteSet}
    {payload : Rows.Payload}
    (h : (TxPayloadExtract.ofWriteSet writeSet).tryEncode crates = .ok payload) :
    payloadAddresses payload = writeSetAddresses writeSet := by
  obtain ⟨hmultisig, hexecuteAs⟩ := addressColumns_of_tryEncode h
  rw [payloadAddresses, hmultisig]
  cases writeSet <;> rw [← Outcome.ok.inj hexecuteAs] <;> rfl

/-- Converting a user's payload keeps its data. -/
theorem tryFrom_eq_ok {value : TransactionPayload} {extract : TxPayloadExtract}
    (h : TxPayloadExtract.tryFrom value = .ok extract) :
    ∃ type data, value.payload = some data ∧ extract = ⟨some type, some data, none⟩ := by
  unfold TxPayloadExtract.tryFrom at h
  split at h
  case h_1 data _ hdata => exact ⟨_, _, hdata, (Outcome.ok.inj h).symm⟩
  case h_2 data _ hdata => exact ⟨_, _, hdata, (Outcome.ok.inj h).symm⟩
  case h_3 data _ hdata => exact ⟨_, _, hdata, (Outcome.ok.inj h).symm⟩
  case h_4 data _ hdata => exact ⟨_, _, hdata, (Outcome.ok.inj h).symm⟩
  case h_5 _ hdata => exact ⟨_, _, hdata, (Outcome.ok.inj h).symm⟩
  all_goals exact nomatch h

/-- The addresses of a published payload are the texts of the message. -/
theorem PublishesPayload.payloadAddresses_eq {crates : Crates} {data : TxnData}
    {payload : Rows.Payload} (h : PublishesPayload crates data payload) :
    payloadAddresses payload = rawAddresses data := by
  obtain ⟨extract, hextract, hencode⟩ := h
  cases data with
  | User userdata =>
    obtain ⟨request, hrequest, hextract⟩ := Outcome.bind_eq_ok.1 hextract
    have hrequest : userdata.request = request := by
      simp only [TxDataExtract.userRequest] at hrequest
      split at hrequest
      case h_1 hsome => rw [hsome, ← Outcome.ok.inj hrequest]
      case h_2 => exact nomatch hrequest
    cases request with
    | none => exact nomatch hextract
    | some request =>
      simp only at hextract
      split at hextract
      case h_1 value hvalue =>
        obtain ⟨converted, hconverted, hextract⟩ := Outcome.bind_eq_ok.1 hextract
        obtain rfl := Option.some.inj (Outcome.ok.inj hextract)
        obtain ⟨type, data, hdata, rfl⟩ := tryFrom_eq_ok (Outcome.mapErr_eq_ok.1 hconverted)
        rw [payloadAddresses_of_data hencode, rawAddresses, hrequest]
        simp [hvalue, hdata]
      case h_2 => exact nomatch hextract
  | Genesis genesisdata =>
    simp only [TxDataExtract.payload] at hextract
    split at hextract
    case h_1 message hmessage =>
      split at hextract
      case h_1 writeSet hwriteSet =>
        obtain rfl := Option.some.inj (Outcome.ok.inj hextract)
        rw [payloadAddresses_of_writeSet hencode, rawAddresses, hmessage]
        simp [hwriteSet]
      case h_2 => exact nomatch hextract
    case h_2 => exact nomatch hextract
  | BlockMetadata data => exact nomatch hextract
  | StateCheckpoint => exact nomatch hextract
  | Validator data => exact nomatch hextract
  | BlockEpilogue => exact nomatch hextract

/-! ## The result -/

section Result

variable {crates : Crates} {tx : TransactionExtraction}

/-- What the columns of a transaction row that hold addresses say. -/
theorem addresses_of_getTransactions {sigCnt : Option ℕ} {row : Rows.Transaction}
    (h : getTransactions crates tx sigCnt = .ok row) :
    (∀ text ∈ row.sender, Standardized text) ∧
      ∀ payload, row.payload = some payload ↔
        PublishesPayload crates tx.tx_data.txndata payload := by
  obtain ⟨timestamp, txType, number, changes, columns, -, hcolumns, rfl⟩ :=
    getTransactions_eq_ok h
  rcases hcolumns with ⟨-, hstrict⟩ | ⟨-, hlenient⟩
  · have hpayload := fun payload => @payloadColumns_eq_ok crates tx _ _ hstrict.payload payload
    exact ⟨standardized_senderColumn hstrict.sender, hpayload⟩
  · have hpayload :=
      fun payload => @lenientPayloadColumns_eq_ok crates tx _ _ hlenient.payload payload
    exact ⟨standardized_lenientSenderColumn hlenient.sender, hpayload⟩

/-- The addresses in the tables other than the transactions are standardized. -/
theorem standardized_of_extracts {value : Input.Transaction} {records : Rows.Records}
    (h : extractRecords crates value = .ok records) {table : Table}
    (hne : table ≠ .Transactions) {row : table.Row} (hrow : row ∈ tableRows records table) :
    ∀ address ∈ table.addresses row, Standardized address := by
  obtain ⟨tx, block, changes, events, sigs, txRow, hstages, -⟩ := extractRecords_eq_ok.1 h
  obtain ⟨⟨timestamp, htimestamp⟩, -⟩ := exists_columns_of_getChanges hstages.changes
  have hbuilders : OfBuilders crates tx timestamp fun table row =>
      table ≠ .Transactions → ∀ address ∈ table.addresses row, Standardized address := by
    constructor
    case transaction => exact fun _ _ _ hne => absurd rfl hne
    case block =>
      intro row hrow _ address haddress
      obtain rfl := List.mem_singleton.1 haddress
      exact standardized_proposer hrow
    case change =>
      intro columns _ item built hbuilt table row hrow _
      exact standardized_change hbuilt table hrow
    case event =>
      intro item row hrow _ address haddress
      obtain rfl := List.mem_singleton.1 haddress
      exact standardized_event hrow
    case signature =>
      intro rows hrows row hrow _ address haddress
      obtain rfl := List.mem_singleton.1 haddress
      exact standardized_signer hrows hrow
  exact hbuilders.forall_rows h hstages.extraction htimestamp table row hrow hne

/-- The addresses in the one row of a transaction are standardized exactly when the texts that its
payload copies are. -/
theorem standardized_transactionRow_iff {sigCnt : Option ℕ} {row : Rows.Transaction}
    (h : getTransactions crates tx sigCnt = .ok row) :
    (∀ address ∈ Table.addresses .Transactions row, Standardized address) ↔
      ((∃ payload, PublishesPayload crates tx.tx_data.txndata payload) →
        ∀ text ∈ rawAddresses tx.tx_data.txndata, Standardized text) := by
  obtain ⟨hsender, hpayload⟩ := addresses_of_getTransactions h
  constructor
  · rintro hall ⟨payload, hpublishes⟩ text htext
    rw [← hpublishes.payloadAddresses_eq] at htext
    refine hall text (List.mem_append_right _ ?_)
    exact List.mem_flatMap.2 ⟨payload, Option.mem_toList.2 ((hpayload payload).2 hpublishes), htext⟩
  · intro hraw address haddress
    rcases List.mem_append.1 haddress with haddress | haddress
    · exact hsender address (Option.mem_toList.1 haddress)
    · obtain ⟨payload, hsome, haddress⟩ := List.mem_flatMap.1 haddress
      have hpublishes := (hpayload payload).1 (Option.mem_toList.1 hsome)
      rw [hpublishes.payloadAddresses_eq] at haddress
      exact hraw ⟨payload, hpublishes⟩ address haddress

end Result

/-- The addresses in all eight tables are standardized exactly when the message's own texts are that
the payload copies, if it is published. -/
theorem addressesStandardized_iff {crates : Crates} {value : Input.Transaction}
    {records : Rows.Records} (h : extractRecords crates value = .ok records) :
    AddressesStandardized records ↔
      ∀ data, value.txn_data = some data → (∃ payload, PublishesPayload crates data payload) →
        ∀ text ∈ rawAddresses data, Standardized text := by
  obtain ⟨tx, block, changes, events, sigs, row, hstages, hrecords⟩ := extractRecords_eq_ok.1 h
  have hdata := (TransactionExtraction.tryFrom_spec hstages.extraction).2.txn_data
  have hrow := standardized_transactionRow_iff hstages.row
  have hrows : tableRows records .Transactions = [row] := by rw [hrecords]; rfl
  constructor
  · intro hall data hsome
    obtain rfl := Option.some.inj (hdata.symm.trans hsome)
    exact hrow.1 (hall .Transactions row (hrows ▸ List.mem_singleton_self row))
  · intro hraw table r hr
    by_cases htable : table = .Transactions
    · subst htable
      rw [hrows] at hr
      obtain rfl := List.mem_singleton.1 hr
      exact hrow.2 (hraw _ hdata)
    · exact standardized_of_extracts h htable hr

/-- The addresses of a user transaction whose payload names an address in its short form. -/
theorem addressesStandardized_iff_sampleUser :
    ∃ records, extractRecords sampleCrates sampleUser = .ok records ∧
      (AddressesStandardized records ↔
        ∀ data, sampleUser.txn_data = some data →
          (∃ payload, PublishesPayload sampleCrates data payload) →
            ∀ text ∈ rawAddresses data, Standardized text) := by
  obtain ⟨records, h⟩ := exists_records_sampleUser
  exact ⟨records, h, addressesStandardized_iff h⟩

/-- The address `0x1` of a multisig account is published as it is. -/
theorem addresses_not_standardized :
    ¬ ∀ (crates : Crates) (value : Input.Transaction) (records : Rows.Records),
      extractRecords crates value = .ok records → AddressesStandardized records := by
  intro hall
  have hrows : (extractRecords sampleCrates sampleUser).toOption.map
      (fun records => decide ("0x1" ∈ (tableRows records .Transactions).flatMap
        (Table.addresses .Transactions))) = some true := by
    decide
  obtain ⟨records, h, hmem⟩ := Outcome.map_toOption_eq_some.1 hrows
  have hmem : "0x1" ∈ (tableRows records .Transactions).flatMap (Table.addresses .Transactions) :=
    of_decide_eq_true hmem
  obtain ⟨row, hrow, haddress⟩ := List.mem_flatMap.1 hmem
  obtain ⟨digits, htext, hlength, -⟩ := hall _ _ records h .Transactions row hrow "0x1" haddress
  have hlong : ("0x1" : String).toList.length = 2 + 64 := by
    rw [htext, List.length_append, hlength]
    rfl
  exact absurd hlong (by decide +kernel)

end AptosEtl.Tables
