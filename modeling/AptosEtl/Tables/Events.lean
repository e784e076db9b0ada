import AptosEtl.Lib.Aligned
import AptosEtl.Reps.Signatures
import AptosEtl.Tables.Changes

/-!
# Blocks, events and signatures

`tables/blocks.rs`, `tables/events.rs` and `tables/signatures.rs`. Each of these tables takes its
rows from one part of the transaction data and is empty, without an error, for the transaction
types that do not have that part. The pass over the events is the one place of the transformation
where a panic is alive: `getEvents_settles_iff` says on which transactions it is reached.
-/

namespace AptosEtl.Tables

open Rust Input Reps

variable {crates : Crates}

/-! ## Blocks -/

/-- The errors of `get_block`. -/
inductive BlockError where
  | Timestamp (error : TimestampError)
  | TxDataExtract (error : TxDataExtractError)

/-- `get_block`. -/
def getBlock (crates : Crates) (tx : TransactionExtraction) :
    Outcome BlockError (Option Rows.Block) :=
  match tx.tx_data.blockmetadata with
  | none => .ok none
  | some bmd =>
    (tx.getEncodedTimestamp crates).mapErr .Timestamp |>.bind fun timestamp =>
      (tx.tx_data.encodedProposer crates).mapErr .TxDataExtract |>.bind fun encoded =>
        (Outcome.expect encoded "Should be returned since blockmetadata").bind fun proposer =>
          .ok (some {
            block_hash := bmd.id
            block_timestamp := timestamp
            block_height := tx.blockheight
            round := bmd.round
            previous_block_votes_bitvec := crates.base64 bmd.previous_block_votes_bitvec
            proposer := proposer
            blockmetadata_tx_version := tx.version
            block_unixtimestamp := tx.getUnixTimestamp })

/-- There is a block for the block metadata of a transaction, and none without. -/
theorem getBlock_eq_ok {crates : Crates} {tx : TransactionExtraction} {block : Option Rows.Block}
    (h : getBlock crates tx = .ok block) :
    (tx.tx_data.blockmetadata = none ∧ block = none) ∨
      ∃ bmd timestamp proposer, tx.tx_data.blockmetadata = some bmd ∧
        tx.getEncodedTimestamp crates = .ok timestamp ∧
          tx.tx_data.encodedProposer crates = .ok (some proposer) ∧ block = some {
            block_hash := bmd.id
            block_timestamp := timestamp
            block_height := tx.blockheight
            round := bmd.round
            previous_block_votes_bitvec := crates.base64 bmd.previous_block_votes_bitvec
            proposer := proposer
            blockmetadata_tx_version := tx.version
            block_unixtimestamp := tx.getUnixTimestamp } := by
  unfold getBlock at h
  split at h
  case h_1 hnone => exact .inl ⟨hnone, (Outcome.ok.inj h).symm⟩
  case h_2 bmd hbmd =>
    obtain ⟨timestamp, htimestamp, h⟩ := Outcome.bind_eq_ok.1 h
    obtain ⟨encoded, hencoded, h⟩ := Outcome.bind_eq_ok.1 h
    obtain ⟨proposer, hproposer, h⟩ := Outcome.bind_eq_ok.1 h
    obtain rfl := Outcome.expect_eq_ok.1 hproposer
    rw [Outcome.mapErr_eq_ok] at htimestamp hencoded
    exact .inr ⟨bmd, timestamp, proposer, hbmd, htimestamp, hencoded, (Outcome.ok.inj h).symm⟩

/-- A block is of its transaction. -/
theorem getBlock_spec {crates : Crates} {tx : TransactionExtraction} {block : Rows.Block}
    (h : getBlock crates tx = .ok (some block)) :
    block.blockmetadata_tx_version = tx.version ∧
      block.block_unixtimestamp = tx.getUnixTimestamp := by
  obtain ⟨-, hnone⟩ | ⟨bmd, timestamp, proposer, -, -, -, hsome⟩ := getBlock_eq_ok h
  · exact nomatch hnone
  · obtain rfl := Option.some.inj hsome
    exact ⟨rfl, rfl⟩

/-- Building the block returns: a block-metadata transaction has a proposer, so the `expect` is
dead. -/
theorem getBlock_settles (crates : Crates) (tx : TransactionExtraction) :
    (getBlock crates tx).Settles := by
  unfold getBlock
  split
  · exact Outcome.settles_ok _
  case h_2 bmd hbmd =>
    refine (Timestamp.tryEncode_settles _ _).mapErr.bind fun _ _ => ?_
    refine (TxDataExtract.encodeAddress_settles crates _).mapErr.bind
      fun encoded hencoded => ?_
    refine Outcome.Settles.bind ?_ fun _ _ => Outcome.settles_ok _
    -- the block metadata is the data, so the proposer that is encoded is there
    have hsome : encoded.isSome = true := by
      rw [TxDataExtract.isSome_of_encodeAddress_eq_ok (Outcome.mapErr_eq_ok.1 hencoded),
        TxDataExtract.proposer, hbmd]
      rfl
    obtain ⟨proposer, rfl⟩ := Option.isSome_iff_exists.1 hsome
    exact Outcome.settles_ok _

/-! ## Events -/

/-- The errors of `get_events`. -/
inductive EventError where
  | EventExtraction (error : EventExtractionError)
  | Timestamp (error : TimestampError)
  | Address (error : AddressError)
  | TxDataExtract (error : TxDataExtractError)

/-- The body of the loop of `get_events`. -/
def eventRow (crates : Crates) (tx : TransactionExtraction) (timestamp hash : String)
    (item : Input.Event × ℕ) : Outcome EventError Rows.Event :=
  (EventExtraction.tryFrom crates item.1).mapErr .EventExtraction |>.bind fun extraction =>
    tx.tx_data.sequenceNumber.mapErr .TxDataExtract |>.bind fun number =>
      (extraction.address.tryEncode crates).mapErr .Address |>.bind fun address =>
        .ok {
          block_height := tx.blockheight
          block_timestamp := timestamp
          tx_version := tx.version
          tx_hash := hash
          tx_sequence_number := (sequenceNumberColumns number).1
          tx_sequence_number_big := (sequenceNumberColumns number).2
          event_index := item.2
          event_type := extraction.type_str
          address := address
          creation_num := extraction.creation_number
          sequence_number := extraction.sequence_number
          data := extraction.data
          block_unixtimestamp := tx.getUnixTimestamp }

/-- `get_events`. -/
def getEvents (crates : Crates) (tx : TransactionExtraction) :
    Outcome EventError (Option (List Rows.Event)) :=
  match tx.tx_data.events with
  | some events =>
    (tx.getEncodedTimestamp crates).mapErr .Timestamp |>.bind fun timestamp =>
      (Outcome.tryMap (eventRow crates tx timestamp (tx.getEncodedHash crates)) events.zipIdx).bind
        fun records => .ok (some records)
  | none => .ok none

/-- The row of an event is made of its extraction and of the columns of its transaction. -/
theorem eventRow_eq_ok {crates : Crates} {tx : TransactionExtraction} {timestamp hash : String}
    {item : Input.Event × ℕ} {row : Rows.Event}
    (h : eventRow crates tx timestamp hash item = .ok row) :
    ∃ extraction number address, EventExtraction.tryFrom crates item.1 = .ok extraction ∧
      tx.tx_data.sequenceNumber = .ok number ∧
        extraction.address.tryEncode crates = .ok address ∧ row = {
        block_height := tx.blockheight
        block_timestamp := timestamp
        tx_version := tx.version
        tx_hash := hash
        tx_sequence_number := (sequenceNumberColumns number).1
        tx_sequence_number_big := (sequenceNumberColumns number).2
        event_index := item.2
        event_type := extraction.type_str
        address := address
        creation_num := extraction.creation_number
        sequence_number := extraction.sequence_number
        data := extraction.data
        block_unixtimestamp := tx.getUnixTimestamp } := by
  obtain ⟨extraction, hextraction, h⟩ := Outcome.bind_eq_ok.1 h
  obtain ⟨number, hnumber, h⟩ := Outcome.bind_eq_ok.1 h
  obtain ⟨address, haddress, h⟩ := Outcome.bind_eq_ok.1 h
  rw [Outcome.mapErr_eq_ok] at hextraction hnumber haddress
  exact ⟨extraction, number, address, hextraction, hnumber, haddress, (Outcome.ok.inj h).symm⟩

/-- There is a row for each event of a transaction, at its place. -/
theorem getEvents_eq_ok {crates : Crates} {tx : TransactionExtraction}
    {records : Option (List Rows.Event)} (h : getEvents crates tx = .ok records) :
    (tx.tx_data.events = none ∧ records = none) ∨
      ∃ events timestamp rows, tx.tx_data.events = some events ∧
        tx.getEncodedTimestamp crates = .ok timestamp ∧
          List.Forall₂ (fun item row =>
            eventRow crates tx timestamp (tx.getEncodedHash crates) item = .ok row)
            events.zipIdx rows ∧
            records = some rows := by
  unfold getEvents at h
  split at h
  case h_1 events hevents =>
    obtain ⟨timestamp, htimestamp, h⟩ := Outcome.bind_eq_ok.1 h
    obtain ⟨rows, hrows, h⟩ := Outcome.bind_eq_ok.1 h
    exact .inr ⟨events, timestamp, rows, hevents, Outcome.mapErr_eq_ok.1 htimestamp,
      Outcome.tryMap_eq_ok.1 hrows, (Outcome.ok.inj h).symm⟩
  case h_2 hnone => exact .inl ⟨hnone, (Outcome.ok.inj h).symm⟩

/-- An event row is of its transaction. -/
theorem eventRow_spec {crates : Crates} {tx : TransactionExtraction} {timestamp hash : String}
    {item : Input.Event × ℕ} {row : Rows.Event}
    (h : eventRow crates tx timestamp hash item = .ok row) :
    row.tx_version = tx.version ∧ row.block_unixtimestamp = tx.getUnixTimestamp := by
  obtain ⟨extraction, number, address, -, -, -, rfl⟩ := eventRow_eq_ok h
  exact ⟨rfl, rfl⟩

/-- There are as many event rows as events, all of the transaction. -/
theorem getEvents_spec {crates : Crates} {tx : TransactionExtraction}
    {records : Option (List Rows.Event)} (h : getEvents crates tx = .ok records) :
    records.map List.length = tx.tx_data.events.map List.length ∧
      ∀ rows ∈ records, ∀ row ∈ rows,
        row.tx_version = tx.version ∧ row.block_unixtimestamp = tx.getUnixTimestamp := by
  obtain ⟨hevents, rfl⟩ | ⟨events, timestamp, rows, hevents, -, hrows, rfl⟩ := getEvents_eq_ok h
  · exact ⟨by simp [hevents], nofun⟩
  · have hlength := hrows.length_eq
    refine ⟨by simpa [hevents] using hlength.symm, ?_⟩
    rintro _ ⟨⟩ row hrow
    obtain ⟨item, -, hitem⟩ := Aligned.exists_of_mem_right hrows hrow
    exact eventRow_spec hitem

/-- A step of the loop returns exactly when extracting its event does. -/
theorem eventRow_settles_iff (crates : Crates) (tx : TransactionExtraction)
    (timestamp hash : String) (item : Input.Event × ℕ) :
    (eventRow crates tx timestamp hash item).Settles ↔
      (EventExtraction.tryFrom crates item.1).Settles := by
  constructor
  · intro h
    have hfirst := h.of_bind
    rwa [Outcome.settles_mapErr] at hfirst
  · intro h
    refine h.mapErr.bind fun _ _ => ?_
    refine (TxDataExtract.sequenceNumber_settles _).mapErr.bind fun _ _ => ?_
    exact (Address.tryEncode_settles _).mapErr.bind fun _ _ =>
      Outcome.settles_ok _

/-- The row of an event can be built, in a transaction whose other columns can. -/
def EventBuilds (crates : Crates) (event : Input.Event) : Prop :=
  ∃ extraction address, EventExtraction.tryFrom crates event = .ok extraction ∧
    extraction.address.tryEncode crates = .ok address

/-- A step of the loop gives a row exactly when its event can be built, and the number of the
transaction is known. -/
theorem exists_eventRow_iff {crates : Crates} {tx : TransactionExtraction}
    (timestamp hash : String) (item : Input.Event × ℕ) :
    (∃ row, eventRow crates tx timestamp hash item = .ok row) ↔
      EventBuilds crates item.1 ∧ ∃ number, tx.tx_data.sequenceNumber = .ok number := by
  constructor
  · rintro ⟨row, h⟩
    obtain ⟨extraction, number, address, hextraction, hnumber, haddress, -⟩ := eventRow_eq_ok h
    exact ⟨⟨extraction, address, hextraction, haddress⟩, number, hnumber⟩
  · rintro ⟨⟨extraction, address, hextraction, haddress⟩, number, hnumber⟩
    simp only [eventRow, hextraction, hnumber, haddress, Outcome.mapErr_ok, Outcome.ok_bind]
    exact ⟨_, rfl⟩

/-- The pass over the events of a transaction gets as far as an event: the timestamp of the rows can
be written, and the rows of the events before this one can be built. -/
structure PassReaches (crates : Crates) (tx : TransactionExtraction) (event : Input.Event) :
    Prop where
  timestamp : ∃ timestamp, tx.getEncodedTimestamp crates = .ok timestamp
  exists_split : ∃ done rest, tx.tx_data.events = some (done ++ event :: rest) ∧
    ∀ prior ∈ done, EventBuilds crates prior ∧ ∃ number, tx.tx_data.sequenceNumber = .ok number

/-- The pass over the events panics exactly when it reaches an event that is not malformed and whose
data is not JSON. -/
theorem getEvents_settles_iff (crates : Crates) (tx : TransactionExtraction) :
    (getEvents crates tx).Settles ↔
      ∀ event, PassReaches crates tx event →
        EventExtraction.Malformed event ∨ crates.isJson event.data = true := by
  cases hevents : tx.tx_data.events with
  | none =>
    refine iff_of_true (by simp [getEvents, hevents]) fun event hreaches => ?_
    obtain ⟨done, rest, hsplit, -⟩ := hreaches.exists_split
    exact nomatch hevents.symm.trans hsplit
  | some events =>
    -- the timestamp comes first, and then only the loop can panic
    have hloop : (getEvents crates tx).Settles ↔
        ∀ timestamp, tx.getEncodedTimestamp crates = .ok timestamp →
          (Outcome.tryMap (eventRow crates tx timestamp (tx.getEncodedHash crates))
            events.zipIdx).Settles := by
      simp only [getEvents, hevents]
      have htimestamp : (tx.getEncodedTimestamp crates).Settles := Timestamp.tryEncode_settles _ _
      rw [Outcome.settles_bind_iff htimestamp.mapErr]
      simp only [Outcome.mapErr_eq_ok, Outcome.settles_bind_ok]
    rw [hloop]
    simp only [Outcome.settles_tryMap_iff, eventRow_settles_iff,
      EventExtraction.tryFrom_settles_iff, exists_eventRow_iff]
    constructor
    · rintro h event ⟨⟨timestamp, htimestamp⟩, done, rest, hsplit, hdone⟩
      obtain rfl := Option.some.inj (hevents.symm.trans hsplit)
      refine h timestamp htimestamp done.zipIdx (event, done.length)
        (rest.zipIdx (done.length + 1))
        (by rw [List.zipIdx_append, List.zipIdx_cons, Nat.zero_add]) fun item hitem => ?_
      exact hdone item.1 (List.fst_mem_of_mem_zipIdx hitem)
    · intro h timestamp htimestamp done item rest hsplit hdone
      have hfst := congrArg (List.map Prod.fst) hsplit
      rw [List.zipIdx_map_fst, List.map_append, List.map_cons] at hfst
      refine h item.1 ⟨⟨timestamp, htimestamp⟩, _, _, hfst ▸ hevents, fun prior hprior => ?_⟩
      obtain ⟨item', hitem', rfl⟩ := List.mem_map.1 hprior
      exact hdone item' hitem'

/-! ## Signatures -/

/-- The errors of `get_signatures`. -/
inductive SigProcessError where
  | TxDataExtract (error : TxDataExtractError)
  | SubRecordFailure (error : SignatureError)
  | Timestamp (error : TimestampError)
  | DeferredError
  | Address (error : AddressError)

/-- The `signer` column: a signer that stays open is the sender. -/
def signerColumn (crates : Crates) (signer : Deferred Address) (defaultSigner : String) :
    Outcome SigProcessError String :=
  match signer.extract with
  | some addr => (addr.tryEncode crates).mapErr .Address
  | none => .ok defaultSigner

/-- The body of the loop of `get_signatures`. -/
def signatureRow (crates : Crates) (tx : TransactionExtraction)
    (timestamp hash defaultSigner : String)
    (subrecord : SignatureSubRecord) : Outcome SigProcessError Rows.Signature :=
  (Outcome.ofOption subrecord.is_secondary.extract .DeferredError).bind fun isSecondary =>
    (Outcome.ofOption subrecord.is_feepayer.extract .DeferredError).bind fun isFeePayer =>
      (Outcome.ofOption subrecord.is_sender.extract .DeferredError).bind fun isSender =>
        (Outcome.ofOption subrecord.buildtype.extract .DeferredError).bind fun buildType =>
          (signerColumn crates subrecord.signer defaultSigner).bind fun signer =>
            .ok {
              block_height := tx.blockheight
              block_timestamp := timestamp
              tx_version := tx.version
              tx_hash := hash
              threshold := subrecord.threshold
              is_secondary := isSecondary
              is_fee_payer := isFeePayer
              is_sender := isSender
              signature := subrecord.signature
              public_key := subrecord.public_key
              build_type := buildType.asStrName
              signer := signer
              block_unixtimestamp := tx.getUnixTimestamp }

/-- `get_signatures`. -/
def getSignatures (crates : Crates) (tx : TransactionExtraction) :
    Outcome SigProcessError (Option (List Rows.Signature)) :=
  tx.tx_data.signature.mapErr .TxDataExtract |>.bind fun
    | none => .ok none
    | some signature =>
      (SignatureSubRecord.fromSignature crates signature).mapErr .SubRecordFailure |>.bind
        fun subrecords =>
          (tx.getEncodedTimestamp crates).mapErr .Timestamp |>.bind fun timestamp =>
            (tx.tx_data.encodedSender crates).mapErr .TxDataExtract |>.bind fun sender =>
              (Outcome.expect sender "Should be usertx").bind fun defaultSigner =>
                (Outcome.tryMap
                  (signatureRow crates tx timestamp (tx.getEncodedHash crates) defaultSigner)
                  subrecords).bind fun records => .ok (some records)

/-- A signature row is of its transaction. -/
theorem signatureRow_spec {tx : TransactionExtraction} {timestamp hash defaultSigner : String}
    {subrecord : SignatureSubRecord} {row : Rows.Signature}
    (h : signatureRow crates tx timestamp hash defaultSigner subrecord = .ok row) :
    row.tx_version = tx.version ∧ row.block_unixtimestamp = tx.getUnixTimestamp := by
  obtain ⟨isSecondary, -, h⟩ := Outcome.bind_eq_ok.1 h
  obtain ⟨isFeePayer, -, h⟩ := Outcome.bind_eq_ok.1 h
  obtain ⟨isSender, -, h⟩ := Outcome.bind_eq_ok.1 h
  obtain ⟨buildType, -, h⟩ := Outcome.bind_eq_ok.1 h
  obtain ⟨signer, -, h⟩ := Outcome.bind_eq_ok.1 h
  obtain rfl := Outcome.ok.inj h
  exact ⟨rfl, rfl⟩

/-- There are signature rows exactly for a user transaction, all of the transaction. -/
theorem getSignatures_spec {crates : Crates} {tx : TransactionExtraction}
    {records : Option (List Rows.Signature)} (h : getSignatures crates tx = .ok records) :
    (records.isSome = true ↔ ∃ userdata, tx.tx_data.txndata = .User userdata) ∧
      ∀ rows ∈ records, ∀ row ∈ rows,
        row.tx_version = tx.version ∧ row.block_unixtimestamp = tx.getUnixTimestamp := by
  obtain ⟨signature, hsignature, h⟩ := Outcome.bind_eq_ok.1 h
  rw [← TxDataExtract.signature_eq_ok (Outcome.mapErr_eq_ok.1 hsignature)]
  cases signature with
  | none =>
    obtain rfl := Outcome.ok.inj h
    exact ⟨Iff.rfl, nofun⟩
  | some signature =>
    obtain ⟨subrecords, -, h⟩ := Outcome.bind_eq_ok.1 h
    obtain ⟨timestamp, -, h⟩ := Outcome.bind_eq_ok.1 h
    obtain ⟨sender, -, h⟩ := Outcome.bind_eq_ok.1 h
    obtain ⟨defaultSigner, -, h⟩ := Outcome.bind_eq_ok.1 h
    obtain ⟨rows, hrows, h⟩ := Outcome.bind_eq_ok.1 h
    obtain rfl := Outcome.ok.inj h
    refine ⟨Iff.rfl, ?_⟩
    rintro _ ⟨⟩ row hrow
    obtain ⟨subrecord, -, hsubrecord⟩ := Outcome.exists_of_mem_tryMap hrows hrow
    exact signatureRow_spec hsubrecord

/-- A step of the loop returns. -/
theorem signatureRow_settles (tx : TransactionExtraction)
    (timestamp hash defaultSigner : String) (subrecord : SignatureSubRecord) :
    (signatureRow crates tx timestamp hash defaultSigner subrecord).Settles := by
  refine (Outcome.settles_ofOption _ _).bind fun _ _ => ?_
  refine (Outcome.settles_ofOption _ _).bind fun _ _ => ?_
  refine (Outcome.settles_ofOption _ _).bind fun _ _ => ?_
  refine (Outcome.settles_ofOption _ _).bind fun _ _ => ?_
  refine Outcome.Settles.bind ?_ fun _ _ => Outcome.settles_ok _
  unfold signerColumn
  split
  · exact Outcome.settles_mapErr.2 (Address.tryEncode_settles _)
  · exact Outcome.settles_ok _

/-- Building the signatures returns: a transaction with a signature has a sender, so the `expect`
is dead. -/
theorem getSignatures_settles (crates : Crates) (tx : TransactionExtraction) :
    (getSignatures crates tx).Settles := by
  refine (TxDataExtract.signature_settles _).mapErr.bind
    fun signature hsignature => ?_
  have hsignature := TxDataExtract.signature_eq_ok (Outcome.mapErr_eq_ok.1 hsignature)
  cases signature with
  | none => exact Outcome.settles_ok _
  | some signature =>
    refine (SignatureSubRecord.fromSignature_settles _).mapErr.bind
      fun _ _ => ?_
    refine (Timestamp.tryEncode_settles _ _).mapErr.bind fun _ _ => ?_
    refine (TxDataExtract.encodedSender_settles crates _).mapErr.bind
      fun sender hsender => ?_
    -- only a user transaction has a signature, and it has a sender too
    obtain ⟨userdata, huser⟩ := hsignature.1 rfl
    have hsome := TxDataExtract.encodedSender_isSome huser (Outcome.mapErr_eq_ok.1 hsender)
    obtain ⟨defaultSigner, rfl⟩ := Option.isSome_iff_exists.1 hsome
    exact (Outcome.settles_tryMap fun _ _ => signatureRow_settles _ _ _ _ _).bind fun _ _ =>
      Outcome.settles_ok _

end AptosEtl.Tables
