import AptosEtl.Tables.All

/-!
# The strict and the lenient builder

`get_successful_transaction` and `get_failed_transaction` are two copies of one function, of which
the second leaves out what the first refuses. Column by column, what the strict one computes the
lenient one computes too, with one exception: an expiration that is out of range, which both
comments leave blank and the lenient copy writes as the maximum of BigQuery
(`getFailedTransaction_eq_ok_iff`).
-/

namespace AptosEtl.Tables

open Rust Input Reps

variable {crates : Crates} {tx : TransactionExtraction}

/-! ## Columns -/

/-- A column that has a value has it when errors are left out. -/
theorem lenient_of_eq_ok {ε α : Type} {x : Outcome ε (Option α)} {a : Option α} (h : x = .ok a) :
    lenient x = .ok a := by
  rw [h, lenient]

/-- The payload columns agree. -/
theorem lenientPayloadColumns_of_eq_ok {columns : Option Rows.Payload × Option String}
    (h : payloadColumns crates tx = .ok columns) :
    lenientPayloadColumns crates tx = .ok columns := by
  obtain ⟨payload, hpayload, h⟩ := Outcome.bind_eq_ok.1 h
  rw [Outcome.mapErr_eq_ok] at hpayload
  rw [lenientPayloadColumns, hpayload]
  cases payload with
  | none => exact congrArg _ (Outcome.ok.inj h)
  | some extract =>
    obtain ⟨encoded, hencoded, h⟩ := Outcome.bind_eq_ok.1 h
    obtain ⟨type, htype, h⟩ := Outcome.bind_eq_ok.1 h
    rw [Outcome.mapErr_eq_ok] at hencoded htype
    obtain rfl := Outcome.ok.inj h
    simp only [hencoded, htype]
    rfl

/-- The sender columns agree. -/
theorem lenientSenderColumn_of_eq_ok {sender : Option String}
    (h : senderColumn crates tx = .ok sender) :
    lenientSenderColumn crates tx = .ok sender := by
  obtain ⟨address, haddress, h⟩ := Outcome.bind_eq_ok.1 h
  rw [Outcome.mapErr_eq_ok] at haddress
  rw [lenientSenderColumn, haddress]
  cases address with
  | none => exact h
  | some address =>
    obtain ⟨encoded, hencoded, h⟩ := Outcome.bind_eq_ok.1 h
    rw [Outcome.mapErr_eq_ok] at hencoded
    obtain rfl := Outcome.ok.inj h
    exact lenient_of_eq_ok (Outcome.bind_eq_ok.2 ⟨encoded, hencoded, rfl⟩)

/-- A timestamp can be written: it is not below the minimum of BigQuery, and it is a UTC time unless
it is above the maximum. -/
def InRange (crates : Crates) (timestamp : Reps.Timestamp) : Prop :=
  Timestamp.bigquerryMinTimestampSeconds ≤ timestamp.seconds ∧
    (timestamp.seconds ≤ Timestamp.bigquerryMaxTimestampSeconds →
      crates.isUtc timestamp.seconds timestamp.nanos = true)

/-- A timestamp is in range when encoding it does not say that it is out of range. -/
theorem inRange_iff {timestamp : Reps.Timestamp} :
    InRange crates timestamp ↔
      (∀ s n, timestamp.tryEncode crates ≠ .err (.OutOfRangeUtc s n)) ∧
        ∀ s n, timestamp.tryEncode crates ≠ .err (.OutOfRangeBigQuery s n) := by
  unfold Reps.Timestamp.tryEncode InRange
  split_ifs with hmin hmax hutc
  · have hge : ¬ Timestamp.bigquerryMinTimestampSeconds ≤ timestamp.seconds := by omega
    simp [hge]
  · have hle : ¬ timestamp.seconds ≤ Timestamp.bigquerryMaxTimestampSeconds := by omega
    have hge : Timestamp.bigquerryMinTimestampSeconds ≤ timestamp.seconds := by omega
    simp [hle, hge]
  · rw [Bool.not_eq_true'] at hutc
    have hle : timestamp.seconds ≤ Timestamp.bigquerryMaxTimestampSeconds := by omega
    simp [hutc, hle]
  · have hutc' : crates.isUtc timestamp.seconds timestamp.nanos = true := by simpa using hutc
    have hge : Timestamp.bigquerryMinTimestampSeconds ≤ timestamp.seconds := by omega
    cases crates.timestampFormat <;> simp [hutc', hge]

/-- Where the strict expiration column has a value, the lenient one has the same in range, and
something else out of range. -/
theorem exists_expirationColumn {expiration : Option String} {outOfRange : String}
    (h : expirationColumn crates tx none = .ok expiration) :
    ∃ expiration', expirationColumn crates tx (some outOfRange) = .ok expiration' ∧
      (expiration' = expiration ↔ ∀ timestamp,
        tx.tx_data.expirationTimestampSecs = .ok (some timestamp) → InRange crates timestamp) := by
  obtain ⟨timestamp, htimestamp, h⟩ := Outcome.bind_eq_ok.1 h
  rw [Outcome.mapErr_eq_ok] at htimestamp
  rw [expirationColumn, htimestamp, Outcome.mapErr_ok, Outcome.ok_bind]
  simp only [Outcome.ok.injEq]
  cases timestamp with
  | none =>
    obtain rfl := Outcome.ok.inj h
    exact ⟨none, rfl, iff_of_true rfl nofun⟩
  | some timestamp =>
    have hsome : (∀ t, some timestamp = some t → InRange crates t) ↔ InRange crates timestamp :=
      ⟨fun hall => hall timestamp rfl, fun hrange t ht => Option.some.inj ht ▸ hrange⟩
    rw [hsome, inRange_iff]
    simp only at h ⊢
    -- the two copies differ in what they make of the two errors
    cases hencoded : timestamp.tryEncode crates with
    | ok string =>
      rw [hencoded] at h
      obtain rfl := Outcome.ok.inj h
      exact ⟨some string, rfl, by simp⟩
    | err error =>
      rw [hencoded] at h
      cases error with
      | OutOfRangeUtc s n =>
        obtain rfl := Outcome.ok.inj h
        exact ⟨some outOfRange, rfl, by simp⟩
      | OutOfRangeBigQuery s n =>
        obtain rfl := Outcome.ok.inj h
        exact ⟨some outOfRange, rfl, by simp⟩
      | NegativeNano s n => exact nomatch h
      | FailedToLoadTimestampFormat => exact nomatch h
    | panic message =>
      rw [hencoded] at h
      exact nomatch h

/-- The count of signatures of the strict builder is the one that it is given, unless a transaction
of another type has one. -/
theorem numSignaturesColumn_eq_iff {sigCnt numSignatures : Option ℕ}
    (h : numSignaturesColumn tx sigCnt = .ok numSignatures) :
    sigCnt = numSignatures ↔ (sigCnt.isSome = true → tx.tx_type = .User) := by
  unfold numSignaturesColumn TransactionExtraction.getTxtype at h
  cases sigCnt with
  | none =>
    cases htype : tx.tx_type <;> simp_all [TransactionExtraction.convertTxtype]
  | some sigVal =>
    cases htype : tx.tx_type <;>
      simp [htype, TransactionExtraction.convertTxtype] at h <;> simp [← h]

/-! ## Rows -/

/-- The lenient builder makes a row of its columns. -/
theorem getFailedTransaction_of_columns {sigCnt : Option ℕ} {timestamp : String} {txType : TxType}
    {number : Option UInt64} {changes : Rows.ChangesAggregate} {columns : TxRowColumns}
    (hshared : SharedBy crates tx timestamp txType number changes)
    (hcolumns : LenientColumns crates tx sigCnt columns) :
    getFailedTransaction crates tx sigCnt =
      .ok (transactionRow crates tx timestamp txType number changes columns) := by
  obtain ⟨hnumber, htimestamp, htype, hchanges⟩ := hshared
  obtain ⟨hpayload, hmaxGas, hsender, hexpiration, hprice, hunix, rfl⟩ := hcolumns
  simp only [getFailedTransaction, hpayload, hnumber, htimestamp, htype, hmaxGas, hsender, hchanges,
    hexpiration, hprice, hunix, Outcome.mapErr_ok, Outcome.ok_bind]

/-- Where the strict builder makes a row, the lenient one makes a row with the same columns, but for
the expiration timestamp and the count of signatures. -/
theorem exists_getFailedTransaction {sigCnt : Option ℕ} {row : Rows.Transaction}
    (h : getSuccessfulTransaction crates tx sigCnt = .ok row) :
    ∃ expiration, getFailedTransaction crates tx sigCnt =
        .ok { row with expiration_timestamp := expiration, num_signatures := sigCnt } ∧
      (expiration = row.expiration_timestamp ↔ ∀ timestamp,
        tx.tx_data.expirationTimestampSecs = .ok (some timestamp) → InRange crates timestamp) ∧
      (sigCnt = row.num_signatures ↔ (sigCnt.isSome = true → tx.tx_type = .User)) := by
  obtain ⟨timestamp, txType, number, changes, columns, hshared, hstrict, rfl⟩ :=
    getSuccessfulTransaction_eq_ok h
  obtain ⟨expiration, hexpiration, hiff⟩ := exists_expirationColumn hstrict.expiration_timestamp
  have hunix : lenient (tx.tx_data.expirationTimestampSecs.bind fun timestamp =>
      .ok (timestamp.map Timestamp.encode)) = .ok columns.expiration_unixtimestamp := by
    obtain ⟨expiration, hsecs, hencode⟩ := Outcome.bind_eq_ok.1 hstrict.expiration_unixtimestamp
    obtain hencode := Outcome.ok.inj hencode
    exact lenient_of_eq_ok (Outcome.bind_eq_ok.2
      ⟨expiration, Outcome.mapErr_eq_ok.1 hsecs, congrArg _ hencode⟩)
  have hlenient : LenientColumns crates tx sigCnt
      { columns with expiration_timestamp := expiration, num_signatures := sigCnt } :=
    ⟨lenientPayloadColumns_of_eq_ok hstrict.payload, lenient_of_eq_ok hstrict.max_gas_amount,
      lenientSenderColumn_of_eq_ok hstrict.sender, hexpiration,
      lenient_of_eq_ok hstrict.gas_unit_price, hunix, rfl⟩
  exact ⟨expiration, getFailedTransaction_of_columns hshared hlenient, hiff,
    numSignaturesColumn_eq_iff hstrict.num_signatures⟩

/-- The rows are the same exactly when the two columns that may differ are. -/
theorem getFailedTransaction_eq_ok_iff_columns {sigCnt : Option ℕ} {row : Rows.Transaction}
    (h : getSuccessfulTransaction crates tx sigCnt = .ok row) :
    getFailedTransaction crates tx sigCnt = .ok row ↔
      (∀ timestamp, tx.tx_data.expirationTimestampSecs = .ok (some timestamp) →
        InRange crates timestamp) ∧ (sigCnt.isSome = true → tx.tx_type = .User) := by
  obtain ⟨expiration, hfailed, hexpiration, hcount⟩ := exists_getFailedTransaction h
  rw [hfailed, Outcome.ok.injEq, ← hexpiration, ← hcount]
  constructor
  · intro heq
    exact ⟨congrArg Rows.Transaction.expiration_timestamp heq,
      congrArg Rows.Transaction.num_signatures heq⟩
  · rintro ⟨hexp, hnum⟩
    rw [hexp, hnum]

/-- Where the strict builder makes a row, the lenient one makes the same row exactly when the
expiration is in range and only a user transaction carries user data. -/
theorem getFailedTransaction_eq_ok_iff {sigs : Option (List Rows.Signature)}
    {row : Rows.Transaction} (hsigs : getSignatures crates tx = .ok sigs)
    (h : getSuccessfulTransaction crates tx (sigs.map List.length) = .ok row) :
    getFailedTransaction crates tx (sigs.map List.length) = .ok row ↔
      (∀ timestamp, tx.tx_data.expirationTimestampSecs = .ok (some timestamp) →
        InRange crates timestamp) ∧
        ((∃ userdata, tx.tx_data.txndata = .User userdata) → tx.tx_type = .User) := by
  have hsome := (getSignatures_spec hsigs).1
  rw [getFailedTransaction_eq_ok_iff_columns h, Option.isSome_map, hsome]

/-- For a transaction that was converted from a message, only the expiration decides. -/
theorem getFailedTransaction_eq_ok_iff_of_tryFrom {value : Input.Transaction}
    {sigs : Option (List Rows.Signature)} {row : Rows.Transaction}
    (htx : TransactionExtraction.tryFrom value = .ok tx)
    (hsigs : getSignatures crates tx = .ok sigs)
    (h : getSuccessfulTransaction crates tx (sigs.map List.length) = .ok row) :
    getFailedTransaction crates tx (sigs.map List.length) = .ok row ↔
      ∀ timestamp, tx.tx_data.expirationTimestampSecs = .ok (some timestamp) →
        InRange crates timestamp := by
  have hsome := (getSignatures_spec hsigs).1
  have huser := (TransactionExtraction.tryFrom_spec htx).1.isUser
  rw [getFailedTransaction_eq_ok_iff_columns h, Option.isSome_map, hsome, ← huser]
  exact and_iff_left id

/-! ## A user transaction that expires -/

/-- A user transaction that expires at these seconds. -/
def sampleExpiring (seconds : ℤ) : Input.Transaction :=
  { sampleUser with
    txn_data := some (.User {
      request := some {
        sender := "0x1"
        sequence_number := 0
        max_gas_amount := 1
        gas_unit_price := 1
        expiration_timestamp_secs := some ⟨seconds, 0⟩
        payload := some ⟨.known .MultisigPayload, some (.MultisigPayload ⟨"0x1"⟩)⟩
        signature := some ⟨.known .Ed25519, some (.Ed25519 ⟨[], []⟩)⟩ }
      events := [] }) }

/-- An expiration that is in range, for which the builders agree. -/
theorem getFailedTransaction_eq_ok_iff_epoch :
    ∃ tx sigs row, TransactionExtraction.tryFrom (sampleExpiring 0) = .ok tx ∧
      getSignatures sampleCrates tx = .ok sigs ∧
        getSuccessfulTransaction sampleCrates tx (sigs.map List.length) = .ok row ∧
          getFailedTransaction sampleCrates tx (sigs.map List.length) = .ok row := by
  refine ⟨_, _, _, rfl, rfl, rfl, (getFailedTransaction_eq_ok_iff rfl rfl).2 ⟨?_, fun _ => rfl⟩⟩
  rintro timestamp htimestamp
  obtain rfl := Option.some.inj (Outcome.ok.inj htimestamp)
  exact ⟨by decide, fun _ => rfl⟩

/-- An expiration before the minimum, which the strict builder leaves blank and the lenient one
writes as the maximum. -/
theorem exists_rows_differ :
    ∃ tx sigs row, TransactionExtraction.tryFrom (sampleExpiring (-2208988801)) = .ok tx ∧
      getSignatures sampleCrates tx = .ok sigs ∧
        getSuccessfulTransaction sampleCrates tx (sigs.map List.length) = .ok row ∧
          row.expiration_timestamp = none ∧
            getFailedTransaction sampleCrates tx (sigs.map List.length) =
              .ok { row with expiration_timestamp := some "9999-12-31 23:59:59" } :=
  ⟨_, _, _, rfl, rfl, rfl, rfl, rfl⟩

/-- The lenient builder does not make the row of the strict one. -/
theorem not_getFailedTransaction_of_getSuccessfulTransaction :
    ¬ ∀ (crates : Crates) (tx : TransactionExtraction) (sigs : Option (List Rows.Signature))
      (row : Rows.Transaction), getSignatures crates tx = .ok sigs →
        getSuccessfulTransaction crates tx (sigs.map List.length) = .ok row →
          getFailedTransaction crates tx (sigs.map List.length) = .ok row := by
  intro hall
  obtain ⟨tx, sigs, row, -, hsigs, hstrict, hnone, hfailed⟩ := exists_rows_differ
  have heq := Outcome.ok.inj (hfailed.symm.trans (hall sampleCrates tx sigs row hsigs hstrict))
  rw [← heq] at hnone
  exact Option.some_ne_none _ hnone

end AptosEtl.Tables
