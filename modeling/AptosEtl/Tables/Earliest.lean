import AptosEtl.Lib.Argmin
import AptosEtl.Tables.All

/-!
# The earliest timestamp

`Records::earliest_timestamp` of `tables/all.rs`: a running minimum over the transactions that
compares the seconds only, so that it keeps the first transaction of the first second, whatever its
nanoseconds. The result is a minimum in the order of time, and the same in every order of the
transactions, exactly when the transactions of the first second have the same nanoseconds
(`earliestTimestamp_minimum_iff`).
-/

namespace AptosEtl.Tables

open Rust Input Reps

/-- The body of the loop of `earliest_timestamp`. -/
def pushTimestamp (earliestTimestamp : Option Rows.UnixTimestamp) (tx : Rows.Transaction) :
    Option Rows.UnixTimestamp :=
  match earliestTimestamp with
  | some curEarliest =>
    -- the nanoseconds are not compared
    if curEarliest.seconds > tx.block_unixtimestamp.seconds then
      some tx.block_unixtimestamp
    else
      some curEarliest
  | none => some tx.block_unixtimestamp

/-- `Records::earliest_timestamp`. -/
def earliestTimestamp (self : Rows.Records) : Option Rows.UnixTimestamp :=
  if !self.transactions.isEmpty then
    self.transactions.foldl pushTimestamp none
  else
    none

/-! ## The order of time -/

/-- The seconds of a transaction. -/
def blockSeconds (tx : Rows.Transaction) : ℤ := tx.block_unixtimestamp.seconds

/-- The nanoseconds of a transaction within its second. -/
def blockNanos (tx : Rows.Transaction) : ℕ := tx.block_unixtimestamp.nanos

/-- A timestamp in the order of time: by its seconds, and within a second by its nanoseconds. -/
def instant (timestamp : Rows.UnixTimestamp) : ℤ ×ₗ ℕ := toLex (timestamp.seconds, timestamp.nanos)

/-- What the earliest timestamp is for: it is that of a transaction, no transaction is earlier, and
the order of the transactions does not matter. -/
structure EarliestIsMinimum (records : Rows.Records) : Prop where
  minimum : ∃ timestamp, earliestTimestamp records = some timestamp ∧
    (∃ tx ∈ records.transactions, tx.block_unixtimestamp = timestamp) ∧
      ∀ tx ∈ records.transactions, instant timestamp ≤ instant tx.block_unixtimestamp
  perm : ∀ transactions : List Rows.Transaction, transactions.Perm records.transactions →
    earliestTimestamp { records with transactions := transactions } = earliestTimestamp records

/-- The transactions of the first second have the same nanoseconds. -/
def FirstSecondAgrees (records : Rows.Records) : Prop :=
  Argmin.TiesAgree blockSeconds blockNanos records.transactions

/-- The earliest timestamp is that of the first transaction with the least seconds. -/
theorem earliestTimestamp_eq (records : Rows.Records) :
    earliestTimestamp records = (Argmin.first blockSeconds records.transactions).map
      Rows.Transaction.block_unixtimestamp := by
  have hloop : records.transactions.foldl pushTimestamp none =
      (Argmin.first blockSeconds records.transactions).map
        Rows.Transaction.block_unixtimestamp :=
    Argmin.foldl_eq_map_first (fun _ => rfl) (fun _ _ hlt => if_pos hlt)
      (fun _ _ hle => if_neg hle) _
  rw [← hloop, earliestTimestamp]
  cases records.transactions with
  | nil => rfl
  | cons tx transactions => exact if_pos rfl

/-- The earliest timestamps of two records are the same when the seconds and the nanoseconds of the
transactions are that they come from. -/
theorem earliestTimestamp_eq_iff {records records' : Rows.Records} :
    earliestTimestamp records = earliestTimestamp records' ↔
      (Argmin.first blockSeconds records.transactions).map (fun tx =>
          (blockSeconds tx, blockNanos tx)) =
        (Argmin.first blockSeconds records'.transactions).map fun tx =>
          (blockSeconds tx, blockNanos tx) := by
  have hinjective : Function.Injective fun t : Rows.UnixTimestamp => (t.seconds, t.nanos) := by
    rintro ⟨seconds, nanos⟩ ⟨seconds', nanos'⟩ heq
    cases heq
    rfl
  rw [← (Option.map_injective hinjective).eq_iff, earliestTimestamp_eq, earliestTimestamp_eq,
    Option.map_map, Option.map_map]
  rfl

/-- The earliest timestamp is the same in every order of the transactions exactly when those of the
first second have the same nanoseconds. -/
theorem earliestTimestamp_perm_iff (records : Rows.Records) :
    (∀ transactions : List Rows.Transaction, transactions.Perm records.transactions →
      earliestTimestamp { records with transactions := transactions } =
        earliestTimestamp records) ↔ FirstSecondAgrees records := by
  rw [FirstSecondAgrees, Argmin.tiesAgree_iff_perm]
  exact forall₂_congr fun transactions _ => earliestTimestamp_eq_iff

/-- Where there is a transaction, the earliest timestamp is a minimum in the order of time, in
every order of the transactions, exactly when the transactions of the first second have the same
nanoseconds. -/
theorem earliestTimestamp_minimum_iff {records : Rows.Records} (h : records.transactions ≠ []) :
    EarliestIsMinimum records ↔ FirstSecondAgrees records := by
  refine ⟨fun hminimum => (earliestTimestamp_perm_iff records).1 hminimum.perm,
    fun hagrees => ⟨?_, (earliestTimestamp_perm_iff records).2 hagrees⟩⟩
  obtain ⟨tx, htx⟩ := Argmin.exists_mem_first blockSeconds h
  have hearliest : earliestTimestamp records = some tx.block_unixtimestamp := by
    rw [earliestTimestamp_eq, Option.mem_def.1 htx, Option.map_some]
  exact ⟨tx.block_unixtimestamp, hearliest, ⟨tx, List.argmin_mem htx, rfl⟩,
    Argmin.lex_le_of_tiesAgree hagrees htx⟩

/-- The records of one transaction have its timestamp as the earliest. -/
theorem earliestTimestamp_of_extractRecords {crates : Crates} {value : Input.Transaction}
    {records : Rows.Records} (h : extractRecords crates value = .ok records) :
    ∃ tx, TransactionExtraction.tryFrom value = .ok tx ∧
      earliestTimestamp records = some tx.getUnixTimestamp := by
  obtain ⟨tx, block, changes, events, sigs, row, hstages, rfl⟩ := extractRecords_eq_ok.1 h
  refine ⟨tx, hstages.extraction, ?_⟩
  rw [earliestTimestamp_eq, Argmin.first, List.argmin_singleton]
  exact congrArg some (getTransactions_spec hstages.row).timestamp

/-- A transaction at a time. -/
def sampleRow (timestamp : Rows.UnixTimestamp) : Rows.Transaction where
  block_height := 0
  block_timestamp := "1970-01-01 00:00:01"
  tx_type := "USER"
  tx_version := 1
  tx_hash := "0x1"
  state_change_hash := "0x1"
  event_root_hash := "0x1"
  state_checkpoint_hash := none
  gas_used := 1
  success := true
  vm_status := none
  accumulator_root_hash := none
  sequence_number := none
  sequence_number_big := none
  max_gas_amount := none
  sender := none
  num_events := none
  num_changes := ⟨0, 0, 0, 0, 0, 0, 0⟩
  expiration_timestamp := none
  payload := none
  gas_unit_price := none
  payload_type := none
  block_unixtimestamp := timestamp
  expiration_unixtimestamp := none
  num_signatures := none

/-- Records with a transaction at each of these times. -/
def sampleTimed (timestamps : List Rows.UnixTimestamp) : Rows.Records :=
  { Rows.Records.new with transactions := timestamps.map sampleRow }

/-- Two transactions in different seconds. -/
theorem earliestTimestamp_minimum_iff_sampleTimed :
    (sampleTimed [⟨2, 100⟩, ⟨1, 200⟩]).transactions ≠ [] ∧
      (EarliestIsMinimum (sampleTimed [⟨2, 100⟩, ⟨1, 200⟩]) ↔
        FirstSecondAgrees (sampleTimed [⟨2, 100⟩, ⟨1, 200⟩])) :=
  ⟨nofun, earliestTimestamp_minimum_iff nofun⟩

/-- Of two transactions in one second, the first is returned, though the second is earlier. -/
theorem not_earliestIsMinimum_of_one_second :
    ¬ ∀ records : Rows.Records, records.transactions ≠ [] → EarliestIsMinimum records := by
  intro h
  obtain ⟨timestamp, hearliest, -, hleast⟩ := (h (sampleTimed [⟨1, 500⟩, ⟨1, 200⟩]) nofun).minimum
  -- the first of them is kept
  obtain rfl : ⟨1, 500⟩ = timestamp := Option.some.inj hearliest
  have hle := hleast (sampleRow ⟨1, 200⟩) (by simp [sampleTimed])
  rw [instant, instant, Prod.Lex.toLex_le_toLex] at hle
  exact absurd hle (by decide)

end AptosEtl.Tables
