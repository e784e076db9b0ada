import AptosEtl.Output.Gcs
import AptosEtl.Tables.SharedColumns

/-!
# Serializing rows that hold JSON

The implementations of `Serialize` for `Event` and `Resource`, in `reps/events.rs` and
`reps/changes.rs`. Each of them has one column that holds a JSON text, which is parsed again when
the row is serialized. The publishers unwrap the result. The data of an event was parsed when the
event was extracted, and that of a resource was not, so that a resource is serialized exactly when
the data of its write is JSON (`serializes_iff`).
-/

namespace AptosEtl.Output

open Rust Rows Reps Tables

/-! ## Serializing -/

/-- A value that is handed to a serializer. That of a JSON text is what it parses to. -/
inductive FieldValue where
  | int64 (value : Int64)
  | uint64 (value : UInt64)
  | optionalUint64 (value : Option UInt64)
  | index (value : ℕ)
  | text (value : String)
  | structTag (value : Option Rows.StructTag)
  | timestamp (value : UnixTimestamp)
  | json (text : String)
  | null
  deriving DecidableEq, Repr

/-- The name of a field and its value. -/
abbrev Field := String × FieldValue

/-- The errors of a serializer: `custom` on one of the repository's errors, or on one of the parser
for the text. -/
inductive SerializeError where
  | Custom (error : JsonStringError)
  | Parse (text : String)
  deriving DecidableEq, Repr

/-- `JsonObjectString::serialize`: the text is parsed, and its value is serialized. -/
def serializeJsonObjectString (crates : Crates) (jsonstr : String) :
    Outcome SerializeError FieldValue :=
  if crates.isJson jsonstr then .ok (.json jsonstr) else .err (.Parse jsonstr)

/-- A text that is made into a `JsonObjectString` and serialized. -/
def serializeText (crates : Crates) (text : String) : Outcome SerializeError FieldValue :=
  (jsonObjectString crates text).mapErr .Custom |>.bind (serializeJsonObjectString crates)

/-- `Event::serialize`. -/
def serializeEvent (crates : Crates) (self : Event) : Outcome SerializeError (List Field) :=
  (serializeText crates self.data).bind fun data =>
    .ok [
      ("block_height", .int64 self.block_height),
      ("block_timestamp", .text self.block_timestamp),
      ("tx_version", .uint64 self.tx_version),
      ("tx_hash", .text self.tx_hash),
      ("tx_sequence_number", .optionalUint64 self.tx_sequence_number),
      ("event_index", .index self.event_index),
      ("event_type", .text self.event_type),
      ("address", .text self.address),
      ("creation_num", .uint64 self.creation_num),
      ("sequence_number", .uint64 self.sequence_number),
      ("data", data),
      ("block_unixtimestamp", .timestamp self.block_unixtimestamp)]

/-- The `resource` field of `Resource::serialize`. -/
def serializeData (crates : Crates) : Option String → Outcome SerializeError FieldValue
  | some resource => serializeText crates resource
  | none => .ok .null

/-- `Resource::serialize`. -/
def serializeResource (crates : Crates) (self : Resource) : Outcome SerializeError (List Field) :=
  (serializeData crates self.resource).bind fun resource =>
    .ok [
      ("block_height", .int64 self.block_height),
      ("block_timestamp", .text self.block_timestamp),
      ("tx_version", .uint64 self.tx_version),
      ("tx_hash", .text self.tx_hash),
      ("tx_sequence_number", .optionalUint64 self.tx_sequence_number),
      ("change_index", .index self.change_index),
      ("address", .text self.address),
      ("state_key_hash", .text self.state_key_hash),
      ("change_type", .text self.change_type),
      ("struct_tag", .structTag self.struct_tag),
      ("type_str", .text self.type_str),
      ("resource", resource),
      ("block_unixtimestamp", .timestamp self.block_unixtimestamp)]

/-- The crates of a publisher that serializes its records to fields, and renders those. -/
def GcsCrates.via {α : Type} (crates : GcsCrates (List Field))
    (serialize : α → Outcome SerializeError (List Field)) : GcsCrates α where
  to_string record := (serialize record).toOption.bind crates.to_string
  timestamp_opt := crates.timestamp_opt
  date_naive := crates.date_naive

/-! ## When a row is serialized -/

section Row

variable (crates : Crates)

/-- What a text is serialized to: the value of the text itself, where it is JSON. The second parse
is of the same text. -/
theorem serializeText_eq_ok {text : String} {value : FieldValue} :
    serializeText crates text = .ok value ↔ crates.isJson text = true ∧ value = .json text := by
  rw [serializeText, jsonObjectString]
  split_ifs with h <;> simp [serializeJsonObjectString, h, eq_comm]

/-- A text is serialized exactly when it is JSON. -/
theorem exists_serializeText_iff (text : String) :
    (∃ value, serializeText crates text = .ok value) ↔ crates.isJson text = true := by
  simp [serializeText_eq_ok]

/-- An event is serialized exactly when its data is JSON. -/
theorem exists_serializeEvent_iff (row : Event) :
    (∃ fields, serializeEvent crates row = .ok fields) ↔ crates.isJson row.data = true := by
  rw [← exists_serializeText_iff]
  simp [serializeEvent]

/-- A resource is serialized exactly when its data, if it has any, is JSON. -/
theorem exists_serializeResource_iff (row : Resource) :
    (∃ fields, serializeResource crates row = .ok fields) ↔
      ∀ text ∈ row.resource, crates.isJson text = true := by
  have hdata : (∃ fields, serializeResource crates row = .ok fields) ↔
      ∃ value, serializeData crates row.resource = .ok value := by
    simp [serializeResource]
  rw [hdata]
  cases row.resource with
  | none => simp [serializeData]
  | some text => simpa [serializeData] using exists_serializeText_iff crates text

/-- The records are rendered without a panic exactly when each of them is serialized, where fields
that are serialized can be rendered. -/
theorem exists_recordStrings_iff {α : Type} {gcs : GcsCrates (List Field)}
    (hrender : ∀ fields, ∃ string, gcs.to_string fields = some string)
    (serialize : α → Outcome SerializeError (List Field)) (rows : List α) :
    (∃ strings, recordStrings (gcs.via serialize) rows = .ok strings) ↔
      ∀ row ∈ rows, ∃ fields, serialize row = .ok fields := by
  rw [recordStrings, Outcome.exists_tryMap_iff]
  refine forall₂_congr fun row _ => ?_
  simp only [Outcome.expect_eq_ok, GcsCrates.via]
  cases serialize row with
  | ok fields => simpa [Outcome.toOption] using hrender fields
  | err error => simp [Outcome.toOption]
  | panic message => simp [Outcome.toOption]

end Row

/-! ## The rows that are extracted -/

section Extracted

variable {crates : Crates} {tx : TransactionExtraction}

/-- The data of an event that is extracted is JSON. -/
theorem isJson_of_eventRow {timestamp hash : String} {item : Input.Event × ℕ} {row : Event}
    (h : eventRow crates tx timestamp hash item = .ok row) : crates.isJson row.data = true := by
  obtain ⟨extraction, number, address, hextraction, -, -, rfl⟩ := eventRow_eq_ok h
  obtain ⟨eventkey, type, -, hjson, rfl⟩ := EventExtraction.tryFrom_eq_ok hextraction
  exact hjson

/-- The JSON text that a change writes, before its conversion. -/
def writtenText (change : Input.WriteSetChange) : Option String :=
  match change.change with
  | some (.WriteResource data) => some data.data
  | _ => none

/-- The JSON text that a change holds, after its conversion. -/
def heldText : IncompleteChangeRecord → Option String
  | .Resource record => record.data
  | _ => none

/-- The conversion of a change keeps its text. -/
theorem heldText_of_tryFrom {change : Input.WriteSetChange} {record : IncompleteChangeRecord}
    (h : IncompleteChangeRecord.tryFrom change = .ok record) :
    heldText record = writtenText change := by
  rw [writtenText]
  cases IncompleteChangeRecord.convertsTo_of_tryFrom h with
  | DeleteModule htype hdata =>
    rw [hdata]
    rfl
  | WriteModule htype hdata =>
    rw [hdata]
    rfl
  | DeleteResource htype hdata hrecord =>
    obtain ⟨tag, -, hrecord⟩ := Outcome.bind_eq_ok.1 hrecord
    obtain rfl := Outcome.ok.inj hrecord
    rw [hdata]
    rfl
  | WriteResource htype hdata hrecord =>
    obtain ⟨tag, -, hrecord⟩ := Outcome.bind_eq_ok.1 hrecord
    obtain rfl := Outcome.ok.inj hrecord
    rw [hdata]
    rfl
  | WriteTableItem htype hdata =>
    rw [hdata]
    rfl
  | DeleteTableItem htype hdata =>
    rw [hdata]
    rfl

/-- The resource row of a change has the text of the change, and other changes have no such row. -/
theorem isJson_of_buildChange_iff {columns : TxColumns} {item : IncompleteChangeRecord × ℕ}
    {built : BuiltChange} (h : buildChange crates tx columns item = .ok built) :
    (∀ text ∈ heldText item.1, crates.isJson text = true) ↔
      ∀ row ∈ built.rows .Resources, ∀ text ∈ Resource.resource row, crates.isJson text = true := by
  obtain ⟨change, family, -, hfamily, rfl⟩ := buildChange_eq_ok h
  rw [BuiltChange.rows]
  generalize item.1 = record at hfamily
  cases familyOf_of_buildFamily hfamily with
  | Module hrow => simp [heldText, FamilyRow.resource?]
  | Resource hrow =>
    obtain ⟨address, changeType, structTag, -, -, -, rfl⟩ := resourceRow_eq_ok hrow
    simp [heldText, FamilyRow.resource?]
  | TableItem hrow => simp [heldText, FamilyRow.resource?]

end Extracted

/-- All events and resources of the records are serialized. -/
structure Serializes (crates : Crates) (records : Records) : Prop where
  events : ∀ row ∈ records.events, ∃ fields, serializeEvent crates row = .ok fields
  resources : ∀ row ∈ records.resources, ∃ fields, serializeResource crates row = .ok fields

/-- The publisher renders all events and resources without a panic. -/
structure Renders (crates : Crates) (gcs : GcsCrates (List Field)) (records : Records) : Prop where
  events : ∃ strings, recordStrings (gcs.via (serializeEvent crates)) records.events = .ok strings
  resources :
    ∃ strings, recordStrings (gcs.via (serializeResource crates)) records.resources = .ok strings

/-- All resources that a transaction writes have JSON data. -/
def WritesJson (crates : Crates) (value : Input.Transaction) : Prop :=
  ∀ info ∈ value.info, ∀ change ∈ info.changes, ∀ text ∈ writtenText change,
    crates.isJson text = true

/-- The events that are extracted are serialized: their data has been checked. -/
theorem serializes_events {crates : Crates} {tx : TransactionExtraction} {timestamp : String}
    {events : Option (List Event)} (htimestamp : tx.getEncodedTimestamp crates = .ok timestamp)
    (h : getEvents crates tx = .ok events) :
    ∀ row ∈ events.getD [], ∃ fields, serializeEvent crates row = .ok fields := by
  intro row hrow
  cases events with
  | none => exact absurd hrow List.not_mem_nil
  | some rows =>
    obtain ⟨item, hitem⟩ := exists_eventRow_of_mem htimestamp h hrow
    exact (exists_serializeEvent_iff crates row).2 (isJson_of_eventRow hitem)

/-- The resources that are extracted are serialized exactly when those that are written have JSON
data. -/
theorem serializes_resources_iff {crates : Crates} {value : Input.Transaction}
    {tx : TransactionExtraction} {changes : ChangeRecords}
    (htx : TransactionExtraction.tryFrom value = .ok tx)
    (h : getChanges crates tx = .ok changes) :
    (∀ row ∈ changes.resources, ∃ fields, serializeResource crates row = .ok fields) ↔
      WritesJson crates value := by
  obtain ⟨info, hinfo, hconverted⟩ := TransactionExtraction.exists_info_of_tryFrom htx
  obtain ⟨records, hrecords, hinfo'⟩ := Outcome.bind_eq_ok.1 hconverted
  have hkept : tx.tx_info.changes = records := by rw [← Outcome.ok.inj hinfo']
  obtain ⟨columns, built, -, hbuilt, rfl⟩ := getChanges_eq_ok.1 h
  have hmessage : WritesJson crates value ↔
      ∀ change ∈ info.changes, ∀ text ∈ writtenText change, crates.isJson text = true := by
    simp [WritesJson, hinfo]
  -- from the changes of the message to the records, and from those to the rows
  have hheld : (∀ change ∈ info.changes, ∀ text ∈ writtenText change,
      crates.isJson text = true) ↔
        ∀ record ∈ records, ∀ text ∈ heldText record, crates.isJson text = true := by
    refine Aligned.forall_mem_iff (Outcome.tryMap_eq_ok.1 (Outcome.mapErr_eq_ok.1 hrecords)) ?_
    intro change record hrecord
    rw [heldText_of_tryFrom hrecord]
  have hrows : (∀ record ∈ records, ∀ text ∈ heldText record, crates.isJson text = true) ↔
      ∀ b ∈ built, ∀ row ∈ b.rows .Resources, ∀ text ∈ Resource.resource row,
        crates.isJson text = true := by
    rw [← Aligned.forall_mem_zipIdx_iff, ← hkept]
    exact Aligned.forall_mem_iff hbuilt fun item b hb => isJson_of_buildChange_iff hb
  rw [hmessage, hheld, hrows, ofBuilt_resources, List.forall_mem_flatMap]
  refine forall₂_congr fun b _ => forall₂_congr fun row _ => ?_
  exact exists_serializeResource_iff crates row

/-- The records of a transaction are serialized, and rendered without a panic, exactly when the
resources that it writes have JSON data. -/
theorem serializes_iff {crates : Crates} {value : Input.Transaction} {records : Records}
    (h : extractRecords crates value = .ok records) :
    (Serializes crates records ↔ WritesJson crates value) ∧
      ∀ gcs : GcsCrates (List Field), (∀ fields, ∃ string, gcs.to_string fields = some string) →
        (Renders crates gcs records ↔ WritesJson crates value) := by
  obtain ⟨tx, block, changes, events, sigs, row, hstages, rfl⟩ := extractRecords_eq_ok.1 h
  obtain ⟨⟨timestamp, htimestamp⟩, -⟩ := exists_columns_of_getChanges hstages.changes
  have hevents := serializes_events htimestamp hstages.events
  have hresources := serializes_resources_iff hstages.extraction hstages.changes
  constructor
  · rw [← hresources]
    exact ⟨Serializes.resources, fun hall => ⟨hevents, hall⟩⟩
  · intro gcs hrender
    rw [← hresources]
    constructor
    · intro hrenders
      exact (exists_recordStrings_iff hrender _ _).1 hrenders.resources
    · intro hall
      exact ⟨(exists_recordStrings_iff hrender _ _).2 hevents,
        (exists_recordStrings_iff hrender _ _).2 hall⟩

/-- A user transaction that writes a resource without data. -/
def sampleWrite : Input.Transaction :=
  { sampleUser with
    info := some {
      hash := [1]
      state_change_hash := []
      event_root_hash := []
      state_checkpoint_hash := none
      gas_used := 1
      success := true
      vm_status := "Executed successfully"
      accumulator_root_hash := []
      changes := [⟨.known .WriteResource, some (.WriteResource {
        address := "0x1"
        state_key_hash := []
        type := none
        type_str := "0x1::coin::Coin"
        data := "" })⟩] } }

/-- The records of the transaction with the write can be extracted. -/
theorem exists_records_sampleWrite :
    ∃ records, extractRecords sampleCrates sampleWrite = .ok records :=
  Outcome.isSome_toOption.1 (by decide +kernel)

/-- The rows of a user transaction that writes a resource. -/
theorem serializes_iff_sampleWrite :
    ∃ records, extractRecords sampleCrates sampleWrite = .ok records ∧
      (Serializes sampleCrates records ↔ WritesJson sampleCrates sampleWrite) ∧
        ∀ gcs : GcsCrates (List Field), (∀ fields, ∃ string, gcs.to_string fields = some string) →
          (Renders sampleCrates gcs records ↔ WritesJson sampleCrates sampleWrite) := by
  obtain ⟨records, h⟩ := exists_records_sampleWrite
  exact ⟨records, h, serializes_iff h⟩

/-- The row of the resource without data is extracted, and not serialized. -/
theorem extracted_not_serializes :
    ¬ ∀ (crates : Crates) (value : Input.Transaction) (records : Records),
      extractRecords crates value = .ok records → Serializes crates records := by
  intro hall
  -- there is one row, and serializing it fails
  have hrows : (extractRecords sampleCrates sampleWrite).toOption.map
      (fun records => (records.resources.length, records.resources.all fun row =>
        (serializeResource sampleCrates row).toOption.isNone)) = some (1, true) := by
    decide +kernel
  obtain ⟨records, h, hrows⟩ := Outcome.map_toOption_eq_some.1 hrows
  obtain ⟨hlength, hnone⟩ := Prod.mk.inj hrows
  obtain ⟨row, hrow⟩ := List.length_eq_one_iff.1 hlength
  have hmem : row ∈ records.resources := hrow ▸ List.mem_singleton_self row
  obtain ⟨fields, hfields⟩ := (hall _ _ records h).resources row hmem
  have hnone := List.all_eq_true.1 hnone row hmem
  rw [hfields] at hnone
  exact nomatch hnone

end AptosEtl.Output
