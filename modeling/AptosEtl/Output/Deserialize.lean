import AptosEtl.Lib.Json
import AptosEtl.Output.Serialize

/-!
# Deserializing rows that hold JSON

The implementations of `Deserialize` for `Event` and `Resource`, in `reps/events.rs` and
`reps/changes.rs`, which read an object member by member. What they are given here is the object
that the implementations of `Serialize` make of a row.

Neither takes back what the other gives. The column with JSON is written as a JSON value and read as
a string (`not_roundTripsEvent`), and of a resource the column `tx_sequence_number_big` is neither
written nor ever read (`not_roundTripsResource`).
-/

namespace AptosEtl.Output

open Rust Rust.Json Rows Reps Tables

/-! ## The object of a row -/

/-- The value of a field, with the parser that a JSON text went through. -/
def FieldValue.toJson (parse : String → Option Json) : FieldValue → Json
  | .int64 value => .int value.toInt
  | .uint64 value => .int value.toNat
  | .optionalUint64 (some value) => .int value.toNat
  | .optionalUint64 none => .null
  | .index value => .int value
  | .text value => .string value
  | .structTag (some tag) => .object [
      ("address", .string tag.address),
      ("module", .string tag.module),
      ("name", .string tag.name),
      ("generic_type_params", .array (tag.generic_type_params.map .string))]
  | .structTag none => .null
  | .timestamp value => .object [("seconds", .int value.seconds), ("nanos", .int value.nanos)]
  -- the serializer parsed the text before it handed it over
  | .json jsonstr => (parse jsonstr).getD .null
  | .null => .null

/-- The object that a row is serialized to. -/
def rowObject (parse : String → Option Json) (fields : List Field) : Json :=
  .object (fields.map fun field => (field.1, field.2.toJson parse))

/-! ## Reading the types of the columns -/

/-- `str::parse::<i64>`: digits behind at most one sign, in range. -/
def parseI64 (text : String) : Option Int64 :=
  let digits (chars : List Char) : Option ℕ :=
    if chars ≠ [] ∧ chars.all Char.isDigit then some (Nat.ofDigitChars 10 chars 0) else none
  match text.toList with
  | '-' :: chars =>
    (digits chars).bind fun n => if n ≤ 2 ^ 63 then some (Int64.ofInt (-n)) else none
  | '+' :: chars =>
    (digits chars).bind fun n => if n < 2 ^ 63 then some (Int64.ofInt n) else none
  | chars =>
    (digits chars).bind fun n => if n < 2 ^ 63 then some (Int64.ofInt n) else none

/-- The derived reader of `UnixTimestamp`. -/
def readUnixTimestamp (json : Json) : Outcome JsonError UnixTimestamp :=
  (readFields "UnixTimestamp" ["seconds", "nanos"] json).bind fun
    | [seconds, nanos] =>
      (readInt "i64" (-2 ^ 63) (2 ^ 63) seconds).bind fun seconds =>
        (readInt "u32" 0 (2 ^ 32) nanos).bind fun nanos => .ok ⟨seconds, nanos.toNat⟩
    | _ => .err (.Invalid "struct UnixTimestamp")

/-- The derived reader of `StructTag`. -/
def readStructTag (json : Json) : Outcome JsonError Rows.StructTag :=
  (readFields "StructTag" ["address", "module", "name", "generic_type_params"] json).bind fun
    | [address, module, name, params] =>
      (readString address).bind fun address =>
        (readString module).bind fun module =>
          (readString name).bind fun name =>
            (readVec readString params).bind fun params => .ok ⟨address, module, name, params⟩
    | _ => .err (.Invalid "struct StructTag")

/-- A variable that has to be there after the loop. -/
def required {α : Type} (field : String) (value : Option α) : Outcome JsonError α :=
  Outcome.ofOption value (.MissingField field)

/-! ## Events -/

/-- The variables of `visit_map`. -/
structure EventVariables where
  block_height : Option Int64
  block_timestamp : Option String
  tx_version : Option UInt64
  tx_hash : Option String
  tx_sequence_number : Option UInt64
  tx_sequence_number_big : Option String
  event_index : Option UInt64
  event_type : Option String
  address : Option String
  creation_num : Option UInt64
  sequence_number : Option UInt64
  data : Option String
  block_unixtimestamp : Option UnixTimestamp

/-- The variables before the loop. -/
def EventVariables.new : EventVariables :=
  ⟨none, none, none, none, none, none, none, none, none, none, none, none, none⟩

/-- The arm of `tx_sequence_number`, which sets both columns where they are not set yet. -/
def visitSequenceNumber (s : EventVariables) : Option UInt64 → EventVariables
  | none => s
  | some num =>
    let big := if s.tx_sequence_number_big.isNone then some (toString num)
      else s.tx_sequence_number_big
    -- `i64::try_from`
    if num.toNat < 2 ^ 63 then
      { s with tx_sequence_number := some num, tx_sequence_number_big := big }
    else
      { s with tx_sequence_number_big := big }

/-- The arm of `tx_sequence_number_big`. -/
def visitSequenceNumberBig (s : EventVariables) : Option String → EventVariables
  | none => s
  | some text =>
    match parseI64 text with
    | some num =>
      let number := if s.tx_sequence_number.isNone then some num.toUInt64 else s.tx_sequence_number
      { s with tx_sequence_number := number, tx_sequence_number_big := some text }
    | none => { s with tx_sequence_number_big := some text }

/-- One member of the object, in the loop of `visit_map`. -/
def visitEvent (s : EventVariables) (entry : String × Json) : Outcome JsonError EventVariables :=
  match entry.1 with
  | "block_height" => (readI64 entry.2).bind fun v => .ok { s with block_height := some v }
  | "block_timestamp" =>
    (readString entry.2).bind fun v => .ok { s with block_timestamp := some v }
  | "tx_version" => (readU64 entry.2).bind fun v => .ok { s with tx_version := some v }
  | "tx_hash" => (readString entry.2).bind fun v => .ok { s with tx_hash := some v }
  | "tx_sequence_number" =>
    (readOption readU64 entry.2).bind fun v => .ok (visitSequenceNumber s v)
  | "tx_sequence_number_big" =>
    (readOption readString entry.2).bind fun v => .ok (visitSequenceNumberBig s v)
  | "event_index" => (readU64 entry.2).bind fun v => .ok { s with event_index := some v }
  | "event_type" => (readString entry.2).bind fun v => .ok { s with event_type := some v }
  | "address" => (readString entry.2).bind fun v => .ok { s with address := some v }
  | "creation_num" => (readU64 entry.2).bind fun v => .ok { s with creation_num := some v }
  | "sequence_number" => (readU64 entry.2).bind fun v => .ok { s with sequence_number := some v }
  -- a string, since that is the type of the column
  | "data" => (readString entry.2).bind fun v => .ok { s with data := some v }
  | "block_unixtimestamp" =>
    (readUnixTimestamp entry.2).bind fun v => .ok { s with block_unixtimestamp := some v }
  | _ => .ok s

/-- The row of the variables after the loop. -/
def EventVariables.row (s : EventVariables) : Outcome JsonError Event :=
  (required "block_height" s.block_height).bind fun block_height =>
  (required "block_timestamp" s.block_timestamp).bind fun block_timestamp =>
  (required "tx_version" s.tx_version).bind fun tx_version =>
  (required "tx_hash" s.tx_hash).bind fun tx_hash =>
  (required "event_index" s.event_index).bind fun event_index =>
  (required "event_type" s.event_type).bind fun event_type =>
  (required "address" s.address).bind fun address =>
  (required "creation_num" s.creation_num).bind fun creation_num =>
  (required "sequence_number" s.sequence_number).bind fun sequence_number =>
  (required "data" s.data).bind fun data =>
  (required "block_unixtimestamp" s.block_unixtimestamp).bind fun block_unixtimestamp =>
    .ok {
      block_height := block_height
      block_timestamp := block_timestamp
      tx_version := tx_version
      tx_hash := tx_hash
      tx_sequence_number := s.tx_sequence_number
      tx_sequence_number_big := s.tx_sequence_number_big
      event_index := event_index.toNat
      event_type := event_type
      address := address
      creation_num := creation_num
      sequence_number := sequence_number
      data := data
      block_unixtimestamp := block_unixtimestamp }

/-- `Event::deserialize`. -/
def deserializeEvent : Json → Outcome JsonError Event
  | .object members => (Outcome.tryFold visitEvent .new members).bind EventVariables.row
  | _ => .err (.Invalid "an Event struct")

/-! ## Resources -/

/-- The variables of `visit_map`. -/
structure ResourceVariables where
  block_height : Option Int64
  block_timestamp : Option String
  tx_version : Option UInt64
  tx_hash : Option String
  tx_sequence_number : Option UInt64
  tx_sequence_number_big : Option String
  change_index : Option UInt64
  address : Option String
  state_key_hash : Option String
  change_type : Option String
  struct_tag : Option Rows.StructTag
  type_str : Option String
  resource : Option String
  block_unixtimestamp : Option UnixTimestamp

/-- The variables before the loop. -/
def ResourceVariables.new : ResourceVariables :=
  ⟨none, none, none, none, none, none, none, none, none, none, none, none, none, none⟩

/-- One member of the object, in the loop of `visit_map`. -/
def visitResource (s : ResourceVariables) (entry : String × Json) :
    Outcome JsonError ResourceVariables :=
  match entry.1 with
  | "block_height" => (readI64 entry.2).bind fun v => .ok { s with block_height := some v }
  | "block_timestamp" =>
    (readString entry.2).bind fun v => .ok { s with block_timestamp := some v }
  | "tx_version" => (readU64 entry.2).bind fun v => .ok { s with tx_version := some v }
  | "tx_hash" => (readString entry.2).bind fun v => .ok { s with tx_hash := some v }
  -- a number and no option, since the variable is the option of the column
  | "tx_sequence_number" =>
    (readU64 entry.2).bind fun v => .ok { s with tx_sequence_number := some v }
  -- assigned to the variable of the other column
  | "tx_sequence_number_big" =>
    (readU64 entry.2).bind fun v => .ok { s with tx_sequence_number := some v }
  | "change_index" => (readU64 entry.2).bind fun v => .ok { s with change_index := some v }
  | "address" => (readString entry.2).bind fun v => .ok { s with address := some v }
  | "state_key_hash" => (readString entry.2).bind fun v => .ok { s with state_key_hash := some v }
  | "change_type" => (readString entry.2).bind fun v => .ok { s with change_type := some v }
  | "struct_tag" => (readStructTag entry.2).bind fun v => .ok { s with struct_tag := some v }
  | "type_str" => (readString entry.2).bind fun v => .ok { s with type_str := some v }
  | "resource" => (readString entry.2).bind fun v => .ok { s with resource := some v }
  | "block_unixtimestamp" =>
    (readUnixTimestamp entry.2).bind fun v => .ok { s with block_unixtimestamp := some v }
  | _ => .ok s

/-- The row of the variables after the loop. -/
def ResourceVariables.row (s : ResourceVariables) : Outcome JsonError Resource :=
  (required "block_height" s.block_height).bind fun block_height =>
  (required "block_timestamp" s.block_timestamp).bind fun block_timestamp =>
  (required "tx_version" s.tx_version).bind fun tx_version =>
  (required "tx_hash" s.tx_hash).bind fun tx_hash =>
  (required "change_index" s.change_index).bind fun change_index =>
  (required "address" s.address).bind fun address =>
  (required "state_key_hash" s.state_key_hash).bind fun state_key_hash =>
  (required "change_type" s.change_type).bind fun change_type =>
  (required "type_str" s.type_str).bind fun type_str =>
  (required "block_unixtimestamp" s.block_unixtimestamp).bind fun block_unixtimestamp =>
    .ok {
      block_height := block_height
      block_timestamp := block_timestamp
      tx_version := tx_version
      tx_hash := tx_hash
      tx_sequence_number := s.tx_sequence_number
      tx_sequence_number_big := s.tx_sequence_number_big
      change_index := change_index.toNat
      address := address
      state_key_hash := state_key_hash
      change_type := change_type
      struct_tag := s.struct_tag
      type_str := type_str
      resource := s.resource
      block_unixtimestamp := block_unixtimestamp }

/-- `Resource::deserialize`. -/
def deserializeResource : Json → Outcome JsonError Resource
  | .object members => (Outcome.tryFold visitResource .new members).bind ResourceVariables.row
  | _ => .err (.Invalid "a Resource struct")

/-! ## What events come back as -/

section Event

variable {s s' : EventVariables} {entry : String × Json} {value : Json}

/-- The member `data` is a string, which is the data of the row. -/
theorem visitEvent_data (h : visitEvent s ("data", value) = .ok s') :
    ∃ text, value = .string text ∧ s'.data = some text := by
  obtain ⟨text, hread, h⟩ := Outcome.bind_eq_ok.1 h
  obtain rfl := Outcome.ok.inj h
  exact ⟨text, readString_eq_ok.1 hread, rfl⟩

/-- The sequence number does not touch the data. -/
theorem data_visitSequenceNumber (s : EventVariables) (number : Option UInt64) :
    (visitSequenceNumber s number).data = s.data := by
  cases number with
  | none => rfl
  | some num =>
    simp only [visitSequenceNumber]
    split_ifs <;> rfl

/-- Nor does its text. -/
theorem data_visitSequenceNumberBig (s : EventVariables) (text : Option String) :
    (visitSequenceNumberBig s text).data = s.data := by
  cases text with
  | none => rfl
  | some text =>
    simp only [visitSequenceNumberBig]
    split <;> rfl

/-- No other member changes the data. -/
theorem data_of_visitEvent (hentry : entry.1 ≠ "data") (h : visitEvent s entry = .ok s') :
    s'.data = s.data := by
  unfold visitEvent at h
  split at h
  case h_12 hkey => exact absurd hkey hentry
  case h_14 =>
    obtain rfl := Outcome.ok.inj h
    rfl
  -- the arms that set a variable, two of them through the functions above
  all_goals
    obtain ⟨v, -, h⟩ := Outcome.bind_eq_ok.1 h
    obtain rfl := Outcome.ok.inj h
  case h_5 => exact data_visitSequenceNumber s v
  case h_6 => exact data_visitSequenceNumberBig s v
  all_goals rfl

/-- A row has the data that was read. -/
theorem data_of_row {row : Event} (h : s.row = .ok row) : s.data = some row.data := by
  simp only [EventVariables.row, required, Outcome.bind_eq_ok, Outcome.ofOption_eq_ok] at h
  obtain ⟨_, _, _, _, _, _, _, _, _, _, _, _, _, _, _, _, _, _, data, hdata, _, _, hrow⟩ := h
  obtain rfl := Outcome.ok.inj hrow
  exact hdata

/-- What is read from an object with a member `data`, and none after it, has this data, which is a
string. -/
theorem data_of_deserializeEvent {before after : List (String × Json)} {row : Event}
    (hafter : ∀ entry ∈ after, entry.1 ≠ "data")
    (h : deserializeEvent (.object (before ++ ("data", value) :: after)) = .ok row) :
    value = .string row.data := by
  obtain ⟨s, hfold, hrow⟩ := Outcome.bind_eq_ok.1 h
  obtain ⟨t, t', hvisit, hrest⟩ := Json.exists_visit hfold
  obtain ⟨text, hvalue, htext⟩ := visitEvent_data hvisit
  have hkept : s.data = t'.data := Json.eq_of_frame hrest fun entry hentry _ _ =>
    data_of_visitEvent (hafter entry hentry)
  rw [data_of_row hrow, htext] at hkept
  rw [hvalue, Option.some.inj hkept]

/-- The fields of an event end with its data and its time, and the data is JSON. -/
theorem serializeEvent_eq_ok {crates : Crates} {row : Event} {fields : List Field}
    (h : serializeEvent crates row = .ok fields) :
    crates.isJson row.data = true ∧ ∃ before, fields = before ++ [("data", .json row.data),
      ("block_unixtimestamp", .timestamp row.block_unixtimestamp)] := by
  obtain ⟨value, hvalue, h⟩ := Outcome.bind_eq_ok.1 h
  obtain rfl := Outcome.ok.inj h
  obtain ⟨hjson, rfl⟩ := (serializeText_eq_ok crates).1 hvalue
  exact ⟨hjson, [_, _, _, _, _, _, _, _, _, _], rfl⟩

/-- The row comes back from its own JSON, with data of the same value. -/
def RoundTripsEvent (crates : Crates) (parse : String → Option Json) (row : Event) : Prop :=
  ∃ fields row', serializeEvent crates row = .ok fields ∧
    deserializeEvent (rowObject parse fields) = .ok row' ∧
      { row' with data := row.data } = row ∧ parse row'.data = parse row.data

/-- An event is only read back where the value of its data is a string, and then the data is that
string and no text of it. -/
theorem parse_of_deserializeEvent {crates : Crates} {parse : String → Option Json}
    (hjson : ∀ text, crates.isJson text = (parse text).isSome) {row row' : Event}
    {fields : List Field} (hfields : serializeEvent crates row = .ok fields)
    (hread : deserializeEvent (rowObject parse fields) = .ok row') :
    parse row.data = some (.string row'.data) := by
  obtain ⟨hvalid, before, rfl⟩ := serializeEvent_eq_ok hfields
  obtain ⟨value, hparse⟩ := Option.isSome_iff_exists.1 (hjson row.data ▸ hvalid)
  rw [rowObject, List.map_append] at hread
  -- the member after the data is that of the time
  have hvalue : (parse row.data).getD .null = .string row'.data := by
    refine data_of_deserializeEvent ?_ hread
    intro entry hentry
    obtain rfl := List.mem_singleton.1 hentry
    simp
  rw [hparse] at hvalue ⊢
  exact congrArg some hvalue

/-- No event comes back: its data would have to be a JSON text of itself, and a JSON text of a
string is longer than the string. -/
theorem not_roundTripsEvent {crates : Crates} {parse : String → Option Json}
    (hjson : ∀ text, crates.isJson text = (parse text).isSome)
    (hstring : ∀ text value, parse text = some (.string value) → value.length < text.length)
    (row : Event) : ¬ RoundTripsEvent crates parse row := by
  rintro ⟨fields, row', hfields, hread, -, hdata⟩
  have hparse : parse row'.data = some (.string row'.data) :=
    hdata.trans (parse_of_deserializeEvent hjson hfields hread)
  exact absurd (hstring _ _ hparse) (lt_irrefl _)

end Event

/-- A parser that knows the empty object. -/
def sampleParse (text : String) : Option Json :=
  if text = "\x7b\x7d" then some (.object []) else none

/-- The parser accepts what the crates take for JSON. -/
theorem isJson_sampleParse (text : String) :
    sampleCrates.isJson text = (sampleParse text).isSome := by
  rw [sampleParse]
  split_ifs with h <;> simp [sampleCrates, h]

/-- The parser knows no strings. -/
theorem length_lt_of_sampleParse {text value : String}
    (h : sampleParse text = some (.string value)) : value.length < text.length := by
  rw [sampleParse] at h
  split_ifs at h
  exact Json.noConfusion (Option.some.inj h)

/-- The user transaction with an event has a row of it. -/
theorem exists_eventRow_sampleUser :
    ∃ tx rows, getEvents sampleCrates tx = .ok (some rows) ∧ ∃ row, row ∈ rows := by
  have hrows : ((TransactionExtraction.tryFrom sampleUser).toOption.bind fun tx =>
      (getEvents sampleCrates tx).toOption.map fun rows => (rows.getD []).length) = some 1 := by
    decide +kernel
  obtain ⟨tx, -, hrows⟩ := Option.bind_eq_some_iff.1 hrows
  obtain ⟨rows, h, hlength⟩ := Outcome.map_toOption_eq_some.1 hrows
  cases rows with
  | none => exact absurd hlength Nat.zero_ne_one
  | some rows =>
    obtain ⟨row, hrow⟩ := List.length_eq_one_iff.1 hlength
    have hrow : rows = [row] := hrow
    exact ⟨tx, rows, h, row, hrow ▸ List.mem_singleton_self row⟩

/-- The event with an empty object does not come back. -/
theorem not_roundTripsEvent_sampleUser :
    ∃ tx rows row, getEvents sampleCrates tx = .ok (some rows) ∧ row ∈ rows ∧
      ¬ RoundTripsEvent sampleCrates sampleParse row := by
  obtain ⟨tx, rows, h, row, hrow⟩ := exists_eventRow_sampleUser
  exact ⟨tx, rows, row, h, hrow,
    not_roundTripsEvent isJson_sampleParse (fun _ _ => length_lt_of_sampleParse) row⟩

/-- Not all events that are extracted come back. -/
theorem extracted_not_roundTripsEvent :
    ¬ ∀ (crates : Crates) (parse : String → Option Json),
      (∀ text, crates.isJson text = (parse text).isSome) →
        (∀ text value, parse text = some (.string value) → value.length < text.length) →
          ∀ tx rows, getEvents crates tx = .ok (some rows) →
            ∀ row ∈ rows, RoundTripsEvent crates parse row := by
  intro hall
  obtain ⟨tx, rows, h, row, hrow⟩ := exists_eventRow_sampleUser
  obtain ⟨fields, row', hfields, hread, -⟩ := hall sampleCrates sampleParse isJson_sampleParse
    (fun _ _ => length_lt_of_sampleParse) tx rows h row hrow
  -- the value of the data is an object
  have hparse := parse_of_deserializeEvent isJson_sampleParse hfields hread
  rw [sampleParse] at hparse
  split_ifs at hparse
  exact Json.noConfusion (Option.some.inj hparse)

/-! ## What resources come back as -/

section Resource

variable {s s' : ResourceVariables} {entry : String × Json} {row row' : Resource}

/-- No member sets the text of the sequence number. -/
theorem big_of_visitResource (h : visitResource s entry = .ok s') :
    s'.tx_sequence_number_big = s.tx_sequence_number_big := by
  unfold visitResource at h
  split at h
  case h_15 =>
    obtain rfl := Outcome.ok.inj h
    rfl
  all_goals
    obtain ⟨v, -, h⟩ := Outcome.bind_eq_ok.1 h
    obtain rfl := Outcome.ok.inj h
    rfl

/-- A row has the text of the sequence number that was read. -/
theorem big_of_row (h : s.row = .ok row) :
    row.tx_sequence_number_big = s.tx_sequence_number_big := by
  simp only [ResourceVariables.row, required, Outcome.bind_eq_ok] at h
  obtain ⟨_, _, _, _, _, _, _, _, _, _, _, _, _, _, _, _, _, _, _, _, hrow⟩ := h
  obtain rfl := Outcome.ok.inj hrow
  rfl

/-- No resource that is read has the text of a sequence number. -/
theorem big_of_deserializeResource {members : List (String × Json)}
    (h : deserializeResource (.object members) = .ok row) : row.tx_sequence_number_big = none := by
  obtain ⟨s, hfold, hrow⟩ := Outcome.bind_eq_ok.1 h
  rw [big_of_row hrow, Json.eq_of_frame hfold fun _ _ _ _ => big_of_visitResource]
  rfl

/-- No resource is read from an object with a sequence number that is `null`. -/
theorem deserializeResource_null (before after : List (String × Json)) :
    deserializeResource (.object (before ++ ("tx_sequence_number", .null) :: after)) ≠ .ok row := by
  intro h
  obtain ⟨s, hfold, -⟩ := Outcome.bind_eq_ok.1 h
  obtain ⟨t, t', hvisit, -⟩ := Json.exists_visit hfold
  -- `null` is no number
  exact nomatch hvisit

/-- Among the fields of a resource is its sequence number. -/
theorem serializeResource_eq_ok {crates : Crates} {fields : List Field}
    (h : serializeResource crates row = .ok fields) :
    ∃ before after, fields =
      before ++ ("tx_sequence_number", .optionalUint64 row.tx_sequence_number) :: after := by
  obtain ⟨value, -, h⟩ := Outcome.bind_eq_ok.1 h
  obtain rfl := Outcome.ok.inj h
  exact ⟨[_, _, _, _], _, rfl⟩

/-- A resource is only read back where it has a sequence number as a number, and then without the
text. -/
theorem numbers_of_deserializeResource {crates : Crates} {parse : String → Option Json}
    {fields : List Field} (hfields : serializeResource crates row = .ok fields)
    (hread : deserializeResource (rowObject parse fields) = .ok row') :
    row.tx_sequence_number ≠ none ∧ row'.tx_sequence_number_big = none := by
  refine ⟨fun hnone => ?_, big_of_deserializeResource hread⟩
  obtain ⟨before, after, rfl⟩ := serializeResource_eq_ok hfields
  rw [hnone, rowObject, List.map_append] at hread
  exact deserializeResource_null _ _ hread

/-- The pair of columns of a resource that is extracted is that of an optional sequence number. -/
theorem exists_numbers_of_getChanges {crates : Crates} {tx : TransactionExtraction}
    {records : ChangeRecords} (h : getChanges crates tx = .ok records)
    (hrow : row ∈ records.resources) :
    ∃ number, (row.tx_sequence_number, row.tx_sequence_number_big) =
      sequenceNumberColumns number := by
  obtain ⟨⟨timestamp, htimestamp⟩, number, hnumber⟩ := exists_columns_of_getChanges h
  obtain ⟨columns, built, hcolumns, hbuilt, rfl⟩ := getChanges_eq_ok.1 h
  rw [ofBuilt_resources] at hrow
  obtain ⟨b, hb, hrow⟩ := List.mem_flatMap.1 hrow
  obtain ⟨item, -, hitem⟩ := Aligned.exists_of_mem_right hbuilt hb
  exact ⟨number,
    (carries_change htimestamp hnumber hcolumns hitem .Resources hrow).numbers _ rfl⟩

/-- The row comes back from its own JSON, with a resource of the same value, or none. -/
def RoundTripsResource (crates : Crates) (parse : String → Option Json) (row : Resource) : Prop :=
  ∃ fields row', serializeResource crates row = .ok fields ∧
    deserializeResource (rowObject parse fields) = .ok row' ∧
      { row' with resource := row.resource } = row ∧
        row'.resource.map parse = row.resource.map parse

/-- A resource whose columns are those of a sequence number does not come back: with a number, its
text is lost, and without one, it is not read at all. -/
theorem numbers_ne_of_deserializeResource {crates : Crates} {parse : String → Option Json}
    {fields : List Field} (hfields : serializeResource crates row = .ok fields)
    (hread : deserializeResource (rowObject parse fields) = .ok row') {number : Option UInt64}
    (hnumber : (row.tx_sequence_number, row.tx_sequence_number_big) =
      sequenceNumberColumns number) :
    row'.tx_sequence_number_big ≠ row.tx_sequence_number_big := by
  obtain ⟨hsome, hbig⟩ := numbers_of_deserializeResource hfields hread
  cases number with
  | none => exact absurd (congrArg Prod.fst hnumber) hsome
  | some number =>
    have htext := (congrArg Prod.snd hnumber).trans (denotes_sequenceNumberColumns number).big
    rw [hbig, show row.tx_sequence_number_big = _ from htext]
    exact Option.some_ne_none _ |>.symm

/-- No resource that is extracted comes back. -/
theorem not_roundTripsResource {crates : Crates} {parse : String → Option Json}
    {tx : TransactionExtraction} {records : ChangeRecords}
    (h : getChanges crates tx = .ok records) (hrow : row ∈ records.resources) :
    ¬ RoundTripsResource crates parse row := by
  rintro ⟨fields, row', hfields, hread, hsame, -⟩
  obtain ⟨number, hnumber⟩ := exists_numbers_of_getChanges h hrow
  have hbig : row'.tx_sequence_number_big = row.tx_sequence_number_big := by rw [← hsame]
  exact numbers_ne_of_deserializeResource hfields hread hnumber hbig

end Resource

/-- A user transaction that writes a resource with an empty object. -/
def sampleCoin : Input.Transaction :=
  { sampleUser with
    info := sampleUser.info.map fun info => { info with
      changes := [⟨.known .WriteResource, some (.WriteResource {
        address := "0x1"
        state_key_hash := []
        type := some (.mk "0x1" "coin" "Coin" [])
        type_str := "0x1::coin::Coin"
        data := "\x7b\x7d" })⟩] } }

/-- The transaction has a row of the resource, with JSON. -/
theorem exists_resourceRow_sampleCoin :
    ∃ tx records row, getChanges sampleCrates tx = .ok records ∧ row ∈ records.resources ∧
      ∀ text ∈ Resource.resource row, sampleCrates.isJson text = true := by
  have hrows : ((TransactionExtraction.tryFrom sampleCoin).toOption.bind fun tx =>
      (getChanges sampleCrates tx).toOption.map fun records =>
        records.resources.map Resource.resource) = some [some "\x7b\x7d"] := by
    decide +kernel
  obtain ⟨tx, -, hrows⟩ := Option.bind_eq_some_iff.1 hrows
  obtain ⟨records, h, hrows⟩ := Outcome.map_toOption_eq_some.1 hrows
  obtain ⟨row, hrow, hdata⟩ : ∃ row ∈ records.resources, Resource.resource row = some "\x7b\x7d" :=
    List.mem_map.1 (hrows ▸ List.mem_singleton_self _)
  refine ⟨tx, records, row, h, hrow, fun text htext => ?_⟩
  obtain rfl := Option.some.inj (hdata.symm.trans htext)
  exact of_decide_eq_true rfl

/-- The resource with an empty object does not come back. -/
theorem not_roundTripsResource_sampleCoin :
    ∃ tx records row, getChanges sampleCrates tx = .ok records ∧ row ∈ records.resources ∧
      ¬ RoundTripsResource sampleCrates sampleParse row := by
  obtain ⟨tx, records, row, h, hrow, -⟩ := exists_resourceRow_sampleCoin
  exact ⟨tx, records, row, h, hrow, not_roundTripsResource h hrow⟩

/-- Not all resources that are extracted with JSON come back. -/
theorem extracted_not_roundTripsResource :
    ¬ ∀ (crates : Crates) (parse : String → Option Json),
      (∀ text, crates.isJson text = (parse text).isSome) →
        (∀ text value, parse text = some (.string value) → value.length < text.length) →
          ∀ tx records, getChanges crates tx = .ok records → ∀ row ∈ records.resources,
            (∀ text ∈ Resource.resource row, crates.isJson text = true) →
              RoundTripsResource crates parse row := by
  intro hall
  obtain ⟨tx, records, row, h, hrow, hjson⟩ := exists_resourceRow_sampleCoin
  obtain ⟨fields, row', hfields, hread, hsame, -⟩ := hall sampleCrates sampleParse
    isJson_sampleParse (fun _ _ => length_lt_of_sampleParse) tx records h row hrow hjson
  obtain ⟨number, hnumber⟩ := exists_numbers_of_getChanges h hrow
  have hbig : row'.tx_sequence_number_big = row.tx_sequence_number_big := by rw [← hsame]
  exact numbers_ne_of_deserializeResource hfields hread hnumber hbig

end AptosEtl.Output
