import AptosEtl.Reps.MoveType

/-!
# Timestamps, JSON texts and events

`reps/timestamp.rs`, `reps/json.rs`, `reps/events.rs` and `tables::byte_processing`.
-/

namespace AptosEtl.Reps

open Rust Input

/-! ## Timestamps -/

/-- The errors of `Timestamp`. -/
inductive TimestampError where
  | NegativeNano (seconds nanos : ℤ)
  | OutOfRangeUtc (seconds : ℤ) (nanos : ℕ)
  | FailedToLoadTimestampFormat
  | OutOfRangeBigQuery (seconds : ℤ) (nanos : ℕ)
  deriving DecidableEq, Repr

/-- `Timestamp`. -/
structure Timestamp where
  seconds : ℤ
  nanos : ℕ
  deriving DecidableEq, Repr

namespace Timestamp

/-- `BIGQUERRY_MAX_TIMESTAMP_STRING`. -/
def bigquerryMaxTimestampString : String := "9999-12-31 23:59:59"

/-- `BIGQUERRY_MAX_TIMESTAMP_SECONDS`. -/
def bigquerryMaxTimestampSeconds : ℤ := 253402300799

/-- `BIGQUERRY_MIN_TIMESTAMP_SECONDS`. -/
def bigquerryMinTimestampSeconds : ℤ := -2208988800

/-- `Timestamp::try_from`. -/
def tryFrom (value : Input.Timestamp) : Outcome TimestampError Timestamp :=
  if value.nanos < 0 then
    .err (.NegativeNano value.seconds value.nanos)
  else
    .ok ⟨value.seconds, value.nanos.toNat⟩

/-- `Timestamp::try_encode`: above the maximum of BigQuery, the maximum. -/
def tryEncode (crates : Crates) (self : Timestamp) : Outcome TimestampError String :=
  if self.seconds < bigquerryMinTimestampSeconds then
    .err (.OutOfRangeBigQuery self.seconds self.nanos)
  -- asymmetric: below the minimum is an error, above the maximum is the maximum
  else if self.seconds > bigquerryMaxTimestampSeconds then
    .ok bigquerryMaxTimestampString
  else if !crates.isUtc self.seconds self.nanos then
    .err (.OutOfRangeUtc self.seconds self.nanos)
  else
    match crates.timestampFormat with
    | some format => .ok (crates.format format self.seconds self.nanos)
    | none => .err .FailedToLoadTimestampFormat

/-- `Timestamp::encode`. -/
def encode (self : Timestamp) : Rows.UnixTimestamp := ⟨self.seconds, self.nanos⟩

/-- Converting a timestamp returns. -/
theorem tryFrom_settles (value : Input.Timestamp) : (tryFrom value).Settles := by
  unfold tryFrom
  split_ifs <;> simp

/-- Encoding a timestamp returns. -/
theorem tryEncode_settles (crates : Crates) (self : Timestamp) :
    (self.tryEncode crates).Settles := by
  unfold tryEncode
  split_ifs
  · exact Outcome.settles_err _
  · exact Outcome.settles_ok _
  · exact Outcome.settles_err _
  · split <;> simp

end Timestamp

/-! ## JSON texts -/

/-- `JsonStringError`. -/
inductive JsonStringError where
  | InvalidJsonString (string : String)
  deriving DecidableEq, Repr

/-- `JsonStringError`'s display. -/
def JsonStringError.display : JsonStringError → String
  | .InvalidJsonString string => "Failed to create JsonStringObject: `" ++ string ++ "`"

/-- `JsonObjectString::try_from`, whose value is the text itself. -/
def jsonObjectString (crates : Crates) (value : String) : Outcome JsonStringError String :=
  if crates.isJson value then .ok value else .err (.InvalidJsonString value)

/-! ## Events -/

/-- The errors of `EventExtraction`. -/
inductive EventExtractionError where
  | MissingEventKey
  | MissingMoveType
  | MoveType (error : MoveTypeError)

/-- `EventExtraction`. -/
structure EventExtraction where
  address : Address
  creation_number : UInt64
  sequence_number : UInt64
  type : MoveType
  type_str : String
  data : String

namespace EventExtraction

/-- The `data` field of `EventExtraction::try_from`: a text that is not JSON panics. -/
def extractData (crates : Crates) (data : String) : Outcome EventExtractionError String :=
  match jsonObjectString crates data with
  | .ok jsonobjstr => .ok jsonobjstr
  -- `expect`, where the other failures of an event are errors
  | .err error => .panic ("Issue with JsonObjectString: " ++ error.display)
  | .panic message => .panic message

/-- `EventExtraction::try_from`. -/
def tryFrom (crates : Crates) (value : Input.Event) :
    Outcome EventExtractionError EventExtraction :=
  match value.key with
  | none => .err .MissingEventKey
  | some eventkey =>
    match value.type with
    | none => .err .MissingMoveType
    | some movetype =>
      (MoveType.tryFrom movetype).mapErr .MoveType |>.bind fun movetype =>
        (extractData crates value.data).bind fun data =>
          .ok {
            address := .string eventkey.account_address
            creation_number := eventkey.creation_number
            sequence_number := value.sequence_number
            type := movetype
            type_str := value.type_str
            data := data }

/-- An event is extracted to what it and its key say, and its data is JSON. -/
theorem tryFrom_eq_ok {crates : Crates} {value : Input.Event} {extraction : EventExtraction}
    (h : tryFrom crates value = .ok extraction) :
    ∃ eventkey type, value.key = some eventkey ∧ crates.isJson value.data = true ∧ extraction = {
      address := .string eventkey.account_address
      creation_number := eventkey.creation_number
      sequence_number := value.sequence_number
      type := type
      type_str := value.type_str
      data := value.data } := by
  unfold tryFrom at h
  split at h
  case h_1 => exact nomatch h
  case h_2 eventkey hkey =>
    split at h
    case h_1 => exact nomatch h
    case h_2 movetype _ =>
      obtain ⟨type, -, h⟩ := Outcome.bind_eq_ok.1 h
      obtain ⟨data, hdata, h⟩ := Outcome.bind_eq_ok.1 h
      rw [extractData, jsonObjectString] at hdata
      split_ifs at hdata with hjson
      obtain rfl := Outcome.ok.inj hdata
      exact ⟨eventkey, type, hkey, hjson, (Outcome.ok.inj h).symm⟩

/-- The event is refused before its data is looked at: it has no key, no type, or a type whose
number is unknown. -/
def Malformed (value : Input.Event) : Prop :=
  value.key = none ∨ ∀ movetype, value.type = some movetype → ∃ n, movetype.type = .unknown n

/-- Extracting an event panics exactly on an event with a key and a known type whose data is not
JSON. -/
theorem tryFrom_settles_iff (crates : Crates) (value : Input.Event) :
    (tryFrom crates value).Settles ↔ (Malformed value ∨ crates.isJson value.data = true) := by
  unfold tryFrom Malformed
  cases hkey : value.key with
  | none => simp
  | some eventkey =>
    -- the checks come in this order, and only what passes all of them has its data parsed
    cases htype : value.type with
    | none => simp
    | some movetype =>
      cases hkind : movetype.type with
      | unknown n => simp [MoveType.tryFrom, decodeMoveTypes, hkind]
      | known kind =>
        cases hjson : crates.isJson value.data <;>
          simp [MoveType.tryFrom, decodeMoveTypes, hkind, extractData, jsonObjectString, hjson]

end EventExtraction

end AptosEtl.Reps
