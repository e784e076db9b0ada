import AptosEtl.Reps.Values

/-!
# Write-set changes

`reps/changes.rs`. Each of the six kinds of change becomes a record of one of three families,
which keeps the kind it came from. The families and the kinds are tied together only by `tryFrom`:
a module record has the kind of a write or a delete of a module, and so on (`WellFormed`). The
counts of a transaction go by the kind and its rows by the family, so this is what makes them
agree.
-/

namespace AptosEtl.Reps

open Rust Input

/-- The errors of `IncompleteChangeRecord`: `ChangeError` of `reps/changes.rs`, without the one that
nothing raises. -/
inductive ChangeRecordError where
  | MissingChangeData
  | MissingModuleBytecodeData
  | MissingTableData
  | MismatchChangeData
  | StructTagError (error : StructTagError)

/-! ## Resources -/

/-- `IncompleteResourceRecord`. -/
structure IncompleteResourceRecord where
  change_type : ChangeType
  address : Address
  state_key_hash : HashValue
  struct_tag : Option StructTag
  type_str : String
  data : Option String

namespace IncompleteResourceRecord

/-- The conversion of an optional struct tag. -/
def tryFromTag : Option MoveStructTag → Outcome ChangeRecordError (Option StructTag)
  | some tag => (StructTag.tryFrom tag).mapErr .StructTagError |>.bind fun tag => .ok (some tag)
  | none => .ok none

/-- `IncompleteResourceRecord::try_from` on a delete. -/
def ofDelete (value : DeleteResource) : Outcome ChangeRecordError IncompleteResourceRecord :=
  (tryFromTag value.type).bind fun tag =>
    .ok {
      change_type := .DeleteResource
      address := .string value.address
      state_key_hash := ⟨value.state_key_hash⟩
      struct_tag := tag
      type_str := value.type_str
      data := none }

/-- `IncompleteResourceRecord::try_from` on a write. -/
def ofWrite (value : WriteResource) : Outcome ChangeRecordError IncompleteResourceRecord :=
  (tryFromTag value.type).bind fun tag =>
    .ok {
      change_type := .WriteResource
      address := .string value.address
      state_key_hash := ⟨value.state_key_hash⟩
      struct_tag := tag
      type_str := value.type_str
      data := some value.data }

theorem change_type_of_ofDelete {value : DeleteResource} {record : IncompleteResourceRecord}
    (h : ofDelete value = .ok record) : record.change_type = .DeleteResource := by
  obtain ⟨tag, -, hrecord⟩ := Outcome.bind_eq_ok.1 h
  obtain rfl := Outcome.ok.inj hrecord
  rfl

theorem change_type_of_ofWrite {value : WriteResource} {record : IncompleteResourceRecord}
    (h : ofWrite value = .ok record) : record.change_type = .WriteResource := by
  obtain ⟨tag, -, hrecord⟩ := Outcome.bind_eq_ok.1 h
  obtain rfl := Outcome.ok.inj hrecord
  rfl

/-- Converting an optional struct tag returns. -/
theorem tryFromTag_settles (tag : Option MoveStructTag) : (tryFromTag tag).Settles := by
  cases tag with
  | none => exact Outcome.settles_ok _
  | some tag =>
    have htag : ((StructTag.tryFrom tag).mapErr ChangeRecordError.StructTagError).Settles :=
      Outcome.settles_mapErr.2 (StructTag.tryFrom_settles tag)
    exact htag.bind fun _ _ => Outcome.settles_ok _

theorem ofDelete_settles (value : DeleteResource) : (ofDelete value).Settles :=
  (tryFromTag_settles value.type).bind fun _ _ => Outcome.settles_ok _

theorem ofWrite_settles (value : WriteResource) : (ofWrite value).Settles :=
  (tryFromTag_settles value.type).bind fun _ _ => Outcome.settles_ok _

end IncompleteResourceRecord

/-! ## Table items -/

/-- `IncompleteTableItemRecord`. -/
structure IncompleteTableItemRecord where
  change_type : ChangeType
  state_key_hash : HashValue
  handle : Address
  key : Rows.TableKey
  value : Option Rows.TableValue

/-- `str::strip_suffix` with one character. -/
def stripSuffix? (last : Char) (string : String) : Option String :=
  if string.toList.getLast? = some last then
    some (String.ofList string.toList.dropLast)
  else
    none

/-- `strip_quotes`: both fallbacks are the whole text, so a text with only the opening quote keeps
it. -/
def stripQuotes (string : String) : String :=
  let noprefix := (stripPrefix? ['"'] string).getD string
  (stripSuffix? '"' noprefix).getD string

namespace IncompleteTableItemRecord

/-- `IncompleteTableItemRecord::try_from` on a write. -/
def ofWrite (value : WriteTableItem) : Outcome ChangeRecordError IncompleteTableItemRecord :=
  match value.data with
  | none => .err .MissingTableData
  | some tabledata =>
    .ok {
      change_type := .WriteTableItem
      state_key_hash := ⟨value.state_key_hash⟩
      handle := .string value.handle
      key := ⟨stripQuotes tabledata.key, tabledata.key_type⟩
      value := some ⟨stripQuotes tabledata.value, tabledata.value_type⟩ }

/-- `IncompleteTableItemRecord::try_from` on a delete. -/
def ofDelete (value : DeleteTableItem) : Outcome ChangeRecordError IncompleteTableItemRecord :=
  match value.data with
  | none => .err .MissingTableData
  | some tabledata =>
    .ok {
      change_type := .DeleteTableItem
      state_key_hash := ⟨value.state_key_hash⟩
      handle := .string value.handle
      key := ⟨stripQuotes tabledata.key, tabledata.key_type⟩
      value := none }

theorem change_type_of_ofWrite {value : WriteTableItem} {record : IncompleteTableItemRecord}
    (h : ofWrite value = .ok record) : record.change_type = .WriteTableItem := by
  unfold ofWrite at h
  split at h
  · exact nomatch h
  · obtain rfl := Outcome.ok.inj h
    rfl

theorem change_type_of_ofDelete {value : DeleteTableItem} {record : IncompleteTableItemRecord}
    (h : ofDelete value = .ok record) : record.change_type = .DeleteTableItem := by
  unfold ofDelete at h
  split at h
  · exact nomatch h
  · obtain rfl := Outcome.ok.inj h
    rfl

theorem ofWrite_settles (value : WriteTableItem) : (ofWrite value).Settles := by
  unfold ofWrite
  split
  · exact Outcome.settles_err _
  · exact Outcome.settles_ok _

theorem ofDelete_settles (value : DeleteTableItem) : (ofDelete value).Settles := by
  unfold ofDelete
  split
  · exact Outcome.settles_err _
  · exact Outcome.settles_ok _

end IncompleteTableItemRecord

/-! ## Modules -/

/-- `IncompleteModuleRecord`. -/
structure IncompleteModuleRecord where
  change_type : ChangeType
  address : Address
  state_key_hash : HashValue
  module_id : Option ModuleId
  module_data : Option MoveModuleBytecode

namespace IncompleteModuleRecord

/-- `IncompleteModuleRecord::try_from` on a write, where the bytecode is mandatory. -/
def ofWrite (value : WriteModule) : Outcome ChangeRecordError IncompleteModuleRecord :=
  match value.data with
  | none => .err .MissingModuleBytecodeData
  | some mmbc =>
    .ok {
      change_type := .WriteModule
      address := .string value.address
      state_key_hash := ⟨value.state_key_hash⟩
      module_id := mmbc.abi.map fun abi => ⟨.string abi.address, abi.name⟩
      module_data := some mmbc }

/-- `IncompleteModuleRecord::try_from` on a delete. -/
def ofDelete (value : DeleteModule) : IncompleteModuleRecord where
  change_type := .DeleteModule
  address := .string value.address
  state_key_hash := ⟨value.state_key_hash⟩
  module_id := value.module.map ModuleId.ofMessage
  module_data := none

theorem change_type_of_ofWrite {value : WriteModule} {record : IncompleteModuleRecord}
    (h : ofWrite value = .ok record) : record.change_type = .WriteModule := by
  unfold ofWrite at h
  split at h
  · exact nomatch h
  · obtain rfl := Outcome.ok.inj h
    rfl

theorem ofWrite_settles (value : WriteModule) : (ofWrite value).Settles := by
  unfold ofWrite
  split
  · exact Outcome.settles_err _
  · exact Outcome.settles_ok _

end IncompleteModuleRecord

/-! ## Changes -/

/-- `IncompleteChangeRecord`. -/
inductive IncompleteChangeRecord where
  | Resource (record : IncompleteResourceRecord)
  | TableItem (record : IncompleteTableItemRecord)
  | Module (record : IncompleteModuleRecord)

namespace IncompleteChangeRecord

/-- `IncompleteChangeRecord::get_type`. -/
def getType : IncompleteChangeRecord → ChangeType
  | Module record => record.change_type
  | TableItem record => record.change_type
  | Resource record => record.change_type

/-- `IncompleteChangeRecord::address`. -/
def address : IncompleteChangeRecord → Option Address
  | Module record => some record.address
  | Resource record => some record.address
  | TableItem record => some record.handle

/-- `IncompleteChangeRecord::state_key_hash`. -/
def stateKeyHash : IncompleteChangeRecord → Option HashValue
  | Module record => some record.state_key_hash
  | Resource record => some record.state_key_hash
  | TableItem record => some record.state_key_hash

/-- `IncompleteChangeRecord::try_from`: the declared type must be that of the data. -/
def tryFrom (value : WriteSetChange) : Outcome ChangeRecordError IncompleteChangeRecord :=
  match value.type.getD .Unspecified, value.change with
  | .DeleteModule, some (.DeleteModule data) => .ok (.Module (.ofDelete data))
  | .WriteModule, some (.WriteModule data) =>
    (IncompleteModuleRecord.ofWrite data).bind fun record => .ok (.Module record)
  | .DeleteResource, some (.DeleteResource data) =>
    (IncompleteResourceRecord.ofDelete data).bind fun record => .ok (.Resource record)
  | .WriteResource, some (.WriteResource data) =>
    (IncompleteResourceRecord.ofWrite data).bind fun record => .ok (.Resource record)
  | .WriteTableItem, some (.WriteTableItem data) =>
    (IncompleteTableItemRecord.ofWrite data).bind fun record => .ok (.TableItem record)
  | .DeleteTableItem, some (.DeleteTableItem data) =>
    (IncompleteTableItemRecord.ofDelete data).bind fun record => .ok (.TableItem record)
  -- data under another type is refused, and so is a declared type without data
  | _, some _ => .err .MismatchChangeData
  | _, none => .err .MissingChangeData

/-- The kind that a record keeps is one of its family. -/
def WellFormed : IncompleteChangeRecord → Prop
  | Module record => record.change_type = .WriteModule ∨ record.change_type = .DeleteModule
  | Resource record => record.change_type = .WriteResource ∨ record.change_type = .DeleteResource
  | TableItem record =>
    record.change_type = .WriteTableItem ∨ record.change_type = .DeleteTableItem

/-- What a change is converted to, for each type that has data of its own. -/
inductive ConvertsTo (value : WriteSetChange) : IncompleteChangeRecord → Prop where
  | DeleteModule {data : Input.DeleteModule} (htype : value.type.getD .Unspecified = .DeleteModule)
    (hdata : value.change = some (.DeleteModule data)) : ConvertsTo value (.Module (.ofDelete data))
  | WriteModule {data : Input.WriteModule} {record : IncompleteModuleRecord}
    (htype : value.type.getD .Unspecified = .WriteModule)
    (hdata : value.change = some (.WriteModule data))
    (hrecord : IncompleteModuleRecord.ofWrite data = .ok record) : ConvertsTo value (.Module record)
  | DeleteResource {data : Input.DeleteResource} {record : IncompleteResourceRecord}
    (htype : value.type.getD .Unspecified = .DeleteResource)
    (hdata : value.change = some (.DeleteResource data))
    (hrecord : IncompleteResourceRecord.ofDelete data = .ok record) :
    ConvertsTo value (.Resource record)
  | WriteResource {data : Input.WriteResource} {record : IncompleteResourceRecord}
    (htype : value.type.getD .Unspecified = .WriteResource)
    (hdata : value.change = some (.WriteResource data))
    (hrecord : IncompleteResourceRecord.ofWrite data = .ok record) :
    ConvertsTo value (.Resource record)
  | WriteTableItem {data : Input.WriteTableItem} {record : IncompleteTableItemRecord}
    (htype : value.type.getD .Unspecified = .WriteTableItem)
    (hdata : value.change = some (.WriteTableItem data))
    (hrecord : IncompleteTableItemRecord.ofWrite data = .ok record) :
    ConvertsTo value (.TableItem record)
  | DeleteTableItem {data : Input.DeleteTableItem} {record : IncompleteTableItemRecord}
    (htype : value.type.getD .Unspecified = .DeleteTableItem)
    (hdata : value.change = some (.DeleteTableItem data))
    (hrecord : IncompleteTableItemRecord.ofDelete data = .ok record) :
    ConvertsTo value (.TableItem record)

/-- A conversion that succeeds is one of these. -/
theorem convertsTo_of_tryFrom {value : WriteSetChange} {record : IncompleteChangeRecord}
    (h : tryFrom value = .ok record) : ConvertsTo value record := by
  unfold tryFrom at h
  -- one case for each kind of data under its own type, then the two refusals
  split at h
  case h_1 data htype hdata =>
    obtain rfl := Outcome.ok.inj h
    exact .DeleteModule htype hdata
  case h_2 data htype hdata =>
    obtain ⟨module, hmodule, h⟩ := Outcome.bind_eq_ok.1 h
    obtain rfl := Outcome.ok.inj h
    exact .WriteModule htype hdata hmodule
  case h_3 data htype hdata =>
    obtain ⟨resource, hresource, h⟩ := Outcome.bind_eq_ok.1 h
    obtain rfl := Outcome.ok.inj h
    exact .DeleteResource htype hdata hresource
  case h_4 data htype hdata =>
    obtain ⟨resource, hresource, h⟩ := Outcome.bind_eq_ok.1 h
    obtain rfl := Outcome.ok.inj h
    exact .WriteResource htype hdata hresource
  case h_5 data htype hdata =>
    obtain ⟨item, hitem, h⟩ := Outcome.bind_eq_ok.1 h
    obtain rfl := Outcome.ok.inj h
    exact .WriteTableItem htype hdata hitem
  case h_6 data htype hdata =>
    obtain ⟨item, hitem, h⟩ := Outcome.bind_eq_ok.1 h
    obtain rfl := Outcome.ok.inj h
    exact .DeleteTableItem htype hdata hitem
  case h_7 => exact nomatch h
  case h_8 => exact nomatch h

/-- A converted change keeps the declared type. -/
theorem getType_of_tryFrom {value : WriteSetChange} {record : IncompleteChangeRecord}
    (h : tryFrom value = .ok record) : record.getType = value.type.getD .Unspecified := by
  cases convertsTo_of_tryFrom h with
  | DeleteModule htype hdata => exact htype.symm
  | WriteModule htype hdata hrecord =>
    exact (IncompleteModuleRecord.change_type_of_ofWrite hrecord).trans htype.symm
  | DeleteResource htype hdata hrecord =>
    exact (IncompleteResourceRecord.change_type_of_ofDelete hrecord).trans htype.symm
  | WriteResource htype hdata hrecord =>
    exact (IncompleteResourceRecord.change_type_of_ofWrite hrecord).trans htype.symm
  | WriteTableItem htype hdata hrecord =>
    exact (IncompleteTableItemRecord.change_type_of_ofWrite hrecord).trans htype.symm
  | DeleteTableItem htype hdata hrecord =>
    exact (IncompleteTableItemRecord.change_type_of_ofDelete hrecord).trans htype.symm

/-- A converted change is well formed. -/
theorem wellFormed_of_tryFrom {value : WriteSetChange} {record : IncompleteChangeRecord}
    (h : tryFrom value = .ok record) : record.WellFormed := by
  have htype := getType_of_tryFrom h
  cases convertsTo_of_tryFrom h with
  | DeleteModule hdeclared => exact .inr rfl
  | WriteModule hdeclared => exact .inl (htype.trans hdeclared)
  | DeleteResource hdeclared => exact .inr (htype.trans hdeclared)
  | WriteResource hdeclared => exact .inl (htype.trans hdeclared)
  | WriteTableItem hdeclared => exact .inl (htype.trans hdeclared)
  | DeleteTableItem hdeclared => exact .inr (htype.trans hdeclared)

/-- Converting a change returns. -/
theorem tryFrom_settles (value : WriteSetChange) : (tryFrom value).Settles := by
  unfold tryFrom
  split
  case h_1 => exact Outcome.settles_ok _
  case h_2 =>
    exact (IncompleteModuleRecord.ofWrite_settles _).bind fun _ _ => Outcome.settles_ok _
  case h_3 =>
    exact (IncompleteResourceRecord.ofDelete_settles _).bind fun _ _ => Outcome.settles_ok _
  case h_4 =>
    exact (IncompleteResourceRecord.ofWrite_settles _).bind fun _ _ => Outcome.settles_ok _
  case h_5 =>
    exact (IncompleteTableItemRecord.ofWrite_settles _).bind fun _ _ => Outcome.settles_ok _
  case h_6 =>
    exact (IncompleteTableItemRecord.ofDelete_settles _).bind fun _ _ => Outcome.settles_ok _
  case h_7 => exact Outcome.settles_err _
  case h_8 => exact Outcome.settles_err _

end IncompleteChangeRecord

end AptosEtl.Reps
