import AptosEtl.Tables.DetailRows

/-!
# What a module row has of the ABI

An ABI passes through two layers of conversions on its way to the `modules` table. `Reproduces` says
that a row lists what the ABI lists, level by level: the lists have the same lengths, and each
element of a row is the encoding of the element of the ABI at its place.

Every conversion fails on an element that it cannot encode, except that the numbers of abilities are
read with the accessor of a repeated field, which leaves out those that it does not know
(`moduleRow_reproduces_iff`).
-/

namespace AptosEtl.Tables

open Rust Input Reps

variable {crates : Crates}

/-! ## The levels -/

/-- The text of an ability, under one of its two encodings. -/
def AbilityText (encode : Ability → Outcome AbilityError String) (number : EnumField MoveAbility)
    (text : String) : Prop :=
  ∃ ability, number = .known ability ∧ encode ⟨ability⟩ = .ok text

/-- The text of a type. -/
def TypeText (crates : Crates) (value : Input.MoveType) (text : String) : Prop :=
  encodeMoveType crates value = .ok text

/-- A function with the same name and lists. -/
structure ReproducesFunction (crates : Crates) (value : MoveFunction) (row : Rows.ExposedFunction) :
    Prop where
  name : row.name = value.name
  visibility : ∃ visibility, value.visibility = .known visibility ∧
    tryEncodeVisibility visibility = .ok row.visibility
  is_entry : row.is_entry = value.is_entry
  generic_type_params : List.Forall₂
    (fun param column =>
      List.Forall₂ (AbilityText Ability.tryEncode) param.constraints column.constraints)
    value.generic_type_params row.generic_type_params
  params : List.Forall₂ (TypeText crates) value.params row.params
  «return» : List.Forall₂ (TypeText crates) value.return row.return

/-- A field with the same name, and the text of its type. -/
def ReproducesField (crates : Crates) (value : MoveStructField) (row : Rows.Fields) : Prop :=
  row.name = value.name ∧ ∃ type, value.type = some type ∧ TypeText crates type row.type

/-- A struct with the same name and lists. -/
structure ReproducesStruct (crates : Crates) (value : MoveStruct) (row : Rows.Struct) : Prop where
  name : row.name = value.name
  is_native : row.is_native = value.is_native
  abilities : List.Forall₂ (AbilityText Ability.tryEncodeString) value.abilities row.abilities
  generic_type_params : List.Forall₂
    (fun param column => column.is_phantom = param.is_phantom ∧
      List.Forall₂ (AbilityText Ability.tryEncode) param.constraints column.constraints)
    value.generic_type_params row.generic_type_params
  fields : List.Forall₂ (ReproducesField crates) value.fields row.fields

/-- A friend with the same name, and its address standardized. -/
def ReproducesFriend (crates : Crates) (value : MoveModuleId) (row : Rows.Friend) : Prop :=
  row.name = value.name ∧ (Address.string value.address).tryEncode crates = .ok row.address

/-- The row of a module lists what its ABI lists. -/
structure Reproduces (crates : Crates) (abi : MoveModule) (row : Rows.Module) : Prop where
  friends : List.Forall₂ (ReproducesFriend crates) abi.friends row.friends
  exposed_functions : List.Forall₂ (ReproducesFunction crates) abi.exposed_functions
    row.exposed_functions
  structs : List.Forall₂ (ReproducesStruct crates) abi.structs row.structs

/-! ## Abilities -/

/-- The numbers are all those of an ability. -/
def Known (numbers : List (EnumField MoveAbility)) : Prop :=
  ∀ number ∈ numbers, number.member?.isSome = true

/-- The constraints of a function are known. -/
def KnownFunction (value : MoveFunction) : Prop :=
  ∀ param ∈ value.generic_type_params, Known param.constraints

/-- The abilities and the constraints of a struct are known. -/
def KnownStruct (value : MoveStruct) : Prop :=
  Known value.abilities ∧ ∀ param ∈ value.generic_type_params, Known param.constraints

/-- All abilities of an ABI are known. -/
def KnownAbilities (abi : MoveModule) : Prop :=
  (∀ function ∈ abi.exposed_functions, KnownFunction function) ∧
    ∀ struct ∈ abi.structs, KnownStruct struct

/-- Known numbers are those of the members. -/
theorem map_known_members {numbers : List (EnumField MoveAbility)} (h : Known numbers) :
    (members numbers).map .known = numbers := by
  induction numbers with
  | nil => rfl
  | cons number numbers ih =>
    obtain ⟨hknown, hrest⟩ := List.forall_mem_cons.1 h
    cases number with
    | known ability =>
      have hmembers : members (.known ability :: numbers) = ability :: members numbers := rfl
      rw [hmembers, List.map_cons, ih hrest]
    | unknown number => exact absurd hknown Bool.false_ne_true

/-- Encoded abilities are those of the numbers when all numbers are known. -/
theorem abilities_iff {encode : Ability → Outcome AbilityError String}
    {numbers : List (EnumField MoveAbility)} {texts : List String}
    (h : Outcome.tryMap encode ((members numbers).map Ability.mk) = .ok texts) :
    List.Forall₂ (AbilityText encode) numbers texts ↔ Known numbers := by
  constructor
  · intro htexts
    have hknown : ∀ number text, AbilityText encode number text →
        number.member?.isSome = true ∧ AbilityText encode number text := by
      rintro number text ⟨ability, rfl, hencode⟩
      exact ⟨rfl, ability, rfl, hencode⟩
    exact ((List.forall₂_and_left _ _).1 (htexts.imp hknown)).1
  · intro hknown
    rw [← map_known_members hknown, List.forall₂_map_left_iff]
    have hmembers := List.forall₂_map_left_iff.1 (Outcome.tryMap_eq_ok.1 h)
    exact hmembers.imp fun ability text hencode => ⟨ability, rfl, hencode⟩

/-- Encoded generic type parameters are those of a function when their constraints are known. -/
theorem functionParams_iff {values : List MoveFunctionGenericTypeParam}
    {rows : List Rows.GenericFunctionTypeParams}
    (h : Outcome.tryMap GenericTypeParam.tryEncodeFunction
      (values.map GenericTypeParam.ofFunction) = .ok rows) :
    List.Forall₂ (fun param column =>
        List.Forall₂ (AbilityText Ability.tryEncode) param.constraints column.constraints)
      values rows ↔ ∀ param ∈ values, Known param.constraints := by
  have hparams := List.forall₂_map_left_iff.1 (Outcome.tryMap_eq_ok.1 h)
  refine Aligned.forall₂_iff hparams fun param column hparam => ?_
  obtain ⟨constraints, hconstraints, hcolumn⟩ := Outcome.bind_eq_ok.1 hparam
  obtain rfl := Outcome.ok.inj hcolumn
  exact abilities_iff (Outcome.mapErr_eq_ok.1 hconstraints)

/-- Encoded generic type parameters are those of a struct when their constraints are known. -/
theorem structParams_iff {values : List MoveStructGenericTypeParam}
    {rows : List Rows.GenericStructTypeParams}
    (h : Outcome.tryMap GenericTypeParam.tryEncodeStruct
      (values.map GenericTypeParam.ofStruct) = .ok rows) :
    List.Forall₂ (fun param column => column.is_phantom = param.is_phantom ∧
        List.Forall₂ (AbilityText Ability.tryEncode) param.constraints column.constraints)
      values rows ↔ ∀ param ∈ values, Known param.constraints := by
  have hparams := List.forall₂_map_left_iff.1 (Outcome.tryMap_eq_ok.1 h)
  refine Aligned.forall₂_iff hparams fun param column hparam => ?_
  obtain ⟨constraints, hconstraints, hcolumn⟩ := Outcome.bind_eq_ok.1 hparam
  obtain rfl := Outcome.ok.inj hcolumn
  rw [abilities_iff (Outcome.mapErr_eq_ok.1 hconstraints)]
  exact and_iff_right rfl

/-! ## What a conversion gives -/

/-- Converted and encoded types are the texts of the types. -/
theorem types_of_tryMap {values : List Input.MoveType} {types : List Reps.MoveType}
    {texts : List String} (hfrom : Outcome.tryMap MoveType.tryFrom values = .ok types)
    (hencode : Outcome.tryMap (MoveType.tryEncode crates) types = .ok texts) :
    List.Forall₂ (TypeText crates) values texts := by
  have hboth := Aligned.comp (Outcome.tryMap_eq_ok.1 hfrom) (Outcome.tryMap_eq_ok.1 hencode)
  refine hboth.imp fun value text htype => ?_
  obtain ⟨type, hvalue, htext⟩ := htype
  rw [TypeText, ← MoveType.tryFrom_bind_tryEncode, hvalue]
  exact htext

/-- A visibility that is encoded is known. -/
theorem known_of_tryEncodeVisibility {value : EnumField Visibility} {text : String}
    (h : tryEncodeVisibility (value.getD .Unspecified) = .ok text) :
    ∃ visibility, value = .known visibility ∧ tryEncodeVisibility visibility = .ok text := by
  cases value with
  | known visibility => exact ⟨visibility, rfl, h⟩
  | unknown number => cases h

/-- A function is reproduced when its constraints are known. -/
theorem reproducesFunction_iff {value : MoveFunction} {self : Reps.Function}
    {row : Rows.ExposedFunction} (hfrom : Function.tryFrom value = .ok self)
    (hencode : self.tryEncode crates = .ok row) :
    ReproducesFunction crates value row ↔ KnownFunction value := by
  obtain ⟨params, hparams, hfrom⟩ := Outcome.bind_eq_ok.1 hfrom
  obtain ⟨returns, hreturns, hfrom⟩ := Outcome.bind_eq_ok.1 hfrom
  obtain rfl := Outcome.ok.inj hfrom
  obtain ⟨gtps, hgtps, hencode⟩ := Outcome.bind_eq_ok.1 hencode
  obtain ⟨paramTexts, hparamTexts, hencode⟩ := Outcome.bind_eq_ok.1 hencode
  obtain ⟨returnTexts, hreturnTexts, hencode⟩ := Outcome.bind_eq_ok.1 hencode
  obtain ⟨visibility, hvisibility, hencode⟩ := Outcome.bind_eq_ok.1 hencode
  obtain rfl := Outcome.ok.inj hencode
  rw [KnownFunction, ← functionParams_iff (Outcome.mapErr_eq_ok.1 hgtps)]
  refine ⟨fun h => h.generic_type_params, fun hgtps => ?_⟩
  exact {
    name := rfl
    visibility := known_of_tryEncodeVisibility (Outcome.mapErr_eq_ok.1 hvisibility)
    is_entry := rfl
    generic_type_params := hgtps
    params := types_of_tryMap (Outcome.mapErr_eq_ok.1 hparams) (Outcome.mapErr_eq_ok.1 hparamTexts)
    «return» :=
      types_of_tryMap (Outcome.mapErr_eq_ok.1 hreturns) (Outcome.mapErr_eq_ok.1 hreturnTexts) }

/-- A field that is converted and encoded is reproduced. -/
theorem reproducesField_of_tryEncode {value : MoveStructField} {self : StructField}
    {row : Rows.Fields} (hfrom : StructField.tryFrom value = .ok self)
    (hencode : self.tryEncode crates = .ok row) : ReproducesField crates value row := by
  unfold StructField.tryFrom at hfrom
  cases htype : value.type with
  | none =>
    rw [htype] at hfrom
    cases hfrom
  | some type =>
    rw [htype] at hfrom
    obtain ⟨mvtype, hmvtype, hfrom⟩ := Outcome.bind_eq_ok.1 hfrom
    obtain rfl := Outcome.ok.inj hfrom
    obtain ⟨text, htext, hencode⟩ := Outcome.bind_eq_ok.1 hencode
    obtain rfl := Outcome.ok.inj hencode
    refine ⟨rfl, type, htype, ?_⟩
    rw [TypeText, ← MoveType.tryFrom_bind_tryEncode, Outcome.mapErr_eq_ok.1 hmvtype]
    exact Outcome.mapErr_eq_ok.1 htext

/-- A struct is reproduced when its abilities and constraints are known. -/
theorem reproducesStruct_iff {value : MoveStruct} {self : MvStruct} {row : Rows.Struct}
    (hfrom : MvStruct.tryFrom value = .ok self) (hencode : self.tryEncode crates = .ok row) :
    ReproducesStruct crates value row ↔ KnownStruct value := by
  obtain ⟨fields, hfields, hfrom⟩ := Outcome.bind_eq_ok.1 hfrom
  obtain rfl := Outcome.ok.inj hfrom
  obtain ⟨abilities, habilities, hencode⟩ := Outcome.bind_eq_ok.1 hencode
  obtain ⟨gtps, hgtps, hencode⟩ := Outcome.bind_eq_ok.1 hencode
  obtain ⟨columns, hcolumns, hencode⟩ := Outcome.bind_eq_ok.1 hencode
  obtain rfl := Outcome.ok.inj hencode
  have hboth := Aligned.comp (Outcome.tryMap_eq_ok.1 hfields) (Outcome.tryMap_eq_ok.1 hcolumns)
  rw [KnownStruct, ← abilities_iff (Outcome.mapErr_eq_ok.1 habilities),
    ← structParams_iff (Outcome.mapErr_eq_ok.1 hgtps)]
  refine ⟨fun h => ⟨h.abilities, h.generic_type_params⟩, ?_⟩
  rintro ⟨habilities, hgtps⟩
  exact {
    name := rfl
    is_native := rfl
    abilities := habilities
    generic_type_params := hgtps
    fields := hboth.imp fun value row hfield => by
      obtain ⟨field, hfield, hcolumn⟩ := hfield
      exact reproducesField_of_tryEncode hfield hcolumn }

/-- Friends that are encoded are reproduced. -/
theorem reproducesFriend_of_tryEncode {value : MoveModuleId} {row : Rows.Friend}
    (h : (ModuleId.ofMessage value).tryEncodeFriend crates = .ok row) :
    ReproducesFriend crates value row := by
  obtain ⟨address, haddress, h⟩ := Outcome.bind_eq_ok.1 h
  obtain rfl := Outcome.ok.inj h
  exact ⟨rfl, Outcome.mapErr_eq_ok.1 haddress⟩

/-- The columns of an ABI reproduce it when all of its abilities are known. -/
theorem abiColumns_reproduces_iff {bytecode : Bytes} {abi : MoveModule} {columns : ModuleColumns}
    (h : abiColumns crates bytecode abi = .ok columns) :
    List.Forall₂ (ReproducesFriend crates) abi.friends columns.friends ∧
      ((List.Forall₂ (ReproducesFunction crates) abi.exposed_functions columns.exposed ∧
        List.Forall₂ (ReproducesStruct crates) abi.structs columns.structs) ↔
          KnownAbilities abi) := by
  obtain ⟨extraction, hextraction, h⟩ := Outcome.bind_eq_ok.1 h
  obtain ⟨friends, hfriends, h⟩ := Outcome.bind_eq_ok.1 h
  obtain ⟨exposed, hexposed, h⟩ := Outcome.bind_eq_ok.1 h
  obtain ⟨structs, hstructs, h⟩ := Outcome.bind_eq_ok.1 h
  obtain rfl := Outcome.ok.inj h
  obtain ⟨functions, hfunctions, hextraction⟩ :=
    Outcome.bind_eq_ok.1 (Outcome.mapErr_eq_ok.1 hextraction)
  obtain ⟨mvstructs, hmvstructs, hextraction⟩ := Outcome.bind_eq_ok.1 hextraction
  obtain rfl := Outcome.ok.inj hextraction
  have hfriendRows := Outcome.tryMap_eq_ok.1 (Outcome.mapErr_eq_ok.1 hfriends)
  have hfunctionRows := Aligned.comp (Outcome.tryMap_eq_ok.1 (Outcome.mapErr_eq_ok.1 hfunctions))
    (Outcome.tryMap_eq_ok.1 (Outcome.mapErr_eq_ok.1 hexposed))
  have hstructRows := Aligned.comp (Outcome.tryMap_eq_ok.1 (Outcome.mapErr_eq_ok.1 hmvstructs))
    (Outcome.tryMap_eq_ok.1 (Outcome.mapErr_eq_ok.1 hstructs))
  refine ⟨(List.forall₂_map_left_iff.1 hfriendRows).imp fun _ _ => reproducesFriend_of_tryEncode,
    and_congr ?_ ?_⟩
  · refine Aligned.forall₂_iff hfunctionRows fun value row hrow => ?_
    obtain ⟨self, hfrom, hencode⟩ := hrow
    exact reproducesFunction_iff hfrom hencode
  · refine Aligned.forall₂_iff hstructRows fun value row hrow => ?_
    obtain ⟨self, hfrom, hencode⟩ := hrow
    exact reproducesStruct_iff hfrom hencode

/-! ## The row of a written module -/

/-- The ABI of a written module. -/
def writtenAbi (change : WriteSetChange) : Option MoveModule :=
  match change.change with
  | some (.WriteModule data) => data.data.bind (·.abi)
  | _ => none

/-- Only a written module has an ABI, in its bytecode. -/
theorem exists_data_of_writtenAbi {change : WriteSetChange} {abi : MoveModule}
    (h : writtenAbi change = some abi) :
    ∃ data bytecode, change.change = some (.WriteModule data) ∧
      data.data = some ⟨bytecode, some abi⟩ := by
  unfold writtenAbi at h
  split at h
  case h_1 data hdata =>
    obtain ⟨⟨bytecode, abi'⟩, hbytecode, rfl⟩ := Option.bind_eq_some_iff.1 h
    exact ⟨data, bytecode, hdata, hbytecode⟩
  case h_2 => exact nomatch h

/-- A written module with an ABI is converted to a record that has it. -/
theorem exists_module_of_tryFrom {change : WriteSetChange} {record : IncompleteChangeRecord}
    {abi : MoveModule} (habi : writtenAbi change = some abi)
    (h : IncompleteChangeRecord.tryFrom change = .ok record) :
    ∃ module bytecode, record = .Module module ∧
      module.module_data = some ⟨bytecode, some abi⟩ := by
  obtain ⟨data, bytecode, hdata, hbytecode⟩ := exists_data_of_writtenAbi habi
  -- what is converted has data of one kind
  cases IncompleteChangeRecord.convertsTo_of_tryFrom h with
  | WriteModule _ hwritten hrecord =>
    obtain rfl := ChangeData.WriteModule.inj (Option.some.inj (hwritten.symm.trans hdata))
    rw [IncompleteModuleRecord.ofWrite, hbytecode] at hrecord
    obtain rfl := Outcome.ok.inj hrecord
    exact ⟨_, bytecode, rfl, rfl⟩
  | DeleteModule _ hother => exact nomatch hother.symm.trans hdata
  | DeleteResource _ hother => exact nomatch hother.symm.trans hdata
  | WriteResource _ hother => exact nomatch hother.symm.trans hdata
  | WriteTableItem _ hother => exact nomatch hother.symm.trans hdata
  | DeleteTableItem _ hother => exact nomatch hother.symm.trans hdata

variable {value : Input.Transaction} {tx : TransactionExtraction}
  {records : ChangeRecords} {info : Input.TransactionInfo} {change : WriteSetChange}
  {abi : MoveModule} {i : ℕ}

/-- The one module row of a written module with an ABI reproduces the ABI exactly when all numbers
of abilities in it are known. -/
theorem moduleRow_reproduces_iff (htx : TransactionExtraction.tryFrom value = .ok tx)
    (h : getChanges crates tx = .ok records) (hinfo : value.info = some info)
    (hchange : info.changes[i]? = some change) (habi : writtenAbi change = some abi) :
    ∃ row, records.modules.filter (·.change_index = i) = [row] ∧
      (Reproduces crates abi row ↔ KnownAbilities abi) := by
  obtain ⟨record, columns, shared, family, hrecord, hfamily, hrows, -, -⟩ :=
    exists_familyOf_at htx h hinfo hchange
  obtain ⟨module, bytecode, rfl, hdata⟩ := exists_module_of_tryFrom habi hrecord
  cases hfamily with
  | @Module _ row hrow =>
    refine ⟨row, hrows, ?_⟩
    obtain ⟨data, address, hcolumns, -, rfl⟩ := moduleRow_eq_ok hrow
    rw [hdata] at hcolumns
    obtain ⟨hfriends, hiff⟩ := abiColumns_reproduces_iff hcolumns
    rw [← hiff]
    exact ⟨fun h => ⟨h.exposed_functions, h.structs⟩, fun h => ⟨hfriends, h.1, h.2⟩⟩

/-- A user transaction that writes a module whose ABI has one struct, with these abilities. -/
def sampleModule (abilities : List (EnumField MoveAbility)) : Input.Transaction :=
  { sampleUser with
    info := some {
      hash := [1]
      state_change_hash := []
      event_root_hash := []
      state_checkpoint_hash := none
      gas_used := 1
      success := true
      vm_status := "Executed successfully"
      accumulator_root_hash := []
      changes := [⟨.known .WriteModule, some (.WriteModule ⟨"0x1", [], some ⟨[], some {
        address := "0x1"
        name := "coin"
        friends := []
        exposed_functions := []
        structs := [⟨"Coin", false, abilities, [], []⟩] }⟩⟩)⟩] } }

/-- The module with the ability to store is reproduced. -/
theorem moduleRow_reproduces_iff_store :
    ∃ tx records abi row,
      TransactionExtraction.tryFrom (sampleModule [.known .Store]) = .ok tx ∧
        getChanges sampleCrates tx = .ok records ∧
          records.modules.filter (·.change_index = 0) = [row] ∧
            (Reproduces sampleCrates abi row ↔ KnownAbilities abi) := by
  obtain ⟨tx, records, htx, hrecords⟩ := @exists_changes_of_isSome sampleCrates
    (sampleModule [.known .Store]) (by decide +kernel)
  obtain ⟨row, hrow, hiff⟩ := moduleRow_reproduces_iff (i := 0) htx hrecords rfl rfl rfl
  exact ⟨tx, records, _, row, htx, hrecords, hrow, hiff⟩

/-- An ability with an unknown number is left out of the row. -/
theorem not_reproduces_of_unknown_ability :
    ¬ ∀ (crates : Crates) (value : Input.Transaction) (tx : TransactionExtraction)
      (records : ChangeRecords), TransactionExtraction.tryFrom value = .ok tx →
        getChanges crates tx = .ok records → ∀ info, value.info = some info →
          ∀ (i : ℕ) (change : WriteSetChange), info.changes[i]? = some change →
            ∀ abi, writtenAbi change = some abi →
              ∃ row ∈ records.modules, row.change_index = i ∧ Reproduces crates abi row := by
  intro h
  obtain ⟨tx, records, htx, hrecords⟩ := @exists_changes_of_isSome sampleCrates
    (sampleModule [.known .Store, .unknown 7]) (by decide +kernel)
  obtain ⟨row, -, -, hrow⟩ := h _ _ _ _ htx hrecords _ rfl 0 _ rfl _ rfl
  obtain ⟨struct, _, hstruct, -, -⟩ := List.forall₂_cons_left_iff.1 hrow.structs
  obtain ⟨_, _, -, habilities, -⟩ := List.forall₂_cons_left_iff.1 hstruct.abilities
  obtain ⟨_, _, ⟨ability, hability, -⟩, -⟩ := List.forall₂_cons_left_iff.1 habilities
  cases hability

end AptosEtl.Tables
