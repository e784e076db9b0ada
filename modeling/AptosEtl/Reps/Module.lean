import AptosEtl.Reps.MoveType

/-!
# Module ABIs

`reps/abilties.rs`, `reps/generictypeparam.rs`, `reps/visibility.rs`, `reps/function.rs`,
`reps/mvstruct.rs` and `reps/module.rs`. An ABI passes through two layers: `tryFrom` turns a
message into the code's representation, and `tryEncode` turns that into the published columns.
-/

namespace AptosEtl.Reps

open Rust Input

/-! ## Abilities -/

/-- The errors of `Ability`. -/
inductive AbilityError where
  | Unspecified
  | MissingPrefix (name : String)

/-- `Ability`. -/
structure Ability where
  inner : MoveAbility

namespace Ability

/-- `ABILITY_PREFIX`. -/
def abilityPrefix : List Char := "MOVE_ABILITY_".toList

/-- `MoveAbility::as_str_name` of the node's enum. -/
def name : MoveAbility → String
  | .Unspecified => "MOVE_ABILITY_UNSPECIFIED"
  | .Copy => "MOVE_ABILITY_COPY"
  | .Drop => "MOVE_ABILITY_DROP"
  | .Store => "MOVE_ABILITY_STORE"
  | .Key => "MOVE_ABILITY_KEY"

/-- `Ability::try_encode` to a string, which keeps the node's upper-case name. -/
def tryEncodeString (self : Ability) : Outcome AbilityError String :=
  match self.inner with
  | .Unspecified => .err .Unspecified
  | other =>
    -- every name carries the prefix, so the second arm is dead
    match stripPrefix? abilityPrefix (name other) with
    | some abilityStr => .ok abilityStr
    | none => .err (.MissingPrefix (name other))

/-- `Ability::try_encode` to the published enum, as its text. -/
def tryEncode (self : Ability) : Outcome AbilityError String :=
  match self.inner with
  | .Copy => .ok "Copy"
  | .Drop => .ok "Drop"
  | .Key => .ok "Key"
  | .Store => .ok "Store"
  | .Unspecified => .err .Unspecified

end Ability

/-! ## Generic type parameters -/

/-- The errors of `GenericTypeParam`. -/
inductive GenericTypeParamError where
  | Ability (error : AbilityError)
  | IncorrectGenericType

/-- `GenericTypeParam`: of a struct, with its phantom flag, or of a function. -/
inductive GenericTypeParam where
  | Struct (constraints : List Ability) (is_phantom : Bool)
  | Function (constraints : List Ability)

namespace GenericTypeParam

/-- `GenericTypeParam::from` on the parameter of a function. -/
def ofFunction (value : MoveFunctionGenericTypeParam) : GenericTypeParam :=
  .Function ((members value.constraints).map Ability.mk)

/-- `GenericTypeParam::from` on the parameter of a struct. -/
def ofStruct (value : MoveStructGenericTypeParam) : GenericTypeParam :=
  .Struct ((members value.constraints).map Ability.mk) value.is_phantom

/-- `GenericTypeParam::try_encode` to the parameter of a function. -/
def tryEncodeFunction :
    GenericTypeParam → Outcome GenericTypeParamError Rows.GenericFunctionTypeParams
  | Function abilities =>
    (Outcome.tryMap Ability.tryEncode abilities).mapErr .Ability |>.bind fun constraints =>
      .ok ⟨constraints⟩
  | Struct _ _ => .err .IncorrectGenericType

/-- `GenericTypeParam::try_encode` to the parameter of a struct. -/
def tryEncodeStruct : GenericTypeParam → Outcome GenericTypeParamError Rows.GenericStructTypeParams
  | Struct abilities isPhantom =>
    (Outcome.tryMap Ability.tryEncode abilities).mapErr .Ability |>.bind fun constraints =>
      .ok ⟨constraints, isPhantom⟩
  | Function _ => .err .IncorrectGenericType

end GenericTypeParam

/-! ## Functions -/

/-- The errors of `IntermediateVisibility`. -/
inductive VisibilityError where
  | Unspecified

/-- `IntermediateVisibility::try_encode`, as text. -/
def tryEncodeVisibility : Visibility → Outcome VisibilityError String
  | .Friend => .ok "friend"
  | .Private => .ok "private"
  | .Public => .ok "public"
  | .Unspecified => .err .Unspecified

/-- The errors of `Function`. -/
inductive FunctionError where
  | MoveType (error : MoveTypeError)
  | GenericTypeParam (error : GenericTypeParamError)
  | Visibility (error : VisibilityError)

/-- `Function`. -/
structure Function where
  name : String
  visibility : Visibility
  is_entry : Bool
  generic_type_params : List GenericTypeParam
  params : List MoveType
  «return» : List MoveType

namespace Function

/-- `Function::try_from`. -/
def tryFrom (value : MoveFunction) : Outcome FunctionError Function :=
  (Outcome.tryMap MoveType.tryFrom value.params).mapErr .MoveType |>.bind fun params =>
    (Outcome.tryMap MoveType.tryFrom value.return).mapErr .MoveType |>.bind fun returns =>
      .ok {
        name := value.name
        visibility := value.visibility.getD .Unspecified
        is_entry := value.is_entry
        generic_type_params := value.generic_type_params.map GenericTypeParam.ofFunction
        params := params
        «return» := returns }

/-- `Function::try_into`, which is also `Function::try_encode`. -/
def tryEncode (crates : Crates) (self : Function) : Outcome FunctionError Rows.ExposedFunction :=
  (Outcome.tryMap GenericTypeParam.tryEncodeFunction self.generic_type_params).mapErr
      .GenericTypeParam |>.bind fun gentypeparams =>
    (Outcome.tryMap (MoveType.tryEncode crates) self.params).mapErr .MoveType |>.bind fun params =>
      (Outcome.tryMap (MoveType.tryEncode crates) self.return).mapErr .MoveType |>.bind
        fun returns =>
        (tryEncodeVisibility self.visibility).mapErr .Visibility |>.bind fun visibility =>
          .ok {
            name := self.name
            visibility := visibility
            is_entry := self.is_entry
            generic_type_params := gentypeparams
            params := params
            «return» := returns }

end Function

/-! ## Structs -/

/-- The errors of `MvStruct`. -/
inductive MvStructError where
  | MoveType (error : MoveTypeError)
  | StructFieldMissingMoveType
  | Ability (error : AbilityError)
  | GenericTypeParam (error : GenericTypeParamError)

/-- `StructField`. -/
structure StructField where
  name : String
  mvtype : MoveType

namespace StructField

/-- `StructField::try_from`. -/
def tryFrom (value : MoveStructField) : Outcome MvStructError StructField :=
  match value.type with
  | some mvtype => (MoveType.tryFrom mvtype).mapErr .MoveType |>.bind fun mvtype =>
      .ok ⟨value.name, mvtype⟩
  | none => .err .StructFieldMissingMoveType

/-- `StructField::try_encode`. -/
def tryEncode (crates : Crates) (self : StructField) : Outcome MvStructError Rows.Fields :=
  (self.mvtype.tryEncode crates).mapErr .MoveType |>.bind fun type => .ok ⟨self.name, type⟩

end StructField

/-- `MvStruct`. -/
structure MvStruct where
  name : String
  is_native : Bool
  abilities : List Ability
  generic_type_params : List GenericTypeParam
  fields : List StructField

namespace MvStruct

/-- `MvStruct::try_from`. -/
def tryFrom (value : MoveStruct) : Outcome MvStructError MvStruct :=
  (Outcome.tryMap StructField.tryFrom value.fields).bind fun fields =>
    .ok {
      name := value.name
      is_native := value.is_native
      abilities := (members value.abilities).map Ability.mk
      generic_type_params := value.generic_type_params.map GenericTypeParam.ofStruct
      fields := fields }

/-- `MvStruct::try_encode`. -/
def tryEncode (crates : Crates) (self : MvStruct) : Outcome MvStructError Rows.Struct :=
  (Outcome.tryMap Ability.tryEncodeString self.abilities).mapErr .Ability |>.bind fun abilities =>
    (Outcome.tryMap GenericTypeParam.tryEncodeStruct self.generic_type_params).mapErr
        .GenericTypeParam |>.bind fun gtps =>
      (Outcome.tryMap (StructField.tryEncode crates) self.fields).bind fun fields =>
        .ok {
          name := self.name
          is_native := self.is_native
          abilities := abilities
          generic_type_params := gtps
          fields := fields }

end MvStruct

/-! ## Modules -/

/-- The errors of `ModuleExtraction`. -/
inductive ModuleError where
  | Function (error : FunctionError)
  | Struct (error : MvStructError)

/-- `ModuleExtraction`. -/
structure ModuleExtraction where
  address : Address
  name : String
  friends : List ModuleId
  exposed_functions : List Function
  structs : List MvStruct

/-- `ModuleExtraction::try_from`. The conversion of the friends cannot fail. -/
def ModuleExtraction.tryFrom (value : MoveModule) : Outcome ModuleError ModuleExtraction :=
  (Outcome.tryMap Function.tryFrom value.exposed_functions).mapErr .Function |>.bind
    fun functions =>
    (Outcome.tryMap MvStruct.tryFrom value.structs).mapErr .Struct |>.bind fun structs =>
      .ok {
        address := .string value.address
        name := value.name
        friends := value.friends.map ModuleId.ofMessage
        exposed_functions := functions
        structs := structs }

/-! ## Conversions settle -/

/-- Encoding an ability to the published enum returns. -/
theorem Ability.tryEncode_settles (self : Ability) : self.tryEncode.Settles := by
  unfold Ability.tryEncode
  split <;> simp

/-- Encoding an ability to a string returns. -/
theorem Ability.tryEncodeString_settles (self : Ability) : self.tryEncodeString.Settles := by
  unfold Ability.tryEncodeString
  split
  · exact Outcome.settles_err _
  · split <;> simp

/-- Encoding the parameter of a function returns. -/
theorem GenericTypeParam.tryEncodeFunction_settles (self : GenericTypeParam) :
    self.tryEncodeFunction.Settles := by
  cases self with
  | Struct abilities isPhantom => exact Outcome.settles_err _
  | Function abilities =>
    exact (Outcome.settles_tryMap fun ability _ =>
      ability.tryEncode_settles).mapErr.bind fun _ _ => Outcome.settles_ok _

/-- Encoding the parameter of a struct returns. -/
theorem GenericTypeParam.tryEncodeStruct_settles (self : GenericTypeParam) :
    self.tryEncodeStruct.Settles := by
  cases self with
  | Struct abilities isPhantom =>
    exact (Outcome.settles_tryMap fun ability _ =>
      ability.tryEncode_settles).mapErr.bind fun _ _ => Outcome.settles_ok _
  | Function abilities => exact Outcome.settles_err _

/-- Encoding a visibility returns. -/
theorem tryEncodeVisibility_settles (visibility : Visibility) :
    (tryEncodeVisibility visibility).Settles := by
  cases visibility <;> simp [tryEncodeVisibility]

/-- Converting a list of types returns. -/
theorem tryMap_tryFrom_settles (types : List Input.MoveType) :
    (Outcome.tryMap MoveType.tryFrom types).Settles :=
  Outcome.settles_tryMap fun value _ => MoveType.tryFrom_settles value

/-- Encoding a list of types returns. -/
theorem tryMap_tryEncode_settles {crates : Crates} (types : List MoveType) :
    (Outcome.tryMap (MoveType.tryEncode crates) types).Settles :=
  Outcome.settles_tryMap fun value _ => MoveType.tryEncode_settles value

/-- Converting a function returns. -/
theorem Function.tryFrom_settles (value : MoveFunction) : (Function.tryFrom value).Settles :=
  (tryMap_tryFrom_settles _).mapErr.bind fun _ _ =>
    (tryMap_tryFrom_settles _).mapErr.bind fun _ _ => Outcome.settles_ok _

/-- Encoding a function returns. -/
theorem Function.tryEncode_settles {crates : Crates} (self : Function) :
    (self.tryEncode crates).Settles := by
  unfold Function.tryEncode
  refine (Outcome.settles_tryMap fun param _ =>
    param.tryEncodeFunction_settles).mapErr.bind fun _ _ => ?_
  refine (tryMap_tryEncode_settles _).mapErr.bind fun _ _ => ?_
  refine (tryMap_tryEncode_settles _).mapErr.bind fun _ _ => ?_
  exact (tryEncodeVisibility_settles _).mapErr.bind fun _ _ =>
    Outcome.settles_ok _

/-- Converting a field returns. -/
theorem StructField.tryFrom_settles (value : MoveStructField) :
    (StructField.tryFrom value).Settles := by
  unfold StructField.tryFrom
  split
  · exact (MoveType.tryFrom_settles _).mapErr.bind fun _ _ =>
      Outcome.settles_ok _
  · exact Outcome.settles_err _

/-- Converting a struct returns. -/
theorem MvStruct.tryFrom_settles (value : MoveStruct) : (MvStruct.tryFrom value).Settles :=
  (Outcome.settles_tryMap fun field _ => StructField.tryFrom_settles field).bind fun _ _ =>
    Outcome.settles_ok _

/-- Encoding a struct returns. -/
theorem MvStruct.tryEncode_settles {crates : Crates} (self : MvStruct) :
    (self.tryEncode crates).Settles := by
  unfold MvStruct.tryEncode
  refine (Outcome.settles_tryMap fun ability _ =>
    ability.tryEncodeString_settles).mapErr.bind fun _ _ => ?_
  refine (Outcome.settles_tryMap fun param _ =>
    param.tryEncodeStruct_settles).mapErr.bind fun _ _ => ?_
  refine (Outcome.settles_tryMap fun field _ => ?_).bind fun _ _ => Outcome.settles_ok _
  exact (MoveType.tryEncode_settles _).mapErr.bind fun _ _ =>
    Outcome.settles_ok _

/-- Converting a module returns. -/
theorem ModuleExtraction.tryFrom_settles (value : MoveModule) :
    (ModuleExtraction.tryFrom value).Settles :=
  (Outcome.settles_tryMap fun function _ =>
    Function.tryFrom_settles function).mapErr.bind fun _ _ =>
    (Outcome.settles_tryMap fun mvstruct _ =>
      MvStruct.tryFrom_settles mvstruct).mapErr.bind fun _ _ => Outcome.settles_ok _

end AptosEtl.Reps
