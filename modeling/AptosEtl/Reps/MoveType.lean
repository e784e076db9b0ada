import AptosEtl.Reps.Address
import AptosEtl.Proto.Rows

/-!
# Move types and struct tags

`reps/movetype.rs`, `reps/structtag.rs` and `reps/moduleid.rs`. A Move type is a kind with
optional content, and content holds further types and struct tags, so that encoding a type and
encoding a tag call each other. The code converts a message to its own representation one level
at a time: the number of the kind is checked by `try_from`, just before the level is encoded, or,
for the type arguments of a tag, for all of them before the first is encoded.
-/

namespace AptosEtl.Reps

open Rust Input

mutual

/-- The errors of `MoveType`. -/
inductive MoveTypeError where
  | MoveTypeDecodeError (number : ℤ)
  | LackedPrefix (name : String)
  | MissingContent (movetype : MoveTypes)
  | Unparsable (text : String)
  | UnsupportedAdvMoveType (movetype : MoveTypes)
  | EmptyReference
  | ReferenceTypeError (error : MoveTypeError)
  | StructTag (error : StructTagError)

/-- The errors of `StructTag`. -/
inductive StructTagError where
  | Address (error : AddressError)
  | MoveType (error : MoveTypeError)

end

/-- `MoveTypes::as_str_name`. -/
def moveTypeName : MoveTypes → String
  | .Unspecified => "MOVE_TYPES_UNSPECIFIED"
  | .Vector => "MOVE_TYPES_VECTOR"
  | .Struct => "MOVE_TYPES_STRUCT"
  | .GenericTypeParam => "MOVE_TYPES_GENERIC_TYPE_PARAM"
  | .Reference => "MOVE_TYPES_REFERENCE"
  | .Unparsable => "MOVE_TYPES_UNPARSABLE"
  | .Plain name => "MOVE_TYPES_" ++ name

/-- `MOVETYPE_PREFIX`. -/
def movetypePrefix : List Char := "MOVE_TYPES_".toList

/-- `str::strip_prefix`. -/
def stripPrefix? (start : List Char) (string : String) : Option String :=
  if start.isPrefixOf string.toList then
    some (String.ofList (string.toList.drop start.length))
  else
    none

/-- `MoveTypes::try_from` on the number of the field. -/
def decodeMoveTypes : EnumField MoveTypes → Outcome MoveTypeError MoveTypes
  | .known movetype => .ok movetype
  | .unknown number => .err (.MoveTypeDecodeError number)

/-- The arm of `MoveType::try_encode` for a type without content. -/
def encodePlain (movetype : MoveTypes) : Outcome MoveTypeError String :=
  match movetype with
  | .Reference | .GenericTypeParam | .Struct | .Vector => .err (.MissingContent movetype)
  | other =>
    -- every name carries the prefix, so the second arm is dead
    match stripPrefix? movetypePrefix (moveTypeName other) with
    | some newstring => .ok newstring
    | none => .err (.LackedPrefix (moveTypeName other))

/-- The text of the type arguments of a tag: nothing for none of them. -/
def encodeTypeArguments (strings : List String) : String :=
  if strings.isEmpty then "" else "<" ++ ",".intercalate strings ++ ">"

section Encode

variable (crates : Crates)

mutual

/-- `MoveType::try_from` on a message, then `MoveType::try_encode`. -/
def encodeMoveType : Input.MoveType → Outcome MoveTypeError String
  | .mk type none => (decodeMoveTypes type).bind encodePlain
  | .mk type (some content) =>
    (decodeMoveTypes type).bind fun movetype => encodeContent movetype content

/-- The arm of `MoveType::try_encode` for a type with content. -/
def encodeContent (movetype : MoveTypes) : Content → Outcome MoveTypeError String
  -- the kind decides before the content is looked into: content of another kind is refused whole
  | .Reference mutable target =>
    match movetype, target with
    | .Reference, some inner =>
      (encodeMoveType inner).mapErr .ReferenceTypeError |>.bind fun typeStr =>
        .ok ((if mutable then "&mut " else "&") ++ typeStr)
    | .Reference, none => .err .EmptyReference
    | other, _ => .err (.UnsupportedAdvMoveType other)
  | .Vector inner =>
    match movetype with
    | .Vector => (encodeMoveType inner).bind fun typeStr => .ok ("Vector<" ++ typeStr ++ ">")
    | other => .err (.UnsupportedAdvMoveType other)
  | .Struct tag =>
    match movetype with
    | .Struct => (encodeStructTag tag).mapErr .StructTag
    | other => .err (.UnsupportedAdvMoveType other)
  | .GenericTypeParamIndex index =>
    match movetype with
    | .GenericTypeParam => .ok ("T" ++ toString index)
    | other => .err (.UnsupportedAdvMoveType other)
  | .Unparsable text =>
    match movetype with
    -- the one unparsable text that is let through
    | .Unparsable => if text = "function" then .ok "function" else .err (.Unparsable text)
    | other => .err (.UnsupportedAdvMoveType other)

/-- `StructTag::try_from` on a message, then `StructTag::try_encode` to a string: the kinds of all
type arguments are decoded before the address is encoded. -/
def encodeStructTag : MoveStructTag → Outcome StructTagError String
  | .mk address module name params =>
    (Outcome.tryMap (fun param => decodeMoveTypes param.type) params).mapErr .MoveType |>.bind
      fun _ =>
        ((Address.string address).tryEncode crates).mapErr .Address |>.bind fun encoded =>
          (encodeMoveTypes params).mapErr .MoveType |>.bind fun strings =>
            .ok (encoded ++ "::" ++ module ++ "::" ++ name ++ encodeTypeArguments strings)

/-- The loop that encodes a list of types. -/
def encodeMoveTypes : List Input.MoveType → Outcome MoveTypeError (List String)
  | [] => .ok []
  | param :: params =>
    (encodeMoveType param).bind fun string =>
      (encodeMoveTypes params).bind fun strings => .ok (string :: strings)

end

end Encode

/-! ## The representations -/

/-- `MoveType`: a known kind, and the content as it was received. -/
structure MoveType where
  movetype : MoveTypes
  content : Option Content

namespace MoveType

/-- `MoveType::try_from`. -/
def tryFrom (value : Input.MoveType) : Outcome MoveTypeError MoveType :=
  (decodeMoveTypes value.type).bind fun movetype => .ok ⟨movetype, value.content⟩

/-- `MoveType::try_encode`. -/
def tryEncode (crates : Crates) (self : MoveType) : Outcome MoveTypeError String :=
  match self.content with
  | none => encodePlain self.movetype
  | some content => encodeContent crates self.movetype content

/-- Converting and encoding a message is `encodeMoveType`. -/
theorem tryFrom_bind_tryEncode (crates : Crates) (value : Input.MoveType) :
    (tryFrom value).bind (tryEncode crates) = encodeMoveType crates value := by
  obtain ⟨type, content⟩ := value
  cases type <;> cases content <;> simp [tryFrom, tryEncode, encodeMoveType, Input.MoveType.type,
    Input.MoveType.content, decodeMoveTypes]

end MoveType

/-- `StructTag`. -/
structure StructTag where
  address : Address
  module : String
  name : String
  generic_type_params : List MoveType

namespace StructTag

/-- `StructTag::try_from`. -/
def tryFrom : MoveStructTag → Outcome StructTagError StructTag
  | .mk address module name params =>
    (Outcome.tryMap MoveType.tryFrom params).mapErr .MoveType |>.bind fun params =>
      .ok ⟨.string address, module, name, params⟩

/-- `StructTag::try_encode` to the published message. -/
def tryEncode (crates : Crates) (self : StructTag) : Outcome StructTagError Rows.StructTag :=
  (self.address.tryEncode crates).mapErr .Address |>.bind fun address =>
    (Outcome.tryMap (MoveType.tryEncode crates) self.generic_type_params).mapErr .MoveType |>.bind
      fun params => .ok ⟨address, self.module, self.name, params⟩

end StructTag

/-- The errors of `ModuleId`. -/
inductive MoveModuleIdError where
  | Address (error : AddressError)

/-- `ModuleId`. -/
structure ModuleId where
  address : Address
  name : String

namespace ModuleId

/-- `ModuleId::from`. -/
def ofMessage (value : MoveModuleId) : ModuleId := ⟨.string value.address, value.name⟩

/-- `ModuleId::try_encode` to a string. -/
def tryEncode (crates : Crates) (self : ModuleId) : Outcome MoveModuleIdError String :=
  (self.address.tryEncode crates).mapErr .Address |>.bind fun address =>
    .ok (address ++ "::" ++ self.name)

/-- `ModuleId::try_encode` to a friend. -/
def tryEncodeFriend (crates : Crates) (self : ModuleId) : Outcome MoveModuleIdError Rows.Friend :=
  (self.address.tryEncode crates).mapErr .Address |>.bind fun address => .ok ⟨address, self.name⟩

end ModuleId

/-! ## Encoding settles -/

variable {crates : Crates}

/-- Decoding the number of a kind returns. -/
theorem decodeMoveTypes_settles (type : EnumField MoveTypes) : (decodeMoveTypes type).Settles := by
  cases type <;> simp [decodeMoveTypes]

/-- Encoding a type without content returns. -/
theorem encodePlain_settles (movetype : MoveTypes) : (encodePlain movetype).Settles := by
  unfold encodePlain
  split
  · exact Outcome.settles_err _
  · exact Outcome.settles_err _
  · exact Outcome.settles_err _
  · exact Outcome.settles_err _
  · split <;> simp

mutual

/-- Encoding a type returns. -/
theorem encodeMoveType_settles : ∀ value : Input.MoveType, (encodeMoveType crates value).Settles
  | .mk type none => (decodeMoveTypes_settles type).bind fun movetype _ =>
      encodePlain_settles movetype
  | .mk type (some content) => (decodeMoveTypes_settles type).bind fun movetype _ =>
      encodeContent_settles movetype content

/-- Encoding a type with content returns. -/
theorem encodeContent_settles (movetype : MoveTypes) :
    ∀ content : Content, (encodeContent crates movetype content).Settles
  | .Reference mutable (some inner) => by
    have ih := encodeMoveType_settles inner
    unfold encodeContent
    cases movetype
    case Reference => exact ih.mapErr.bind fun _ _ => Outcome.settles_ok _
    -- every other kind refuses the content, here and in the cases below
    all_goals exact Outcome.settles_err _
  | .Reference mutable none => by
    unfold encodeContent
    cases movetype <;> exact Outcome.settles_err _
  | .Vector inner => by
    have ih := encodeMoveType_settles inner
    unfold encodeContent
    cases movetype
    case Vector => exact ih.bind fun _ _ => Outcome.settles_ok _
    all_goals exact Outcome.settles_err _
  | .Struct tag => by
    have ih := encodeStructTag_settles tag
    unfold encodeContent
    cases movetype
    case Struct => exact Outcome.settles_mapErr.2 ih
    all_goals exact Outcome.settles_err _
  | .GenericTypeParamIndex index => by
    unfold encodeContent
    cases movetype
    case GenericTypeParam => exact Outcome.settles_ok _
    all_goals exact Outcome.settles_err _
  | .Unparsable text => by
    unfold encodeContent
    cases movetype
    case Unparsable => dsimp only; split_ifs <;> simp
    all_goals exact Outcome.settles_err _

/-- Encoding a struct tag returns. -/
theorem encodeStructTag_settles : ∀ tag : MoveStructTag, (encodeStructTag crates tag).Settles
  | .mk address module name params => by
    have ih := encodeMoveTypes_settles params
    unfold encodeStructTag
    refine (Outcome.settles_tryMap fun param _ =>
      decodeMoveTypes_settles _).mapErr.bind fun _ _ => ?_
    refine (Address.tryEncode_settles _).mapErr.bind fun _ _ => ?_
    exact ih.mapErr.bind fun _ _ => Outcome.settles_ok _

/-- Encoding a list of types returns. -/
theorem encodeMoveTypes_settles :
    ∀ params : List Input.MoveType, (encodeMoveTypes crates params).Settles
  | [] => Outcome.settles_ok _
  | param :: params => by
    have ih := encodeMoveType_settles param
    have ihs := encodeMoveTypes_settles params
    unfold encodeMoveTypes
    exact ih.bind fun _ _ => ihs.bind fun _ _ => Outcome.settles_ok _

end

/-- Converting a type returns. -/
theorem MoveType.tryFrom_settles (value : Input.MoveType) : (MoveType.tryFrom value).Settles :=
  (decodeMoveTypes_settles _).bind fun _ _ => Outcome.settles_ok _

/-- Encoding a converted type returns. -/
theorem MoveType.tryEncode_settles (self : MoveType) : (self.tryEncode crates).Settles := by
  unfold MoveType.tryEncode
  split
  · exact encodePlain_settles _
  · exact encodeContent_settles _ _

/-- Converting a struct tag returns. -/
theorem StructTag.tryFrom_settles : ∀ value : MoveStructTag, (StructTag.tryFrom value).Settles
  | .mk _ _ _ _ => (Outcome.settles_tryMap fun param _ =>
      MoveType.tryFrom_settles param).mapErr.bind fun _ _ => Outcome.settles_ok _

/-- Encoding a converted struct tag returns. -/
theorem StructTag.tryEncode_settles (self : StructTag) : (self.tryEncode crates).Settles :=
  (Address.tryEncode_settles _).mapErr.bind fun _ _ =>
    (Outcome.settles_tryMap fun param _ =>
      MoveType.tryEncode_settles param).mapErr.bind fun _ _ => Outcome.settles_ok _

/-- Encoding a module id returns. -/
theorem ModuleId.tryEncode_settles (self : ModuleId) : (self.tryEncode crates).Settles :=
  (Address.tryEncode_settles _).mapErr.bind fun _ _ => Outcome.settles_ok _

/-- Encoding a friend returns. -/
theorem ModuleId.tryEncodeFriend_settles (self : ModuleId) :
    (self.tryEncodeFriend crates).Settles :=
  (Address.tryEncode_settles _).mapErr.bind fun _ _ => Outcome.settles_ok _

end AptosEtl.Reps
