import Mathlib.Data.Int.Notation
import Mathlib.Data.Nat.Notation

/-!
# The messages of the node

The transaction messages that the worker receives, with the fields that the transformation reads
and the presence that `prost` gives them: a message field is an `Option`, a `oneof` is an `Option`
of an inductive, a repeated field is a list. An enum field is a number on the wire. It is kept as
`EnumField`, a known variant or an unknown number, because the code reads such fields in three
ways: the accessor of a single field replaces an unknown number by the default variant, the
accessor of a repeated field skips it, and `try_from` makes it an error.

A `u64` field is a `UInt64`. The timestamp fields are integers, since the code only compares them.
-/

namespace AptosEtl.Input

/-- A byte string. -/
abbrev Bytes := List UInt8

/-- An enum field: a member of the enum, or a number that no member has. -/
inductive EnumField (α : Type) where
  | known (value : α)
  | unknown (number : ℤ)
  deriving DecidableEq, Repr

namespace EnumField

variable {α : Type}

/-- The accessor of a single enum field, whose default is the variant of number zero. -/
def getD (default : α) : EnumField α → α
  | known a => a
  | unknown _ => default

/-- The member that the field holds, if its number has one. -/
def member? : EnumField α → Option α
  | known a => some a
  | unknown _ => none

end EnumField

/-- The accessor of a repeated enum field: the members, without the unknown numbers. -/
def members {α : Type} (fields : List (EnumField α)) : List α := fields.filterMap EnumField.member?

/-- `aptos.util.timestamp.Timestamp`: signed seconds and signed nanoseconds. -/
structure Timestamp where
  seconds : ℤ
  nanos : ℤ
  deriving DecidableEq, Repr

/-! ## Move types -/

/-- The `MoveTypes` enum. `Plain` is a type without content, such as `BOOL` or `U64`, given by what
its name has after `MOVE_TYPES_`. -/
inductive MoveTypes where
  | Unspecified
  | Vector
  | Struct
  | GenericTypeParam
  | Reference
  | Unparsable
  | Plain (name : String)
  deriving DecidableEq, Repr

mutual

/-- `MoveType`: its kind and the content that some kinds carry. -/
inductive MoveType where
  | mk (type : EnumField MoveTypes) (content : Option Content)

/-- The `content` of a `MoveType`. -/
inductive Content where
  | Vector (inner : MoveType)
  | Struct (tag : MoveStructTag)
  | GenericTypeParamIndex (index : UInt32)
  | Reference (mutable : Bool) (target : Option MoveType)
  | Unparsable (text : String)

/-- `MoveStructTag`. -/
inductive MoveStructTag where
  | mk (address module name : String) (generic_type_params : List MoveType)

end

/-- The kind of a `MoveType`. -/
def MoveType.type : MoveType → EnumField MoveTypes
  | .mk type _ => type

/-- The content of a `MoveType`. -/
def MoveType.content : MoveType → Option Content
  | .mk _ content => content

/-! ## Modules -/

/-- The `MoveAbility` enum. -/
inductive MoveAbility where
  | Unspecified
  | Copy
  | Drop
  | Store
  | Key
  deriving DecidableEq, Repr

/-- The `MoveFunction.Visibility` enum. -/
inductive Visibility where
  | Unspecified
  | Private
  | Public
  | Friend
  deriving DecidableEq, Repr

/-- `MoveModuleId`. -/
structure MoveModuleId where
  address : String
  name : String
  deriving DecidableEq, Repr

/-- `MoveFunctionGenericTypeParam`. -/
structure MoveFunctionGenericTypeParam where
  constraints : List (EnumField MoveAbility)
  deriving DecidableEq, Repr

/-- `MoveStructGenericTypeParam`. -/
structure MoveStructGenericTypeParam where
  constraints : List (EnumField MoveAbility)
  is_phantom : Bool
  deriving DecidableEq, Repr

/-- `MoveFunction`. -/
structure MoveFunction where
  name : String
  visibility : EnumField Visibility
  is_entry : Bool
  generic_type_params : List MoveFunctionGenericTypeParam
  params : List MoveType
  «return» : List MoveType

/-- `MoveStructField`. -/
structure MoveStructField where
  name : String
  type : Option MoveType

/-- `MoveStruct`. -/
structure MoveStruct where
  name : String
  is_native : Bool
  abilities : List (EnumField MoveAbility)
  generic_type_params : List MoveStructGenericTypeParam
  fields : List MoveStructField

/-- `MoveModule`, the ABI of a module. -/
structure MoveModule where
  address : String
  name : String
  friends : List MoveModuleId
  exposed_functions : List MoveFunction
  structs : List MoveStruct

/-- `MoveModuleBytecode`. -/
structure MoveModuleBytecode where
  bytecode : Bytes
  abi : Option MoveModule

/-- `MoveScriptBytecode`. -/
structure MoveScriptBytecode where
  bytecode : Bytes
  abi : Option MoveFunction

/-! ## Write-set changes -/

/-- The `WriteSetChange.Type` enum. -/
inductive ChangeType where
  | Unspecified
  | DeleteModule
  | DeleteResource
  | DeleteTableItem
  | WriteModule
  | WriteResource
  | WriteTableItem
  deriving DecidableEq, Repr

/-- `DeleteModule`. -/
structure DeleteModule where
  address : String
  state_key_hash : Bytes
  module : Option MoveModuleId

/-- `DeleteResource`. -/
structure DeleteResource where
  address : String
  state_key_hash : Bytes
  type : Option MoveStructTag
  type_str : String

/-- `DeleteTableData`. -/
structure DeleteTableData where
  key : String
  key_type : String

/-- `DeleteTableItem`. -/
structure DeleteTableItem where
  state_key_hash : Bytes
  handle : String
  data : Option DeleteTableData

/-- `WriteModule`. -/
structure WriteModule where
  address : String
  state_key_hash : Bytes
  data : Option MoveModuleBytecode

/-- `WriteResource`. -/
structure WriteResource where
  address : String
  state_key_hash : Bytes
  type : Option MoveStructTag
  type_str : String
  data : String

/-- `WriteTableData`. -/
structure WriteTableData where
  key : String
  key_type : String
  value : String
  value_type : String

/-- `WriteTableItem`. -/
structure WriteTableItem where
  state_key_hash : Bytes
  handle : String
  data : Option WriteTableData

/-- The `change` of a `WriteSetChange`. -/
inductive ChangeData where
  | DeleteModule (data : DeleteModule)
  | DeleteResource (data : DeleteResource)
  | DeleteTableItem (data : DeleteTableItem)
  | WriteModule (data : WriteModule)
  | WriteResource (data : WriteResource)
  | WriteTableItem (data : WriteTableItem)

/-- `WriteSetChange`. -/
structure WriteSetChange where
  type : EnumField ChangeType
  change : Option ChangeData

/-- `TransactionInfo`. -/
structure TransactionInfo where
  hash : Bytes
  state_change_hash : Bytes
  event_root_hash : Bytes
  state_checkpoint_hash : Option Bytes
  gas_used : UInt64
  success : Bool
  vm_status : String
  accumulator_root_hash : Bytes
  changes : List WriteSetChange

/-! ## Events -/

/-- `EventKey`. -/
structure EventKey where
  creation_number : UInt64
  account_address : String

/-- `Event`. -/
structure Event where
  key : Option EventKey
  sequence_number : UInt64
  type : Option MoveType
  type_str : String
  data : String

/-! ## Payloads -/

/-- The `TransactionPayload.Type` enum. -/
inductive PayloadType where
  | Unspecified
  | EntryFunctionPayload
  | ScriptPayload
  | WriteSetPayload
  | MultisigPayload
  | EncryptedTransactionPayload
  deriving DecidableEq, Repr

/-- `EntryFunctionId`. -/
structure EntryFunctionId where
  module : Option MoveModuleId
  name : String

/-- `EntryFunctionPayload`. -/
structure EntryFunctionPayload where
  function : Option EntryFunctionId
  type_arguments : List MoveType
  arguments : List String
  entry_function_id_str : String

/-- `ScriptPayload`. -/
structure ScriptPayload where
  code : Option MoveScriptBytecode
  type_arguments : List MoveType
  arguments : List String

/-- `ScriptWriteSet`. -/
structure ScriptWriteSet where
  execute_as : String
  script : Option ScriptPayload

/-- The `write_set` of a `WriteSet`. -/
inductive WriteSet where
  | ScriptWriteSet (data : ScriptWriteSet)
  | DirectWriteSet

/-- `WriteSet`, the message around the `oneof`. -/
structure WriteSetMessage where
  write_set : Option WriteSet

/-- `WriteSetPayload`. -/
structure WriteSetPayload where
  write_set : Option WriteSetMessage

/-- `MultisigPayload`. -/
structure MultisigPayload where
  multisig_address : String

/-- The `payload` of a `TransactionPayload`. -/
inductive PayloadData where
  | EntryFunctionPayload (data : EntryFunctionPayload)
  | ScriptPayload (data : ScriptPayload)
  | WriteSetPayload (data : WriteSetPayload)
  | MultisigPayload (data : MultisigPayload)
  | EncryptedTransactionPayload

/-- `TransactionPayload`. -/
structure TransactionPayload where
  type : EnumField PayloadType
  payload : Option PayloadData

/-! ## Signatures -/

/-- The `AnyPublicKey.Type` enum. -/
inductive AnyPublicKeyType where
  | Unspecified
  | Ed25519
  | Secp256k1Ecdsa
  | Secp256r1Ecdsa
  | Keyless
  | FederatedKeyless
  | SlhDsaSha2128s
  deriving DecidableEq, Repr

/-- `AnyPublicKey`. -/
structure AnyPublicKey where
  type : EnumField AnyPublicKeyType
  public_key : Bytes

/-- The `AnySignature.Type` enum. -/
inductive AnySignatureType where
  | Unspecified
  | Ed25519
  | Secp256k1Ecdsa
  | Webauthn
  | Keyless
  | SlhDsaSha2128s
  deriving DecidableEq, Repr

/-- The `signature_variant` of an `AnySignature`: each variant is a message with the bytes. -/
inductive SignatureVariant where
  | Ed25519 (signature : Bytes)
  | Secp256k1Ecdsa (signature : Bytes)
  | Webauthn (signature : Bytes)
  | Keyless (signature : Bytes)
  | SlhDsaSha2128s (signature : Bytes)

/-- `AnySignature`. -/
structure AnySignature where
  type : EnumField AnySignatureType
  signature_variant : Option SignatureVariant

/-- `IndexedSignature`. -/
structure IndexedSignature where
  index : UInt32
  signature : Option AnySignature

/-- `Ed25519Signature`. -/
structure Ed25519Signature where
  public_key : Bytes
  signature : Bytes

/-- `MultiEd25519Signature`. -/
structure MultiEd25519Signature where
  public_keys : List Bytes
  signatures : List Bytes
  threshold : UInt32
  public_key_indices : List UInt32

/-- `SingleKeySignature`. -/
structure SingleKeySignature where
  public_key : Option AnyPublicKey
  signature : Option AnySignature

/-- `MultiKeySignature`. -/
structure MultiKeySignature where
  public_keys : List AnyPublicKey
  signatures : List IndexedSignature
  signatures_required : UInt32

/-- `AbstractSignature`. -/
structure AbstractSignature where
  signature : Bytes

/-- The `AccountSignature.Type` enum. -/
inductive AccountSignatureType where
  | Unspecified
  | Ed25519
  | MultiEd25519
  | SingleKey
  | MultiKey
  | Abstraction
  deriving DecidableEq, Repr

/-- The `signature` of an `AccountSignature`. -/
inductive AccountSignatureData where
  | Ed25519 (data : Ed25519Signature)
  | MultiEd25519 (data : MultiEd25519Signature)
  | SingleKeySignature (data : SingleKeySignature)
  | MultiKeySignature (data : MultiKeySignature)
  | Abstraction (data : AbstractSignature)

/-- `AccountSignature`. -/
structure AccountSignature where
  type : EnumField AccountSignatureType
  signature : Option AccountSignatureData

/-- `MultiAgentSignature`. -/
structure MultiAgentSignature where
  sender : Option AccountSignature
  secondary_signer_addresses : List String
  secondary_signers : List AccountSignature

/-- `FeePayerSignature`. -/
structure FeePayerSignature where
  sender : Option AccountSignature
  secondary_signer_addresses : List String
  secondary_signers : List AccountSignature
  fee_payer_address : String
  fee_payer_signer : Option AccountSignature

/-- `SingleSender`. -/
structure SingleSender where
  sender : Option AccountSignature

/-- The `Signature.Type` enum. -/
inductive SignatureType where
  | Unspecified
  | Ed25519
  | MultiEd25519
  | MultiAgent
  | FeePayer
  | SingleSender
  deriving DecidableEq, Repr

/-- The `signature` of a `Signature`. -/
inductive SignatureData where
  | Ed25519 (data : Ed25519Signature)
  | MultiEd25519 (data : MultiEd25519Signature)
  | MultiAgent (data : MultiAgentSignature)
  | FeePayer (data : FeePayerSignature)
  | SingleSender (data : SingleSender)

/-- `Signature`. -/
structure Signature where
  type : EnumField SignatureType
  signature : Option SignatureData

/-! ## Transactions -/

/-- `UserTransactionRequest`. -/
structure UserTransactionRequest where
  sender : String
  sequence_number : UInt64
  max_gas_amount : UInt64
  gas_unit_price : UInt64
  expiration_timestamp_secs : Option Timestamp
  payload : Option TransactionPayload
  signature : Option Signature

/-- `UserTransaction`. -/
structure UserTransaction where
  request : Option UserTransactionRequest
  events : List Event

/-- `GenesisTransaction`. -/
structure GenesisTransaction where
  payload : Option WriteSetMessage
  events : List Event

/-- `BlockMetadataTransaction`. -/
structure BlockMetadataTransaction where
  id : String
  round : UInt64
  events : List Event
  previous_block_votes_bitvec : Bytes
  proposer : String

/-- `ValidatorTransaction`. -/
structure ValidatorTransaction where
  events : List Event

/-- The `Transaction.TransactionType` enum. -/
inductive TransactionType where
  | Unspecified
  | Genesis
  | BlockMetadata
  | StateCheckpoint
  | User
  | Validator
  | BlockEpilogue
  deriving DecidableEq, Repr

/-- The `txn_data` of a `Transaction`. -/
inductive TxnData where
  | BlockMetadata (data : BlockMetadataTransaction)
  | Genesis (data : GenesisTransaction)
  | StateCheckpoint
  | User (data : UserTransaction)
  | Validator (data : ValidatorTransaction)
  | BlockEpilogue

/-- `Transaction`. -/
structure Transaction where
  timestamp : Option Timestamp
  version : UInt64
  info : Option TransactionInfo
  epoch : UInt64
  block_height : UInt64
  type : EnumField TransactionType
  txn_data : Option TxnData

end AptosEtl.Input
