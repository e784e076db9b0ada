import AptosEtl.Proto.Input

/-!
# The published rows

The records that the worker publishes, one structure for each message of the `proto_src`
directory. A row's columns that only repeat an enum as text are strings, as the schema has them.
Counts of list elements are natural numbers; every other `u64` is the value of a source field.
-/

namespace AptosEtl.Rows

/-- `aptos.common.UnixTimestamp`. -/
structure UnixTimestamp where
  seconds : ℤ
  nanos : ℕ
  deriving DecidableEq, Repr

/-- `aptos.blocks.Block`. -/
structure Block where
  block_hash : String
  block_timestamp : String
  block_height : Int64
  round : UInt64
  previous_block_votes_bitvec : String
  proposer : String
  blockmetadata_tx_version : UInt64
  block_unixtimestamp : UnixTimestamp
  deriving DecidableEq, Repr

/-- `aptos.changes.Change`. -/
structure Change where
  block_height : Int64
  block_timestamp : String
  tx_version : UInt64
  tx_hash : String
  tx_sequence_number : Option UInt64
  tx_sequence_number_big : Option String
  change_index : ℕ
  change_type : String
  address : Option String
  state_key_hash : String
  block_unixtimestamp : UnixTimestamp
  deriving DecidableEq, Repr

/-- `json.events.Event`. -/
structure Event where
  block_height : Int64
  block_timestamp : String
  tx_version : UInt64
  tx_hash : String
  tx_sequence_number : Option UInt64
  tx_sequence_number_big : Option String
  event_index : ℕ
  event_type : String
  address : String
  creation_num : UInt64
  sequence_number : UInt64
  data : String
  block_unixtimestamp : UnixTimestamp
  deriving DecidableEq, Repr

/-- `aptos.modules.Module.Friend`. -/
structure Friend where
  address : String
  name : String
  deriving DecidableEq, Repr

/-- `GenericFunctionTypeParams`. -/
structure GenericFunctionTypeParams where
  constraints : List String
  deriving DecidableEq, Repr

/-- `aptos.modules.Module.ExposedFunction`. -/
structure ExposedFunction where
  name : String
  visibility : String
  is_entry : Bool
  generic_type_params : List GenericFunctionTypeParams
  params : List String
  «return» : List String
  deriving DecidableEq, Repr

/-- `GenericStructTypeParams`. -/
structure GenericStructTypeParams where
  constraints : List String
  is_phantom : Bool
  deriving DecidableEq, Repr

/-- `aptos.modules.Module.Struct.Fields`. -/
structure Fields where
  name : String
  type : String
  deriving DecidableEq, Repr

/-- `aptos.modules.Module.Struct`. -/
structure Struct where
  name : String
  is_native : Bool
  abilities : List String
  generic_type_params : List GenericStructTypeParams
  fields : List Fields
  deriving DecidableEq, Repr

/-- `aptos.modules.Module`. -/
structure Module where
  block_height : Int64
  block_timestamp : String
  tx_version : UInt64
  tx_hash : String
  change_index : ℕ
  bytecode : Option String
  address : String
  name : Option String
  friends : List Friend
  exposed_functions : List ExposedFunction
  structs : List Struct
  block_unixtimestamp : UnixTimestamp
  deriving DecidableEq, Repr

/-- `aptos.resource_extras.StructTag`. -/
structure StructTag where
  address : String
  module : String
  name : String
  generic_type_params : List String
  deriving DecidableEq, Repr

/-- `json.resources.Resource`. -/
structure Resource where
  block_height : Int64
  block_timestamp : String
  tx_version : UInt64
  tx_hash : String
  tx_sequence_number : Option UInt64
  tx_sequence_number_big : Option String
  change_index : ℕ
  address : String
  state_key_hash : String
  change_type : String
  struct_tag : Option StructTag
  type_str : String
  resource : Option String
  block_unixtimestamp : UnixTimestamp
  deriving DecidableEq, Repr

/-- `aptos.signatures.Signature.PublicKey`. -/
structure PublicKey where
  type : String
  value : String
  index : Option UInt32
  deriving DecidableEq, Repr

/-- `aptos.signatures.Signature.Signature`. -/
structure SignatureValue where
  type : String
  value : String
  index : Option UInt32
  deriving DecidableEq, Repr

/-- `aptos.signatures.Signature`. -/
structure Signature where
  block_height : Int64
  block_timestamp : String
  tx_version : UInt64
  tx_hash : String
  threshold : Option UInt32
  is_secondary : Option Bool
  is_fee_payer : Option Bool
  is_sender : Option Bool
  signature : Option SignatureValue
  public_key : PublicKey
  build_type : String
  signer : String
  block_unixtimestamp : UnixTimestamp
  deriving DecidableEq, Repr

/-- `aptos.table_items.TableItem.Key`. -/
structure TableKey where
  name : String
  type : String
  deriving DecidableEq, Repr

/-- `aptos.table_items.TableItem.Value`. -/
structure TableValue where
  content : String
  type : String
  deriving DecidableEq, Repr

/-- `aptos.table_items.TableItem`. -/
structure TableItem where
  block_height : Int64
  block_timestamp : String
  tx_version : UInt64
  tx_hash : String
  tx_sequence_number : Option UInt64
  tx_sequence_number_big : Option String
  change_index : ℕ
  change_type : String
  address : String
  state_key_hash : String
  key : TableKey
  value : Option TableValue
  block_unixtimestamp : UnixTimestamp
  deriving DecidableEq, Repr

/-- `aptos.transactions.Transaction.ChangesAggregate`. -/
structure ChangesAggregate where
  total : ℕ
  delete_module : ℕ
  delete_resource : ℕ
  delete_table_item : ℕ
  write_module : ℕ
  write_resource : ℕ
  write_table_item : ℕ
  deriving DecidableEq, Repr

/-- `aptos.transactions.Transaction.Payload.Code`. -/
structure Code where
  bytecode : String
  abi : Option ExposedFunction
  deriving DecidableEq, Repr

/-- `aptos.transactions.Transaction.Payload`. -/
structure Payload where
  function : Option String
  type_arguments : List String
  arguments : List String
  execute_as : Option String
  entry_function_id_str : Option String
  code : Option Code
  multisig_address : Option String
  deriving DecidableEq, Repr

/-- `aptos.transactions.Transaction`. -/
structure Transaction where
  block_height : Int64
  block_timestamp : String
  tx_type : String
  tx_version : UInt64
  tx_hash : String
  state_change_hash : String
  event_root_hash : String
  state_checkpoint_hash : Option String
  gas_used : UInt64
  success : Bool
  vm_status : Option String
  accumulator_root_hash : Option String
  sequence_number : Option UInt64
  sequence_number_big : Option String
  max_gas_amount : Option UInt64
  sender : Option String
  num_events : Option ℕ
  num_changes : ChangesAggregate
  expiration_timestamp : Option String
  payload : Option Payload
  gas_unit_price : Option UInt64
  payload_type : Option String
  block_unixtimestamp : UnixTimestamp
  expiration_unixtimestamp : Option UnixTimestamp
  num_signatures : Option ℕ
  deriving DecidableEq, Repr

/-- `aptos.records.Records`: the rows of all eight tables. -/
structure Records where
  blocks : List Block
  transactions : List Transaction
  table_items : List TableItem
  resources : List Resource
  modules : List Module
  changes : List Change
  events : List Event
  signatures : List Signature
  deriving DecidableEq, Repr

/-- `Records::new`. -/
def Records.new : Records := ⟨[], [], [], [], [], [], [], []⟩

end AptosEtl.Rows
