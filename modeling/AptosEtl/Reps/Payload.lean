import AptosEtl.Reps.Values
import AptosEtl.Reps.Module

/-!
# Payloads

`reps/payload.rs`. A payload is either the data of a user transaction, under the type that it
declares, or the write set of the genesis transaction. Each column has its own accessor, which
dispatches on the data first and falls back to the genesis write set.
-/

namespace AptosEtl.Reps

open Rust Input

/-- The errors of `TxPayloadExtract`. -/
inductive TxPayloadError where
  | UnspecifiedPayloadType
  | MismatchPayloadData (type : PayloadType)
  | MissingPayloadData (type : PayloadType)
  | FunctionMissingModuleId
  | ModuleId (error : MoveModuleIdError)
  | MoveType (error : MoveTypeError)
  | ScriptPayloadMissingCode
  | FailedBuildingMoveScriptAbi (error : FunctionError)
  | NoScriptPayloadInWriteSetPayload
  | NotWriteSet
  | MissingWritesetData
  | MissingPayloadType

/-- `TxPayloadExtract`. -/
structure TxPayloadExtract where
  payload_type : Option PayloadType
  payload_data : Option PayloadData
  genesis_payload : Option WriteSet

namespace TxPayloadExtract

/-- `TxPayloadExtract::encode_functionid`. -/
def encodeFunctionid (crates : Crates) (self : TxPayloadExtract) :
    Outcome TxPayloadError (Option String) :=
  match self.payload_data with
  | some (.EntryFunctionPayload data) =>
    match data.function with
    | some fnid =>
      match fnid.module with
      | some mid =>
        ((ModuleId.ofMessage mid).tryEncode crates).mapErr .ModuleId |>.bind fun moveid =>
          .ok (some (moveid ++ "::" ++ fnid.name))
      | none => .err .FunctionMissingModuleId
    | none => .err .FunctionMissingModuleId
  -- only an entry function has an id
  | _ => .ok none

/-- `TxPayloadExtract::is_genesis`. -/
def isGenesis (self : TxPayloadExtract) : Bool := self.genesis_payload.isSome

/-- `TxPayloadExtract::is_genesis_scriptwriteset`. -/
def isGenesisScriptwriteset (self : TxPayloadExtract) : Bool :=
  match self.genesis_payload with
  | some (.ScriptWriteSet _) => true
  | some .DirectWriteSet => false
  | none => false

/-- `TxPayloadExtract::encode_payload_type`. -/
def encodePayloadType (self : TxPayloadExtract) : Outcome TxPayloadError String :=
  match self.payload_type with
  | some .EntryFunctionPayload => .ok "entry_function"
  | some .MultisigPayload => .ok "multisig"
  | some .ScriptPayload => .ok "script"
  | some .WriteSetPayload => .ok "writeset"
  | some .EncryptedTransactionPayload => .ok "encrypted_transaction"
  | some .Unspecified => .err .UnspecifiedPayloadType
  -- the genesis transaction declares no payload type
  | none => if self.isGenesis then .ok "genesis_writeset" else .err .MissingPayloadType

/-- `TxPayloadExtract::extract_writesetpayload`. -/
def extractWritesetpayload (self : TxPayloadExtract) : Outcome TxPayloadError WriteSet :=
  match self.payload_data with
  | some (.WriteSetPayload writesetpayload) =>
    match writesetpayload.write_set with
    | some outterWriteSet =>
      match outterWriteSet.write_set with
      | some writeSet => .ok writeSet
      | none => .err .MissingWritesetData
    | none => .err .NotWriteSet
  | none =>
    match self.genesis_payload with
    | some writeset => .ok writeset
    | none => .err .MissingWritesetData
  -- data of another type has no write set, whatever the genesis transaction carries
  | _ => .err .NotWriteSet

/-- `TxPayloadExtract::extract_writesetpayload_scriptpayload`. -/
def extractWritesetpayloadScriptpayload (self : TxPayloadExtract) :
    Outcome TxPayloadError ScriptPayload :=
  self.extractWritesetpayload.bind fun
    | .ScriptWriteSet sws =>
      match sws.script with
      | some script => .ok script
      | none => .err .ScriptPayloadMissingCode
    -- a direct write set has no script
    | _ => .err .NoScriptPayloadInWriteSetPayload

/-- The types that `TxPayloadExtract::type_arguments` encodes, if the payload has any. -/
def typeArgumentMessages (self : TxPayloadExtract) :
    Outcome TxPayloadError (Option (List Input.MoveType)) :=
  match self.payload_data with
  | some (.EntryFunctionPayload data) => .ok (some data.type_arguments)
  | some (.ScriptPayload data) => .ok (some data.type_arguments)
  | some (.WriteSetPayload _) =>
    self.extractWritesetpayloadScriptpayload.bind fun script => .ok (some script.type_arguments)
  -- a multisig or encrypted payload falls through to here, and so does no payload at all
  | _ =>
    if self.isGenesisScriptwriteset then
      self.extractWritesetpayloadScriptpayload.bind fun script => .ok (some script.type_arguments)
    else
      .ok none

/-- `TxPayloadExtract::type_arguments`. -/
def typeArguments (crates : Crates) (self : TxPayloadExtract) :
    Outcome TxPayloadError (Option (List String)) :=
  self.typeArgumentMessages.bind fun
    | none => .ok none
    | some args =>
      (Outcome.tryMap MoveType.tryFrom args).mapErr .MoveType |>.bind fun movetypes =>
        (Outcome.tryMap (MoveType.tryEncode crates) movetypes).mapErr .MoveType |>.bind
          fun encodedArgs => .ok (some encodedArgs)

/-- `TxPayloadExtract::arguments`. -/
def arguments (self : TxPayloadExtract) : Outcome TxPayloadError (Option (List String)) :=
  match self.payload_data with
  | some (.EntryFunctionPayload data) => .ok (some data.arguments)
  | some (.ScriptPayload data) => .ok (some data.arguments)
  | some (.WriteSetPayload _) =>
    self.extractWritesetpayloadScriptpayload.bind fun script => .ok (some script.arguments)
  | _ =>
    if self.isGenesisScriptwriteset then
      self.extractWritesetpayloadScriptpayload.bind fun script => .ok (some script.arguments)
    else
      .ok none

/-- `TxPayloadExtract::entry_function_id_str`. -/
def entryFunctionIdStr (self : TxPayloadExtract) : Option String :=
  match self.payload_data with
  | some (.EntryFunctionPayload data) => some data.entry_function_id_str
  | _ => none

/-- The code of the script in a write set. -/
def writesetCode (self : TxPayloadExtract) : Outcome TxPayloadError (Option MoveScriptBytecode) :=
  self.extractWritesetpayloadScriptpayload.bind fun script =>
    match script.code with
    | some code => .ok (some code)
    | none => .err .ScriptPayloadMissingCode

/-- The bytecode that `TxPayloadExtract::code` encodes, if the payload has any. -/
def codeMessage (self : TxPayloadExtract) : Outcome TxPayloadError (Option MoveScriptBytecode) :=
  match self.payload_data with
  | some (.ScriptPayload data) =>
    match data.code with
    | some mmbytecode => .ok (some mmbytecode)
    | none => .err .ScriptPayloadMissingCode
  | some (.WriteSetPayload _) => self.writesetCode
  | _ => if self.isGenesisScriptwriteset then self.writesetCode else .ok none

/-- The ABI of a script, when it has one. -/
def scriptAbi (crates : Crates) :
    Option MoveFunction → Outcome TxPayloadError (Option Rows.ExposedFunction)
  | some fxn =>
    (Function.tryFrom fxn).mapErr .FailedBuildingMoveScriptAbi |>.bind fun abi =>
      (abi.tryEncode crates).mapErr .FailedBuildingMoveScriptAbi |>.bind fun abi => .ok (some abi)
  | none => .ok none

/-- `TxPayloadExtract::code`. -/
def code (crates : Crates) (self : TxPayloadExtract) : Outcome TxPayloadError (Option Rows.Code) :=
  self.codeMessage.bind fun
    | none => .ok none
    | some mmbytecode =>
      (scriptAbi crates mmbytecode.abi).bind fun abi =>
        .ok (some ⟨crates.base64 mmbytecode.bytecode, abi⟩)

/-- `TxPayloadExtract::multisig_address`. -/
def multisigAddress (self : TxPayloadExtract) : Option String :=
  match self.payload_data with
  | some (.MultisigPayload data) => some data.multisig_address
  | _ => none

/-- `TxPayloadExtract::execute_as`. -/
def executeAs (self : TxPayloadExtract) : Outcome TxPayloadError (Option String) :=
  match self.payload_data with
  | some (.WriteSetPayload _) =>
    self.extractWritesetpayload.bind fun
      | .ScriptWriteSet sws => .ok (some sws.execute_as)
      -- a direct write set is an error here but no value in the genesis transaction
      | _ => .err .MissingWritesetData
  | none =>
    match self.genesis_payload with
    | some .DirectWriteSet => .ok none
    | some (.ScriptWriteSet sws) => .ok (some sws.execute_as)
    | none => .ok none
  | _ => .ok none

/-- `TxPayloadExtract::try_encode`. -/
def tryEncode (crates : Crates) (self : TxPayloadExtract) : Outcome TxPayloadError Rows.Payload :=
  (self.encodeFunctionid crates).bind fun function =>
    (self.typeArguments crates).bind fun typeArguments =>
      self.arguments.bind fun arguments =>
        (self.code crates).bind fun code =>
          self.executeAs.bind fun executeAs =>
            .ok {
              function := function
              type_arguments := typeArguments.getD []
              arguments := arguments.getD []
              execute_as := executeAs
              entry_function_id_str := self.entryFunctionIdStr
              code := code
              multisig_address := self.multisigAddress }

/-- `TxPayloadExtract::from` on the write set of the genesis transaction. -/
def ofWriteSet (value : WriteSet) : TxPayloadExtract := ⟨none, none, some value⟩

/-- `TxPayloadExtract::try_from`: the declared type must be that of the data. -/
def tryFrom (value : TransactionPayload) : Outcome TxPayloadError TxPayloadExtract :=
  match value.type.getD .Unspecified, value.payload with
  | .EntryFunctionPayload, some (.EntryFunctionPayload data) =>
    .ok ⟨some .EntryFunctionPayload, some (.EntryFunctionPayload data), none⟩
  | .MultisigPayload, some (.MultisigPayload data) =>
    .ok ⟨some .MultisigPayload, some (.MultisigPayload data), none⟩
  | .ScriptPayload, some (.ScriptPayload data) =>
    .ok ⟨some .ScriptPayload, some (.ScriptPayload data), none⟩
  | .WriteSetPayload, some (.WriteSetPayload data) =>
    .ok ⟨some .WriteSetPayload, some (.WriteSetPayload data), none⟩
  | .EncryptedTransactionPayload, some .EncryptedTransactionPayload =>
    .ok ⟨some .EncryptedTransactionPayload, some .EncryptedTransactionPayload, none⟩
  -- the order of the refusals: no type, then no data, then data of another type
  | .Unspecified, _ => .err .UnspecifiedPayloadType
  | payloadType, none => .err (.MissingPayloadData payloadType)
  | payloadType, some _ => .err (.MismatchPayloadData payloadType)

/-! ## Encoding settles -/

/-- Encoding the function id returns. -/
theorem encodeFunctionid_settles (crates : Crates) (self : TxPayloadExtract) :
    (self.encodeFunctionid crates).Settles := by
  unfold encodeFunctionid
  split
  · split
    · split
      · exact (ModuleId.tryEncode_settles _).mapErr.bind fun _ _ =>
          Outcome.settles_ok _
      · exact Outcome.settles_err _
    · exact Outcome.settles_err _
  · exact Outcome.settles_ok _

/-- Encoding the type of the payload returns. -/
theorem encodePayloadType_settles (self : TxPayloadExtract) : self.encodePayloadType.Settles := by
  unfold encodePayloadType
  -- only the arm without a payload type asks for the genesis write set
  split
  case h_7 => split_ifs <;> simp
  all_goals simp

/-- Extracting the write set returns. -/
theorem extractWritesetpayload_settles (self : TxPayloadExtract) :
    self.extractWritesetpayload.Settles := by
  unfold extractWritesetpayload
  split
  · split
    · split <;> simp
    · exact Outcome.settles_err _
  · split <;> simp
  · exact Outcome.settles_err _

/-- Extracting the script of a write set returns. -/
theorem extractWritesetpayloadScriptpayload_settles (self : TxPayloadExtract) :
    self.extractWritesetpayloadScriptpayload.Settles := by
  refine (extractWritesetpayload_settles self).bind fun writeSet _ => ?_
  split
  · split <;> simp
  · exact Outcome.settles_err _

/-- Encoding the type arguments returns. -/
theorem typeArguments_settles (crates : Crates) (self : TxPayloadExtract) :
    (self.typeArguments crates).Settles := by
  have hscript := extractWritesetpayloadScriptpayload_settles self
  have hargs : self.typeArgumentMessages.Settles := by
    unfold typeArgumentMessages
    split
    · exact Outcome.settles_ok _
    · exact Outcome.settles_ok _
    · exact hscript.bind fun _ _ => Outcome.settles_ok _
    · split_ifs
      · exact hscript.bind fun _ _ => Outcome.settles_ok _
      · exact Outcome.settles_ok _
  refine hargs.bind fun args _ => ?_
  split
  · exact Outcome.settles_ok _
  · refine (tryMap_tryFrom_settles _).mapErr.bind fun _ _ => ?_
    exact (tryMap_tryEncode_settles _).mapErr.bind fun _ _ =>
      Outcome.settles_ok _

/-- Reading the arguments returns. -/
theorem arguments_settles (self : TxPayloadExtract) : self.arguments.Settles := by
  have hscript := extractWritesetpayloadScriptpayload_settles self
  unfold arguments
  split
  · exact Outcome.settles_ok _
  · exact Outcome.settles_ok _
  · exact hscript.bind fun _ _ => Outcome.settles_ok _
  · split_ifs
    · exact hscript.bind fun _ _ => Outcome.settles_ok _
    · exact Outcome.settles_ok _

/-- Encoding the code returns. -/
theorem code_settles (crates : Crates) (self : TxPayloadExtract) : (self.code crates).Settles := by
  have hscript := extractWritesetpayloadScriptpayload_settles self
  have hwriteset : self.writesetCode.Settles := by
    refine hscript.bind fun script _ => ?_
    split <;> simp
  have hmessage : self.codeMessage.Settles := by
    unfold codeMessage
    split
    · split <;> simp
    · exact hwriteset
    · split_ifs
      · exact hwriteset
      · exact Outcome.settles_ok _
  refine hmessage.bind fun message _ => ?_
  split
  · exact Outcome.settles_ok _
  · refine Outcome.Settles.bind ?_ fun _ _ => Outcome.settles_ok _
    unfold scriptAbi
    split
    · refine (Function.tryFrom_settles _).mapErr.bind fun _ _ => ?_
      exact (Function.tryEncode_settles _).mapErr.bind fun _ _ =>
        Outcome.settles_ok _
    · exact Outcome.settles_ok _

/-- Reading `execute_as` returns. -/
theorem executeAs_settles (self : TxPayloadExtract) : self.executeAs.Settles := by
  unfold executeAs
  split
  · refine (extractWritesetpayload_settles self).bind fun writeSet _ => ?_
    split <;> simp
  · split <;> simp
  · exact Outcome.settles_ok _

/-- Encoding a payload returns. -/
theorem tryEncode_settles (crates : Crates) (self : TxPayloadExtract) :
    (self.tryEncode crates).Settles :=
  (encodeFunctionid_settles crates self).bind fun _ _ =>
    (typeArguments_settles crates self).bind fun _ _ =>
      (arguments_settles self).bind fun _ _ =>
        (code_settles crates self).bind fun _ _ =>
          (executeAs_settles self).bind fun _ _ => Outcome.settles_ok _

/-- Converting a payload returns. -/
theorem tryFrom_settles (value : TransactionPayload) : (tryFrom value).Settles := by
  unfold tryFrom
  split <;> simp

end TxPayloadExtract

end AptosEtl.Reps
