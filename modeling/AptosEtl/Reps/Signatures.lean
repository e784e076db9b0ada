import AptosEtl.Reps.Values

/-!
# Signatures

`deferred.rs`, `reps/publickey.rs`, `reps/sigvalue.rs` and `reps/signatures.rs`. A signature of a
user transaction unfolds to one subrecord for each public key. The account signatures inside the
composite kinds leave some columns open, as `Deferred`, and the composite fills them in. An
account signature holds no further account signature, so nothing here recurses.
-/

namespace AptosEtl.Reps

open Rust Input

/-! ## Deferred values -/

set_option linter.dupNamespace false in
/-- `Deferred`: a value that is set, one to be set later, or one with a fallback. -/
inductive Deferred (α : Type) where
  | Present (value : α)
  | Deferred
  | DeferredFallback (value : α)
  deriving DecidableEq, Repr

/-- `Deferred::extract`, where no value is `DeferredError::CurrentlyDeferred`. -/
def Deferred.extract {α : Type} : Reps.Deferred α → Option α
  | .DeferredFallback value => some value
  | .Present value => some value
  | .Deferred => none

/-! ## Public keys -/

/-- The errors of `PublicKeyExtract`. -/
inductive PublicKeyError where
  | Unspecified

/-- `PublicKeyExtract::convert_type`, as text. -/
def convertPublicKeyType : AnyPublicKeyType → Outcome PublicKeyError String
  | .Ed25519 => .ok "ed25519"
  | .Secp256k1Ecdsa => .ok "secp256k1_ecdsa"
  | .Keyless => .ok "keyless"
  | .Secp256r1Ecdsa => .ok "secp256r1_ecdsa"
  | .FederatedKeyless => .ok "federated_keyless"
  | .SlhDsaSha2128s => .ok "slh_dsa_sha2_128s"
  | .Unspecified => .err .Unspecified

/-- `PublicKeyExtract::from`, then `try_into`. -/
def publicKeyTryInto (crates : Crates) (value : AnyPublicKey) :
    Outcome PublicKeyError Rows.PublicKey :=
  (convertPublicKeyType (value.type.getD .Unspecified)).bind fun type =>
    .ok ⟨type, (HashValue.mk value.public_key).encode crates, none⟩

/-! ## Signature values -/

/-- The errors of `SigValueExtraction`. -/
inductive SigValueError where
  | Unspecified
  | IndexedSigMissingSigData
  | UnsupportedSignatureVariant

/-- `SigValueExtraction`. -/
structure SigValueExtraction where
  value : HashValue
  sigvaltype : AnySignatureType
  index : Option UInt32

namespace SigValueExtraction

/-- `SigValueExtraction::convert_type`, as text. -/
def convertType : AnySignatureType → Outcome SigValueError String
  | .Ed25519 => .ok "ed25519"
  | .Secp256k1Ecdsa => .ok "secp256k1_ecdsa"
  | .Keyless => .ok "keyless"
  | .Webauthn => .ok "webauthn"
  | .SlhDsaSha2128s => .ok "slh_dsa_sha2_128s"
  | .Unspecified => .err .Unspecified

/-- The bytes of a signature, which every variant holds. -/
def variantBytes : SignatureVariant → Bytes
  | .Ed25519 signature => signature
  | .Keyless signature => signature
  | .Secp256k1Ecdsa signature => signature
  | .Webauthn signature => signature
  | .SlhDsaSha2128s signature => signature

/-- `SigValueExtraction::try_from`. The type and the variant are not compared. -/
def tryFrom (value : AnySignature) : Outcome SigValueError SigValueExtraction :=
  match value.signature_variant with
  | some variant => .ok ⟨⟨variantBytes variant⟩, value.type.getD .Unspecified, none⟩
  | none => .err .UnsupportedSignatureVariant

/-- `SigValueExtraction::try_from` on an indexed signature. -/
def tryFromIndexed (value : IndexedSignature) : Outcome SigValueError SigValueExtraction :=
  match value.signature with
  | some anysig =>
    (tryFrom anysig).bind fun extract => .ok { extract with index := some value.index }
  | none => .err .IndexedSigMissingSigData

/-- `SigValueExtraction::try_into`. -/
def tryInto (crates : Crates) (self : SigValueExtraction) :
    Outcome SigValueError Rows.SignatureValue :=
  (convertType self.sigvaltype).bind fun type => .ok ⟨type, self.value.encode crates, self.index⟩

end SigValueExtraction

/-! ## Subrecords -/

/-- The errors of `SignatureSubRecord`. -/
inductive SignatureError where
  | MissingSignatureData
  | MissingAccountSignatureData
  | MultiEd25519LengthMismath (publicKeys signatures indices : ℕ)
  | SignatureValueIssue (error : SigValueError)
  | MultiEd25519MultiplePubkeyIndexMatch (index : ℕ)
  | MultiKeyMultipleSignatureIndexMatch (index : ℕ)
  | MissingSingleSender
  | UnspecifiedAccountSignature
  | SingleKeySignatureMissingPubKey
  | SingleKeySignatureMissingSignature
  | UnspecifiedSignatureType
  | FeePayerMissingSender
  | FeePayerMissingFeePayer
  | MultiAgentMissingSender
  | PubKeyError (error : PublicKeyError)

/-- The `SignatureBuildType` enum. -/
inductive SignatureBuildType where
  | Ed25519
  | MultiEd25519
  | MultiAgent
  | FeePayer
  | SingleSender
  deriving DecidableEq, Repr

/-- `SignatureBuildType::as_str_name`. -/
def SignatureBuildType.asStrName : SignatureBuildType → String
  | Ed25519 => "ed25519"
  | MultiEd25519 => "multi_ed25519"
  | MultiAgent => "multi_agent"
  | FeePayer => "fee_payer"
  | SingleSender => "single_sender"

/-- `SignatureSubRecord`: the part of a row that the signature determines. -/
structure SignatureSubRecord where
  buildtype : Deferred SignatureBuildType
  public_key : Rows.PublicKey
  signature : Option Rows.SignatureValue
  threshold : Option UInt32
  signer : Deferred Address
  is_secondary : Deferred (Option Bool)
  is_feepayer : Deferred (Option Bool)
  is_sender : Deferred (Option Bool)

namespace SignatureSubRecord

/-- `SignatureSubRecord::from_ed25519`. -/
def fromEd25519 (crates : Crates) (value : Ed25519Signature) : SignatureSubRecord where
  buildtype := .DeferredFallback .Ed25519
  public_key := ⟨"ed25519", (HashValue.mk value.public_key).encode crates, none⟩
  signature := some ⟨"ed25519", (HashValue.mk value.signature).encode crates, none⟩
  threshold := none
  signer := .Deferred
  is_secondary := .Present none
  is_feepayer := .Present none
  is_sender := .Present none

/-- The map from the index of a public key to its signature. -/
abbrev Sigs := List (ℕ × Rows.SignatureValue)

/-- `HashMap::insert`, where an old value is the error. -/
def Sigs.insertNew (sigs : Sigs) (index : ℕ) (sigval : Rows.SignatureValue)
    (duplicate : SignatureError) : Outcome SignatureError Sigs :=
  match sigs.lookup index with
  | none => .ok ((index, sigval) :: sigs)
  | some _ => .err duplicate

/-- `SignatureSubRecord::from_multied25519`. The loop over the public keys takes each index out of
the map once, so taking out is looking up. -/
def fromMultied25519 (crates : Crates) (value : MultiEd25519Signature) :
    Outcome SignatureError (List SignatureSubRecord) :=
  if value.signatures.length ≠ value.public_key_indices.length then
    .err (.MultiEd25519LengthMismath value.public_keys.length value.signatures.length
      value.public_key_indices.length)
  else
    (Outcome.tryFold (fun sigs (sig, index) =>
      Sigs.insertNew sigs (UInt32.toNat index)
        ⟨"ed25519", (HashValue.mk sig).encode crates, some index⟩
        (.MultiEd25519MultiplePubkeyIndexMatch index.toNat))
      ([] : Sigs) (value.signatures.zip value.public_key_indices)).bind fun sigs =>
        .ok (value.public_keys.mapIdx fun index pubkey => {
          buildtype := .DeferredFallback .MultiEd25519
          -- `index as u32`: the index is truncated, not checked
          public_key := ⟨"ed25519", (HashValue.mk pubkey).encode crates, some (UInt32.ofNat index)⟩
          signature := sigs.lookup index
          threshold := some value.threshold
          signer := .Deferred
          is_secondary := .Present none
          is_feepayer := .Present none
          is_sender := .Present none })

/-- `SignatureSubRecord::from_singlekeysignature`: the variant of the signature is read before the
type of the public key. -/
def fromSinglekeysignature (crates : Crates) (value : SingleKeySignature) :
    Outcome SignatureError SignatureSubRecord :=
  match value.public_key, value.signature with
  | some pubkey, some sig =>
    (SigValueExtraction.tryFrom sig).mapErr .SignatureValueIssue |>.bind fun sig =>
      (publicKeyTryInto crates pubkey).mapErr .PubKeyError |>.bind fun publicKey =>
        (sig.tryInto crates).mapErr .SignatureValueIssue |>.bind fun signature =>
          .ok {
            buildtype := .Deferred
            public_key := publicKey
            signature := some signature
            threshold := none
            signer := .Deferred
            is_secondary := .Present none
            is_feepayer := .Present none
            is_sender := .Present none }
  -- with neither of the two, the public key is the one that is missed
  | none, _ => .err .SingleKeySignatureMissingPubKey
  | _, none => .err .SingleKeySignatureMissingSignature

/-- `SignatureSubRecord::from_multikeysignature`. The public keys are published without their
index. -/
def fromMultikeysignature (crates : Crates) (value : MultiKeySignature) :
    Outcome SignatureError (List SignatureSubRecord) :=
  (Outcome.tryFold (fun sigs sig =>
    (SigValueExtraction.tryFromIndexed sig).mapErr .SignatureValueIssue |>.bind fun extract =>
      (extract.tryInto crates).mapErr .SignatureValueIssue |>.bind fun sigval =>
        Sigs.insertNew sigs sig.index.toNat sigval
          (.MultiKeyMultipleSignatureIndexMatch sig.index.toNat))
    ([] : Sigs) value.signatures).bind fun sigs =>
      Outcome.tryMap (fun (pubkey, index) =>
        (publicKeyTryInto crates pubkey).mapErr .PubKeyError |>.bind fun publicKey =>
          .ok {
            buildtype := .Deferred
            public_key := publicKey
            signature := sigs.lookup index
            threshold := some value.signatures_required
            signer := .Deferred
            is_secondary := .Present none
            is_feepayer := .Present none
            is_sender := .Present none }) value.public_keys.zipIdx

/-- `SignatureSubRecord::from_abstractionsignature`. -/
def fromAbstractionsignature (crates : Crates) (value : AbstractSignature) :
    SignatureSubRecord where
  buildtype := .Deferred
  public_key := ⟨"Unspecified", "Abstraction", none⟩
  signature := some ⟨"Abstraction", "0x" ++ crates.hexEncode value.signature, none⟩
  threshold := none
  signer := .Deferred
  is_secondary := .DeferredFallback none
  is_feepayer := .DeferredFallback none
  is_sender := .DeferredFallback none

/-- `SignatureSubRecord::from_accountsignature`: the declared type must be that of the data. -/
def fromAccountsignature (crates : Crates) (value : AccountSignature) :
    Outcome SignatureError (List SignatureSubRecord) :=
  match value.type.getD .Unspecified, value.signature with
  | .Ed25519, some (.Ed25519 sigdata) => .ok [fromEd25519 crates sigdata]
  | .MultiEd25519, some (.MultiEd25519 sigdata) => fromMultied25519 crates sigdata
  | .MultiKey, some (.MultiKeySignature sigdata) => fromMultikeysignature crates sigdata
  | .SingleKey, some (.SingleKeySignature sigdata) =>
    (fromSinglekeysignature crates sigdata).bind fun subrecord => .ok [subrecord]
  -- an undeclared type is refused before the data is asked for
  | .Unspecified, _ => .err .UnspecifiedAccountSignature
  | .Abstraction, some (.Abstraction sigdata) => .ok [fromAbstractionsignature crates sigdata]
  | _, none => .err .MissingAccountSignatureData
  -- a mismatch, under the error of an unspecified type
  | _, _ => .err .UnspecifiedAccountSignature

/-- The loop over the secondary signers, which stops at the shorter of the two lists. -/
def fromSecondarySigners (crates : Crates)
    (context : Address → SignatureSubRecord → SignatureSubRecord)
    (signers : List AccountSignature) (addresses : List String) :
    Outcome SignatureError (List SignatureSubRecord) :=
  (Outcome.tryMap (fun (acctsig, addrstr) =>
    (fromAccountsignature crates acctsig).bind fun subrecords =>
      .ok (subrecords.map (context (.string addrstr)))) (signers.zip addresses)).bind
    fun subrecords => .ok subrecords.flatten

/-- `SignatureSubRecord::from_multiagentsignature`: the secondary signers come first. -/
def fromMultiagentsignature (crates : Crates) (value : MultiAgentSignature) :
    Outcome SignatureError (List SignatureSubRecord) :=
  (fromSecondarySigners crates (fun address subrecord => { subrecord with
      buildtype := .DeferredFallback .MultiAgent
      signer := .Present address
      is_secondary := .Present (some true)
      is_sender := .Present (some false) })
    value.secondary_signers value.secondary_signer_addresses).bind fun secondary =>
      match value.sender with
      -- the sender is missed only after the secondary signers are built
      | none => .err .MultiAgentMissingSender
      | some sender =>
        (fromAccountsignature crates sender).bind fun subrecords =>
          .ok (secondary ++ subrecords.map fun subrecord => { subrecord with
            buildtype := .DeferredFallback .MultiAgent
            is_secondary := .Present (some false)
            is_sender := .Present (some true) })

/-- The sender's part of `SignatureSubRecord::from_feepayersignature`. -/
def fromFeepayerSender (crates : Crates) (value : FeePayerSignature) :
    Outcome SignatureError (List SignatureSubRecord) :=
  match value.sender with
  | none => .err .FeePayerMissingSender
  | some sender =>
    (fromAccountsignature crates sender).bind fun subrecords =>
      .ok (subrecords.map fun subrecord => { subrecord with
        buildtype := .DeferredFallback .FeePayer
        is_feepayer := .Present (some false)
        is_secondary := .Present (some false)
        is_sender := .Present (some true) })

/-- The fee payer's part of `SignatureSubRecord::from_feepayersignature`. -/
def fromFeepayerSigner (crates : Crates) (value : FeePayerSignature) :
    Outcome SignatureError (List SignatureSubRecord) :=
  match value.fee_payer_signer with
  | none => .err .FeePayerMissingFeePayer
  | some feepayer =>
    (fromAccountsignature crates feepayer).bind fun subrecords =>
      .ok (subrecords.map fun subrecord => { subrecord with
        buildtype := .DeferredFallback .FeePayer
        signer := .Present (.string value.fee_payer_address)
        is_feepayer := .Present (some true)
        is_secondary := .Present (some false)
        is_sender := .Present (some false) })

/-- `SignatureSubRecord::from_feepayersignature`. -/
def fromFeepayersignature (crates : Crates) (value : FeePayerSignature) :
    Outcome SignatureError (List SignatureSubRecord) :=
  (fromFeepayerSender crates value).bind fun sender =>
    (fromFeepayerSigner crates value).bind fun feepayer =>
      (fromSecondarySigners crates (fun address subrecord => { subrecord with
          buildtype := .DeferredFallback .FeePayer
          signer := .Present address
          is_feepayer := .Present (some false)
          is_secondary := .Present (some true)
          is_sender := .Present (some false) })
        value.secondary_signers value.secondary_signer_addresses).bind fun secondary =>
          .ok (sender ++ feepayer ++ secondary)

/-- `SignatureSubRecord::from_singlesender`. -/
def fromSinglesender (crates : Crates) (value : SingleSender) :
    Outcome SignatureError (List SignatureSubRecord) :=
  match value.sender with
  | some singleSender =>
    (fromAccountsignature crates singleSender).bind fun subrecords =>
      .ok (subrecords.map fun subrecord => { subrecord with
        buildtype := .DeferredFallback .SingleSender })
  | none => .err .MissingSingleSender

/-- `SignatureSubRecord::from_signature`: the declared type must be that of the data. -/
def fromSignature (crates : Crates) (value : Signature) :
    Outcome SignatureError (List SignatureSubRecord) :=
  match value.type.getD .Unspecified, value.signature with
  | .Ed25519, some (.Ed25519 data) => .ok [fromEd25519 crates data]
  | .MultiEd25519, some (.MultiEd25519 data) => fromMultied25519 crates data
  | .MultiAgent, some (.MultiAgent data) => fromMultiagentsignature crates data
  | .FeePayer, some (.FeePayer data) => fromFeepayersignature crates data
  | .SingleSender, some (.SingleSender data) => fromSinglesender crates data
  | .Unspecified, _ => .err .UnspecifiedSignatureType
  | _, none => .err .MissingSignatureData
  -- a mismatch, under the error of an unspecified type
  | _, _ => .err .UnspecifiedSignatureType

/-! ## Building settles -/

variable {crates : Crates}

/-- Encoding a public key returns. -/
theorem publicKeyTryInto_settles (value : AnyPublicKey) :
    (publicKeyTryInto crates value).Settles := by
  refine Outcome.Settles.bind ?_ fun _ _ => Outcome.settles_ok _
  unfold convertPublicKeyType
  split <;> simp

/-- Extracting a signature value returns. -/
theorem sigValue_tryFrom_settles (value : AnySignature) :
    (SigValueExtraction.tryFrom value).Settles := by
  unfold SigValueExtraction.tryFrom
  split <;> simp

/-- Extracting an indexed signature value returns. -/
theorem sigValue_tryFromIndexed_settles (value : IndexedSignature) :
    (SigValueExtraction.tryFromIndexed value).Settles := by
  unfold SigValueExtraction.tryFromIndexed
  split
  · exact (sigValue_tryFrom_settles _).bind fun _ _ => Outcome.settles_ok _
  · exact Outcome.settles_err _

/-- Encoding a signature value returns. -/
theorem sigValue_tryInto_settles (self : SigValueExtraction) : (self.tryInto crates).Settles := by
  refine Outcome.Settles.bind ?_ fun _ _ => Outcome.settles_ok _
  unfold SigValueExtraction.convertType
  split <;> simp

/-- Inserting into the map of signatures returns. -/
theorem insertNew_settles (sigs : Sigs) (index : ℕ) (sigval : Rows.SignatureValue)
    (duplicate : SignatureError) : (sigs.insertNew index sigval duplicate).Settles := by
  unfold Sigs.insertNew
  split <;> simp

/-- Building the subrecords of a multi-Ed25519 signature returns. -/
theorem fromMultied25519_settles (value : MultiEd25519Signature) :
    (fromMultied25519 crates value).Settles := by
  unfold fromMultied25519
  split_ifs
  · exact Outcome.settles_err _
  · exact (Outcome.settles_tryFold (fun _ _ _ => insertNew_settles _ _ _ _) _).bind
      fun _ _ => Outcome.settles_ok _

/-- Building the subrecord of a single-key signature returns. -/
theorem fromSinglekeysignature_settles (value : SingleKeySignature) :
    (fromSinglekeysignature crates value).Settles := by
  unfold fromSinglekeysignature
  split
  · refine (sigValue_tryFrom_settles _).mapErr.bind fun _ _ => ?_
    refine (publicKeyTryInto_settles _).mapErr.bind fun _ _ => ?_
    exact (sigValue_tryInto_settles _).mapErr.bind fun _ _ =>
      Outcome.settles_ok _
  · exact Outcome.settles_err _
  · exact Outcome.settles_err _

/-- Building the subrecords of a multi-key signature returns. -/
theorem fromMultikeysignature_settles (value : MultiKeySignature) :
    (fromMultikeysignature crates value).Settles := by
  refine (Outcome.settles_tryFold (fun _ _ _ => ?_) _).bind fun _ _ => ?_
  · refine (sigValue_tryFromIndexed_settles _).mapErr.bind fun _ _ => ?_
    exact (sigValue_tryInto_settles _).mapErr.bind fun _ _ =>
      insertNew_settles _ _ _ _
  · refine Outcome.settles_tryMap fun _ _ => ?_
    exact (publicKeyTryInto_settles _).mapErr.bind fun _ _ =>
      Outcome.settles_ok _

/-- What an account signature is converted to, for each type that has data of its own. -/
inductive AccountConvertsTo (crates : Crates) (value : AccountSignature) :
    List SignatureSubRecord → Prop where
  | Ed25519 {data : Ed25519Signature} (htype : value.type.getD .Unspecified = .Ed25519)
    (hdata : value.signature = some (.Ed25519 data)) :
    AccountConvertsTo crates value [fromEd25519 crates data]
  | MultiEd25519 {data : MultiEd25519Signature} {subrecords : List SignatureSubRecord}
    (htype : value.type.getD .Unspecified = .MultiEd25519)
    (hdata : value.signature = some (.MultiEd25519 data))
    (hrecords : fromMultied25519 crates data = .ok subrecords) :
    AccountConvertsTo crates value subrecords
  | MultiKey {data : MultiKeySignature} {subrecords : List SignatureSubRecord}
    (htype : value.type.getD .Unspecified = .MultiKey)
    (hdata : value.signature = some (.MultiKeySignature data))
    (hrecords : fromMultikeysignature crates data = .ok subrecords) :
    AccountConvertsTo crates value subrecords
  | SingleKey {data : SingleKeySignature} {subrecord : SignatureSubRecord}
    (htype : value.type.getD .Unspecified = .SingleKey)
    (hdata : value.signature = some (.SingleKeySignature data))
    (hrecord : fromSinglekeysignature crates data = .ok subrecord) :
    AccountConvertsTo crates value [subrecord]
  | Abstraction {data : AbstractSignature} (htype : value.type.getD .Unspecified = .Abstraction)
    (hdata : value.signature = some (.Abstraction data)) :
    AccountConvertsTo crates value [fromAbstractionsignature crates data]

/-- A conversion that succeeds is one of these. -/
theorem accountConvertsTo_of_eq_ok {value : AccountSignature}
    {subrecords : List SignatureSubRecord}
    (h : fromAccountsignature crates value = .ok subrecords) :
    AccountConvertsTo crates value subrecords := by
  unfold fromAccountsignature at h
  split at h
  case h_1 data htype hdata =>
    obtain rfl := Outcome.ok.inj h
    exact .Ed25519 htype hdata
  case h_2 data htype hdata => exact .MultiEd25519 htype hdata h
  case h_3 data htype hdata => exact .MultiKey htype hdata h
  case h_4 data htype hdata =>
    obtain ⟨subrecord, hsubrecord, h⟩ := Outcome.bind_eq_ok.1 h
    obtain rfl := Outcome.ok.inj h
    exact .SingleKey htype hdata hsubrecord
  case h_6 data htype hdata =>
    obtain rfl := Outcome.ok.inj h
    exact .Abstraction htype hdata
  all_goals exact nomatch h

/-- Building the subrecords of an account signature returns. -/
theorem fromAccountsignature_settles (value : AccountSignature) :
    (fromAccountsignature crates value).Settles := by
  unfold fromAccountsignature
  split
  case h_2 => exact fromMultied25519_settles _
  case h_3 => exact fromMultikeysignature_settles _
  case h_4 => exact (fromSinglekeysignature_settles _).bind fun _ _ => Outcome.settles_ok _
  all_goals simp

/-- Building the subrecords of the secondary signers returns. -/
theorem fromSecondarySigners_settles
    (context : Address → SignatureSubRecord → SignatureSubRecord)
    (signers : List AccountSignature) (addresses : List String) :
    (fromSecondarySigners crates context signers addresses).Settles :=
  (Outcome.settles_tryMap fun _ _ => (fromAccountsignature_settles _).bind fun _ _ =>
    Outcome.settles_ok _).bind fun _ _ => Outcome.settles_ok _

/-- Building the subrecords of a multi-agent signature returns. -/
theorem fromMultiagentsignature_settles (value : MultiAgentSignature) :
    (fromMultiagentsignature crates value).Settles := by
  refine (fromSecondarySigners_settles _ _ _).bind fun _ _ => ?_
  split
  · exact Outcome.settles_err _
  · exact (fromAccountsignature_settles _).bind fun _ _ => Outcome.settles_ok _

/-- Building the subrecords of a fee-payer signature returns. -/
theorem fromFeepayersignature_settles (value : FeePayerSignature) :
    (fromFeepayersignature crates value).Settles := by
  have hsender : (fromFeepayerSender crates value).Settles := by
    unfold fromFeepayerSender
    split
    · exact Outcome.settles_err _
    · exact (fromAccountsignature_settles _).bind fun _ _ => Outcome.settles_ok _
  have hsigner : (fromFeepayerSigner crates value).Settles := by
    unfold fromFeepayerSigner
    split
    · exact Outcome.settles_err _
    · exact (fromAccountsignature_settles _).bind fun _ _ => Outcome.settles_ok _
  exact hsender.bind fun _ _ => hsigner.bind fun _ _ =>
    (fromSecondarySigners_settles _ _ _).bind fun _ _ => Outcome.settles_ok _

/-- Building the subrecords of a single sender returns. -/
theorem fromSinglesender_settles (value : SingleSender) :
    (fromSinglesender crates value).Settles := by
  unfold fromSinglesender
  split
  · exact (fromAccountsignature_settles _).bind fun _ _ => Outcome.settles_ok _
  · exact Outcome.settles_err _

/-- Building the subrecords of a signature returns. -/
theorem fromSignature_settles (value : Signature) : (fromSignature crates value).Settles := by
  unfold fromSignature
  split
  case h_2 => exact fromMultied25519_settles _
  case h_3 => exact fromMultiagentsignature_settles _
  case h_4 => exact fromFeepayersignature_settles _
  case h_5 => exact fromSinglesender_settles _
  all_goals simp

end SignatureSubRecord

end AptosEtl.Reps
