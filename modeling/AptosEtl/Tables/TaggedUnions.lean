import AptosEtl.Tables.SignatureRows

/-!
# Tagged unions

A union of the messages is a declared type next to a `oneof`. Six of them decide what is extracted:
that of a transaction, of a payload, of a change, of a signature, of an account signature and of a
signature value. The first five are converted by a match on both, so that data of another variant is
refused. A signature value is converted by a match on the variant alone, and its type is published
beside it, whatever it is (`tagsMatch_iff`).
-/

namespace AptosEtl.Tables

open Rust Input Reps

/-! ## Unions -/

/-- There is data, and the declared type is that of its variant. -/
def Tagged {T V : Type} (kind : V → T) (type : EnumField T) (data : Option V) : Prop :=
  ∃ variant, data = some variant ∧ type = .known (kind variant)

/-- A field that does not read as the default is known. -/
theorem eq_known_of_getD {T : Type} {default type : T} {field : EnumField T}
    (h : field.getD default = type) (hne : type ≠ default) : field = .known type := by
  cases field with
  | known value => exact congrArg EnumField.known h
  | unknown number => exact absurd h.symm hne

/-- The type that goes with the data of a transaction. -/
def transactionKind : TxnData → TransactionType
  | .BlockMetadata _ => .BlockMetadata
  | .Genesis _ => .Genesis
  | .StateCheckpoint => .StateCheckpoint
  | .User _ => .User
  | .Validator _ => .Validator
  | .BlockEpilogue => .BlockEpilogue

/-- The type that goes with the data of a payload. -/
def payloadKind : PayloadData → PayloadType
  | .EntryFunctionPayload _ => .EntryFunctionPayload
  | .ScriptPayload _ => .ScriptPayload
  | .WriteSetPayload _ => .WriteSetPayload
  | .MultisigPayload _ => .MultisigPayload
  | .EncryptedTransactionPayload => .EncryptedTransactionPayload

/-- The type that goes with the data of a change. -/
def changeKind : ChangeData → Input.ChangeType
  | .DeleteModule _ => .DeleteModule
  | .DeleteResource _ => .DeleteResource
  | .DeleteTableItem _ => .DeleteTableItem
  | .WriteModule _ => .WriteModule
  | .WriteResource _ => .WriteResource
  | .WriteTableItem _ => .WriteTableItem

/-- The type that goes with the data of a signature. -/
def signatureKind : SignatureData → SignatureType
  | .Ed25519 _ => .Ed25519
  | .MultiEd25519 _ => .MultiEd25519
  | .MultiAgent _ => .MultiAgent
  | .FeePayer _ => .FeePayer
  | .SingleSender _ => .SingleSender

/-- The type that goes with the data of an account signature. -/
def accountKind : AccountSignatureData → AccountSignatureType
  | .Ed25519 _ => .Ed25519
  | .MultiEd25519 _ => .MultiEd25519
  | .SingleKeySignature _ => .SingleKey
  | .MultiKeySignature _ => .MultiKey
  | .Abstraction _ => .Abstraction

/-- The type that goes with the variant of a signature value. -/
def variantKind : SignatureVariant → AnySignatureType
  | .Ed25519 _ => .Ed25519
  | .Secp256k1Ecdsa _ => .Secp256k1Ecdsa
  | .Webauthn _ => .Webauthn
  | .Keyless _ => .Keyless
  | .SlhDsaSha2128s _ => .SlhDsaSha2128s

/-! ## The unions of a transaction -/

/-- The request of a user transaction. -/
def requestOf (value : Input.Transaction) : Option UserTransactionRequest :=
  match value.txn_data with
  | some (.User userdata) => userdata.request
  | _ => none

/-- The signature of a user transaction. -/
def signatureOf (value : Input.Transaction) : Option Input.Signature :=
  (requestOf value).bind UserTransactionRequest.signature

/-- The account signatures that are read: a secondary signer is, as far as it has an address. -/
def accountSignatures : SignatureData → List AccountSignature
  | .Ed25519 _ => []
  | .MultiEd25519 _ => []
  | .MultiAgent data =>
    (data.secondary_signers.zip data.secondary_signer_addresses).map Prod.fst ++
      data.sender.toList
  | .FeePayer data =>
    data.sender.toList ++ data.fee_payer_signer.toList ++
      (data.secondary_signers.zip data.secondary_signer_addresses).map Prod.fst
  | .SingleSender data => data.sender.toList

/-- The signature values in an account signature. -/
def signatureValues : AccountSignatureData → List AnySignature
  | .SingleKeySignature data => data.signature.toList
  | .MultiKeySignature data => data.signatures.filterMap IndexedSignature.signature
  | _ => []

/-- The account signatures of a transaction. -/
def accountSignaturesOf (value : Input.Transaction) : List AccountSignature :=
  ((signatureOf value).bind Signature.signature).toList.flatMap accountSignatures

/-- The signature values of a transaction. -/
def signatureValuesOf (value : Input.Transaction) : List AnySignature :=
  (accountSignaturesOf value).flatMap fun acctsig =>
    acctsig.signature.toList.flatMap signatureValues

/-- All unions that are read from a transaction have the type of their data. -/
structure TagsMatch (value : Input.Transaction) : Prop where
  transaction : Tagged transactionKind value.type value.txn_data
  payload : ∀ request ∈ requestOf value, ∀ payload ∈ request.payload,
    Tagged payloadKind payload.type payload.payload
  changes : ∀ info ∈ value.info, ∀ change ∈ info.changes,
    Tagged changeKind change.type change.change
  signature : ∀ signature ∈ signatureOf value,
    Tagged signatureKind signature.type signature.signature
  accounts : ∀ acctsig ∈ accountSignaturesOf value,
    Tagged accountKind acctsig.type acctsig.signature
  values : ∀ anysig ∈ signatureValuesOf value,
    Tagged variantKind anysig.type anysig.signature_variant

/-- A signature value with data of one variant under the type of another. -/
def Mistagged (anysig : AnySignature) : Prop :=
  ∃ variant type, anysig.signature_variant = some variant ∧ anysig.type = .known type ∧
    type ≠ .Unspecified ∧ type ≠ variantKind variant

/-! ## The conversions that compare -/

/-- A transaction that is converted is tagged. -/
theorem tagged_transaction {value : Input.Transaction} {tx : TransactionExtraction}
    (h : TransactionExtraction.tryFrom value = .ok tx) :
    Tagged transactionKind value.type value.txn_data := by
  obtain ⟨timestamp, -, h⟩ := Outcome.bind_eq_ok.1 h
  obtain ⟨⟨txType, txData⟩, hdata, -⟩ := Outcome.bind_eq_ok.1 h
  unfold TransactionExtraction.extractData at hdata
  split at hdata
  case h_2 data htype hsome => exact ⟨_, hsome, eq_known_of_getD htype nofun⟩
  case h_3 data htype hsome => exact ⟨_, hsome, eq_known_of_getD htype nofun⟩
  case h_4 data htype hsome => exact ⟨_, hsome, eq_known_of_getD htype nofun⟩
  case h_5 htype hsome => exact ⟨_, hsome, eq_known_of_getD htype nofun⟩
  case h_6 data htype hsome => exact ⟨_, hsome, eq_known_of_getD htype nofun⟩
  case h_7 htype hsome => exact ⟨_, hsome, eq_known_of_getD htype nofun⟩
  all_goals exact nomatch hdata

/-- A payload that is converted is tagged. -/
theorem tagged_payload {value : TransactionPayload} {extract : TxPayloadExtract}
    (h : TxPayloadExtract.tryFrom value = .ok extract) :
    Tagged payloadKind value.type value.payload := by
  unfold TxPayloadExtract.tryFrom at h
  split at h
  case h_1 data htype hsome => exact ⟨_, hsome, eq_known_of_getD htype nofun⟩
  case h_2 data htype hsome => exact ⟨_, hsome, eq_known_of_getD htype nofun⟩
  case h_3 data htype hsome => exact ⟨_, hsome, eq_known_of_getD htype nofun⟩
  case h_4 data htype hsome => exact ⟨_, hsome, eq_known_of_getD htype nofun⟩
  case h_5 htype hsome => exact ⟨_, hsome, eq_known_of_getD htype nofun⟩
  all_goals exact nomatch h

/-- A change that is converted is tagged. -/
theorem tagged_change {value : WriteSetChange} {record : IncompleteChangeRecord}
    (h : IncompleteChangeRecord.tryFrom value = .ok record) :
    Tagged changeKind value.type value.change := by
  cases IncompleteChangeRecord.convertsTo_of_tryFrom h with
  | DeleteModule htype hdata => exact ⟨_, hdata, eq_known_of_getD htype nofun⟩
  | WriteModule htype hdata => exact ⟨_, hdata, eq_known_of_getD htype nofun⟩
  | DeleteResource htype hdata => exact ⟨_, hdata, eq_known_of_getD htype nofun⟩
  | WriteResource htype hdata => exact ⟨_, hdata, eq_known_of_getD htype nofun⟩
  | WriteTableItem htype hdata => exact ⟨_, hdata, eq_known_of_getD htype nofun⟩
  | DeleteTableItem htype hdata => exact ⟨_, hdata, eq_known_of_getD htype nofun⟩

/-- A signature that is converted is tagged. -/
theorem tagged_signature {value : Input.Signature} {subrecords : List SignatureSubRecord}
    (h : SignatureSubRecord.fromSignature crates value = .ok subrecords) :
    Tagged signatureKind value.type value.signature := by
  unfold SignatureSubRecord.fromSignature at h
  split at h
  case h_1 data htype hsome => exact ⟨_, hsome, eq_known_of_getD htype nofun⟩
  case h_2 data htype hsome => exact ⟨_, hsome, eq_known_of_getD htype nofun⟩
  case h_3 data htype hsome => exact ⟨_, hsome, eq_known_of_getD htype nofun⟩
  case h_4 data htype hsome => exact ⟨_, hsome, eq_known_of_getD htype nofun⟩
  case h_5 data htype hsome => exact ⟨_, hsome, eq_known_of_getD htype nofun⟩
  all_goals exact nomatch h

/-- An account signature that is converted is tagged. -/
theorem tagged_account {value : AccountSignature} {subrecords : List SignatureSubRecord}
    (h : SignatureSubRecord.fromAccountsignature crates value = .ok subrecords) :
    Tagged accountKind value.type value.signature := by
  cases SignatureSubRecord.accountConvertsTo_of_eq_ok h with
  | Ed25519 htype hdata => exact ⟨_, hdata, eq_known_of_getD htype nofun⟩
  | MultiEd25519 htype hdata => exact ⟨_, hdata, eq_known_of_getD htype nofun⟩
  | MultiKey htype hdata => exact ⟨_, hdata, eq_known_of_getD htype nofun⟩
  | SingleKey htype hdata => exact ⟨_, hdata, eq_known_of_getD htype nofun⟩
  | Abstraction htype hdata => exact ⟨_, hdata, eq_known_of_getD htype nofun⟩

/-! ## The conversion that does not -/

/-- There is data, under a specified type. -/
def Specified (anysig : AnySignature) : Prop :=
  ∃ variant type, anysig.signature_variant = some variant ∧ anysig.type = .known type ∧
    type ≠ .Unspecified

/-- A specified signature value is tagged unless it is mistagged. -/
theorem Specified.tagged_iff {anysig : AnySignature} (h : Specified anysig) :
    Tagged variantKind anysig.type anysig.signature_variant ↔ ¬ Mistagged anysig := by
  obtain ⟨variant, type, hvariant, htype, hspecified⟩ := h
  constructor
  · rintro ⟨variant', hvariant', htype'⟩ ⟨variant'', type'', hvariant'', htype'', -, hne⟩
    obtain rfl := Option.some.inj (hvariant'.symm.trans hvariant'')
    obtain rfl := EnumField.known.inj (htype'.symm.trans htype'')
    exact hne rfl
  · intro hmistagged
    refine ⟨variant, hvariant, htype.trans (congrArg EnumField.known ?_)⟩
    by_contra hne
    exact hmistagged ⟨variant, type, hvariant, htype, hspecified, hne⟩

/-- A signature value whose type is converted is specified. -/
theorem specified_of_tryFrom {anysig : AnySignature} {extract : SigValueExtraction} {type : String}
    (h : SigValueExtraction.tryFrom anysig = .ok extract)
    (htype : SigValueExtraction.convertType extract.sigvaltype = .ok type) : Specified anysig := by
  unfold SigValueExtraction.tryFrom at h
  split at h
  case h_1 variant hvariant =>
    obtain rfl := Outcome.ok.inj h
    have hne : anysig.type.getD .Unspecified ≠ .Unspecified := by
      intro hunspecified
      simp only [hunspecified] at htype
      exact nomatch htype
    exact ⟨variant, _, hvariant, eq_known_of_getD rfl hne, hne⟩
  case h_2 => exact nomatch h

/-- The signature value of a single-key signature that is converted is specified. -/
theorem specified_of_singleKey {value : SingleKeySignature} {subrecord : SignatureSubRecord}
    (h : SignatureSubRecord.fromSinglekeysignature crates value = .ok subrecord) :
    ∀ anysig ∈ value.signature, Specified anysig := by
  unfold SignatureSubRecord.fromSinglekeysignature at h
  split at h
  case h_1 pubkey sig _ hsig =>
    obtain ⟨extract, hextract, h⟩ := Outcome.bind_eq_ok.1 h
    obtain ⟨publicKey, -, h⟩ := Outcome.bind_eq_ok.1 h
    obtain ⟨sigval, hsigval, -⟩ := Outcome.bind_eq_ok.1 h
    obtain ⟨type, htype, -⟩ := Outcome.bind_eq_ok.1 (Outcome.mapErr_eq_ok.1 hsigval)
    intro anysig hanysig
    obtain rfl := Option.some.inj (hsig.symm.trans hanysig)
    exact specified_of_tryFrom (Outcome.mapErr_eq_ok.1 hextract) htype
  case h_2 => exact nomatch h
  case h_3 => exact nomatch h

/-- The signature values of a multi-key signature that is converted are specified. -/
theorem specified_of_multiKey {value : MultiKeySignature} {subrecords : List SignatureSubRecord}
    (h : SignatureSubRecord.fromMultikeysignature crates value = .ok subrecords) :
    ∀ sig ∈ value.signatures, ∀ anysig ∈ sig.signature, Specified anysig := by
  obtain ⟨sigs, hsigs, -⟩ := Outcome.bind_eq_ok.1 h
  -- by induction on the loop: every signature that it has passed was converted
  refine Outcome.tryFold_induct (P := fun done _ => ∀ sig ∈ done, ∀ anysig ∈ sig.signature,
    Specified anysig) hsigs nofun fun done sig before after hdone hstep => ?_
  rw [List.forall_mem_append, List.forall_mem_singleton]
  refine ⟨hdone, fun anysig hanysig => ?_⟩
  obtain ⟨extract, hextract, hstep⟩ := Outcome.bind_eq_ok.1 hstep
  obtain ⟨sigval, hsigval, -⟩ := Outcome.bind_eq_ok.1 hstep
  obtain ⟨type, htype, -⟩ := Outcome.bind_eq_ok.1 (Outcome.mapErr_eq_ok.1 hsigval)
  replace hextract := Outcome.mapErr_eq_ok.1 hextract
  rw [SigValueExtraction.tryFromIndexed, Option.mem_def.1 hanysig] at hextract
  obtain ⟨inner, hinner, hextract⟩ := Outcome.bind_eq_ok.1 hextract
  obtain rfl := Outcome.ok.inj hextract
  exact specified_of_tryFrom hinner htype

/-- The signature values of an account signature that is converted are specified. -/
theorem specified_of_account {value : AccountSignature} {subrecords : List SignatureSubRecord}
    (h : SignatureSubRecord.fromAccountsignature crates value = .ok subrecords) :
    ∀ data ∈ value.signature, ∀ anysig ∈ signatureValues data, Specified anysig := by
  intro data hdata anysig hanysig
  cases SignatureSubRecord.accountConvertsTo_of_eq_ok h with
  | Ed25519 htype hown =>
    obtain rfl := Option.some.inj (hown.symm.trans hdata)
    exact absurd hanysig List.not_mem_nil
  | MultiEd25519 htype hown =>
    obtain rfl := Option.some.inj (hown.symm.trans hdata)
    exact absurd hanysig List.not_mem_nil
  | MultiKey htype hown hrecords =>
    obtain rfl := Option.some.inj (hown.symm.trans hdata)
    obtain ⟨sig, hsig, hanysig⟩ := List.mem_filterMap.1 hanysig
    exact specified_of_multiKey hrecords sig hsig anysig hanysig
  | SingleKey htype hown hrecord =>
    obtain rfl := Option.some.inj (hown.symm.trans hdata)
    exact specified_of_singleKey hrecord anysig (Option.mem_toList.1 hanysig)
  | Abstraction htype hown =>
    obtain rfl := Option.some.inj (hown.symm.trans hdata)
    exact absurd hanysig List.not_mem_nil

/-- The account signatures of a signature that is converted are converted. -/
theorem converted_of_parts {data : SignatureData}
    (h : ∀ part ∈ parts crates data, ∃ subrecords, part.2 = .ok subrecords) :
    ∀ acctsig ∈ accountSignatures data, ∃ subrecords,
      SignatureSubRecord.fromAccountsignature crates acctsig = .ok subrecords := by
  have hown : ∀ {place missing} {acctsig : Option AccountSignature},
      ownPart crates place missing acctsig ∈ parts crates data →
        ∀ account ∈ acctsig.toList, ∃ subrecords,
          SignatureSubRecord.fromAccountsignature crates account = .ok subrecords := by
    intro place missing acctsig hpart account haccount
    have hsome : acctsig = some account := Option.mem_toList.1 haccount
    obtain ⟨subrecords, hok⟩ := h _ hpart
    exact ⟨subrecords, by simpa [hsome, ownPart, Outcome.ofOption] using hok⟩
  have hsecondary : ∀ {place : Address → Place} {signers addresses},
      (∀ part ∈ secondaryParts crates place signers addresses, part ∈ parts crates data) →
        ∀ account ∈ (signers.zip addresses).map Prod.fst, ∃ subrecords,
          SignatureSubRecord.fromAccountsignature crates account = .ok subrecords := by
    intro place signers addresses hparts account haccount
    obtain ⟨pair, hpair, rfl⟩ := List.mem_map.1 haccount
    exact h _ (hparts _ (List.mem_map_of_mem hpair))
  cases data with
  | Ed25519 data => exact fun _ hmem => absurd hmem List.not_mem_nil
  | MultiEd25519 data => exact fun _ hmem => absurd hmem List.not_mem_nil
  | MultiAgent data =>
    rw [accountSignatures, List.forall_mem_append]
    exact ⟨hsecondary fun part hpart => List.mem_append_left _ hpart,
      hown (List.mem_append_right _ (List.mem_singleton_self _))⟩
  | FeePayer data =>
    rw [accountSignatures, List.forall_mem_append, List.forall_mem_append]
    exact ⟨⟨hown List.mem_cons_self, hown (List.mem_cons_of_mem _ List.mem_cons_self)⟩,
      hsecondary fun part hpart => List.mem_cons_of_mem _ (List.mem_cons_of_mem _ hpart)⟩
  | SingleSender data => exact hown (List.mem_singleton_self _)

/-! ## The result -/

section Reached

variable {crates : Crates} {value : Input.Transaction} {tx : TransactionExtraction}

/-- The request that is read is that of the message. -/
theorem requestOf_eq {request : Option UserTransactionRequest}
    (hdata : value.txn_data = some tx.tx_data.txndata)
    (h : tx.tx_data.userRequest = .ok request) : requestOf value = request := by
  unfold TxDataExtract.userRequest at h
  rw [requestOf, hdata]
  cases hcase : tx.tx_data.txndata with
  | User userdata =>
    rw [hcase] at h
    cases hrequest : userdata.request with
    | some request =>
      simp only [hrequest] at h ⊢
      exact Outcome.ok.inj h
    | none =>
      simp only [hrequest] at h
      exact nomatch h
  | _ =>
    rw [hcase] at h
    exact Outcome.ok.inj h

/-- The changes of an info that is converted are tagged. -/
theorem tagged_changes {info : TransactionInfo} {extraction : TransactionInfoExtraction}
    (h : TransactionInfoExtraction.tryFrom info = .ok extraction) :
    extraction.success = info.success ∧
      ∀ change ∈ info.changes, Tagged changeKind change.type change.change := by
  obtain ⟨changes, hchanges, h⟩ := Outcome.bind_eq_ok.1 h
  obtain rfl := Outcome.ok.inj h
  refine ⟨rfl, fun change hchange => ?_⟩
  have hmapped := Outcome.mapErr_eq_ok.1 hchanges
  obtain ⟨record, hrecord⟩ := (Outcome.exists_tryMap_iff.1 ⟨changes, hmapped⟩) change hchange
  exact tagged_change hrecord

/-- The strict builder converts the payload of a user transaction. -/
theorem tagged_payloadColumns {columns : Option Rows.Payload × Option String}
    (hdata : value.txn_data = some tx.tx_data.txndata)
    (h : payloadColumns crates tx = .ok columns) :
    ∀ request ∈ requestOf value, ∀ payload ∈ request.payload,
      Tagged payloadKind payload.type payload.payload := by
  intro request hrequest payload hpayload
  obtain ⟨extract, hextract, -⟩ := Outcome.bind_eq_ok.1 h
  replace hextract := Outcome.mapErr_eq_ok.1 hextract
  have huser : ∃ userdata, tx.tx_data.txndata = .User userdata := by
    rw [requestOf, hdata] at hrequest
    cases hcase : tx.tx_data.txndata <;> simp_all
  obtain ⟨userdata, huser⟩ := huser
  rw [TxDataExtract.payload, huser] at hextract
  obtain ⟨request', hrequest', hextract⟩ := Outcome.bind_eq_ok.1 hextract
  have hsome : request' = some request := (requestOf_eq hdata hrequest').symm.trans hrequest
  rw [hsome] at hextract
  simp only [Option.mem_def.1 hpayload] at hextract
  obtain ⟨converted, hconverted, -⟩ := Outcome.bind_eq_ok.1 hextract
  exact tagged_payload (Outcome.mapErr_eq_ok.1 hconverted)

/-- The signature of a user transaction whose signatures are extracted is converted. -/
theorem converted_signature {sigs : Option (List Rows.Signature)}
    (hdata : value.txn_data = some tx.tx_data.txndata)
    (h : getSignatures crates tx = .ok sigs) :
    ∀ signature ∈ signatureOf value, ∃ subrecords,
      SignatureSubRecord.fromSignature crates signature = .ok subrecords := by
  intro signature hsignature
  obtain ⟨read, hread, h⟩ := Outcome.bind_eq_ok.1 h
  obtain ⟨request, hrequest, hread⟩ := Outcome.bind_eq_ok.1 (Outcome.mapErr_eq_ok.1 hread)
  rw [signatureOf, requestOf_eq hdata hrequest] at hsignature
  cases request with
  | none => exact absurd hsignature nofun
  | some request =>
    have hsome : request.signature = some signature := hsignature
    simp only [hsome] at hread
    obtain rfl := Outcome.ok.inj hread
    obtain ⟨subrecords, hsubrecords, -⟩ := Outcome.bind_eq_ok.1 h
    exact ⟨subrecords, Outcome.mapErr_eq_ok.1 hsubrecords⟩

/-- The account signatures of such a transaction are converted too. -/
theorem converted_accounts
    (h : ∀ signature ∈ signatureOf value, ∃ subrecords,
      SignatureSubRecord.fromSignature crates signature = .ok subrecords) :
    ∀ acctsig ∈ accountSignaturesOf value, ∃ subrecords,
      SignatureSubRecord.fromAccountsignature crates acctsig = .ok subrecords := by
  intro acctsig hacctsig
  obtain ⟨data, hdata, hacctsig⟩ := List.mem_flatMap.1 hacctsig
  obtain ⟨signature, hsignature, hdata⟩ := Option.bind_eq_some_iff.1 (Option.mem_toList.1 hdata)
  obtain ⟨subrecords, hsubrecords⟩ := h signature hsignature
  obtain ⟨data', hdata', -, groups, hgroups, -⟩ :=
    SignatureSubRecord.fromSignature_unfolds hsubrecords
  obtain rfl := Option.some.inj (hdata.symm.trans hdata')
  refine converted_of_parts (fun part hpart => ?_) acctsig hacctsig
  obtain ⟨group, -, inner, hinner, -⟩ := Aligned.exists_of_mem_right hgroups.flip hpart
  exact ⟨inner, hinner⟩

end Reached

/-- All unions of a successful transaction that is extracted match, exactly when no signature value
in it is mistagged. -/
theorem tagsMatch_iff {crates : Crates} {value : Input.Transaction} {records : Rows.Records}
    (hsuccess : ∀ info ∈ value.info, info.success = true)
    (h : extractRecords crates value = .ok records) :
    TagsMatch value ↔ ∀ anysig ∈ signatureValuesOf value, ¬ Mistagged anysig := by
  obtain ⟨tx, block, changes, events, sigs, row, hstages, -⟩ := extractRecords_eq_ok.1 h
  have hdata := (TransactionExtraction.tryFrom_spec hstages.extraction).2.txn_data
  obtain ⟨info, hinfo, hextraction⟩ :=
    TransactionExtraction.exists_info_of_tryFrom hstages.extraction
  obtain ⟨hkept, htagged⟩ := tagged_changes hextraction
  have hstrict : tx.tx_info.success = true := hkept.trans (hsuccess info hinfo)
  have hsignature := converted_signature hdata hstages.signatures
  have haccounts := converted_accounts hsignature
  -- of a signature value the conversion says only that it is specified
  have hspecified : ∀ anysig ∈ signatureValuesOf value, Specified anysig := by
    intro anysig hanysig
    obtain ⟨acctsig, hacctsig, hanysig⟩ := List.mem_flatMap.1 hanysig
    obtain ⟨data, hsome, hanysig⟩ := List.mem_flatMap.1 hanysig
    obtain ⟨subrecords, hsubrecords⟩ := haccounts acctsig hacctsig
    exact specified_of_account hsubrecords data (Option.mem_toList.1 hsome) anysig hanysig
  constructor
  · intro hmatch anysig hanysig
    exact (hspecified anysig hanysig).tagged_iff.1 (hmatch.values anysig hanysig)
  · intro hvalues
    obtain ⟨timestamp, txType, number, aggregate, columns, -, hcolumns, -⟩ :=
      getTransactions_eq_ok hstages.row
    have hpayload : payloadColumns crates tx = .ok (columns.payload, columns.payload_type) := by
      rcases hcolumns with ⟨-, hcolumns⟩ | ⟨hfailed, -⟩
      · exact hcolumns.payload
      · exact absurd (hstrict.symm.trans hfailed) nofun
    refine ⟨tagged_transaction hstages.extraction, tagged_payloadColumns hdata hpayload, ?_, ?_,
      ?_, ?_⟩
    · intro info' hinfo'
      obtain rfl := Option.some.inj (hinfo.symm.trans hinfo')
      exact htagged
    · intro signature hsome
      obtain ⟨subrecords, hsubrecords⟩ := hsignature signature hsome
      exact tagged_signature hsubrecords
    · intro acctsig hacctsig
      obtain ⟨subrecords, hsubrecords⟩ := haccounts acctsig hacctsig
      exact tagged_account hsubrecords
    · intro anysig hanysig
      exact (hspecified anysig hanysig).tagged_iff.2 (hvalues anysig hanysig)

/-- A user transaction that is signed with one key: the signature value is a keyless one under the
type of Ed25519. -/
def sampleMistagged : Input.Transaction :=
  { sampleUser with
    txn_data := some (.User {
      request := some {
        sender := "0x1"
        sequence_number := 0
        max_gas_amount := 1
        gas_unit_price := 1
        expiration_timestamp_secs := some ⟨0, 0⟩
        payload := some ⟨.known .MultisigPayload, some (.MultisigPayload ⟨"0x1"⟩)⟩
        signature := some ⟨.known .SingleSender, some (.SingleSender ⟨some ⟨.known .SingleKey,
          some (.SingleKeySignature ⟨some ⟨.known .Keyless, []⟩,
            some ⟨.known .Ed25519, some (.Keyless [])⟩⟩)⟩⟩)⟩ }
      events := [] }) }

/-- The records of the transaction with the wrong tag can be extracted. -/
theorem exists_records_sampleMistagged :
    ∃ records, extractRecords sampleCrates sampleMistagged = .ok records :=
  Outcome.isSome_toOption.1 (by decide)

/-- The unions of a user transaction that is signed with one key. -/
theorem tagsMatch_iff_sampleMistagged :
    ∃ records, extractRecords sampleCrates sampleMistagged = .ok records ∧
      (TagsMatch sampleMistagged ↔
        ∀ anysig ∈ signatureValuesOf sampleMistagged, ¬ Mistagged anysig) := by
  obtain ⟨records, h⟩ := exists_records_sampleMistagged
  exact ⟨records, h, tagsMatch_iff (by rintro _ ⟨⟩; rfl) h⟩

/-- The keyless signature is published as one of Ed25519. -/
theorem tags_not_match :
    ¬ ∀ (crates : Crates) (value : Input.Transaction) (records : Rows.Records),
      (∀ info ∈ value.info, info.success = true) → extractRecords crates value = .ok records →
        TagsMatch value := by
  intro hall
  obtain ⟨records, h⟩ := exists_records_sampleMistagged
  have hmatch := hall _ _ records (by rintro _ ⟨⟩; rfl) h
  have hmem : (⟨.known .Ed25519, some (.Keyless [])⟩ : AnySignature) ∈
      signatureValuesOf sampleMistagged := List.mem_singleton_self _
  obtain ⟨variant, hvariant, htype⟩ := hmatch.values _ hmem
  obtain rfl := Option.some.inj hvariant
  exact nomatch htype

end AptosEtl.Tables
