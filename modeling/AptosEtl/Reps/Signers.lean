import AptosEtl.Lib.Aligned
import AptosEtl.Reps.Signatures

/-!
# Who signs

The subrecords of a signature, group by group. A signature message is a list of parts: for each
account signature in it, the `Place` that the message gives it, with its signer and its roles, and
what the account signature unfolds to. Whatever the kind of the message, the subrecords are the
groups of its parts, one after the other (`fromSignature_unfolds`), and a group has the public keys
and signatures of its account signature and the columns of its place.

The parts of a composite message pair each secondary signer with the address at the same place in
a second list, and the longer of the two lists is cut off. `keepsSigners_iff` says on which
messages no signer gets lost that way.
-/

namespace AptosEtl.Reps

open Rust Input

variable {crates : Crates}

/-! ## Places -/

/-- What a message says of the subrecords of one account signature. Without a signer of its own
the account signature is the sender's. -/
structure Place where
  buildtype : SignatureBuildType
  signer : Option Address
  is_secondary : Option Bool
  is_feepayer : Option Bool
  is_sender : Option Bool

/-- A subrecord of an account signature before its message completes it: the signer is open, and
no role is set. -/
structure SignatureSubRecord.Incomplete (subrecord : SignatureSubRecord) : Prop where
  signer : subrecord.signer = .Deferred
  is_secondary : subrecord.is_secondary.extract = some none
  is_feepayer : subrecord.is_feepayer.extract = some none
  is_sender : subrecord.is_sender.extract = some none

/-- A subrecord of a message is one of its account signature, completed by the place. -/
structure Place.Completes (place : Place) (inner outer : SignatureSubRecord) : Prop where
  buildtype : outer.buildtype.extract = some place.buildtype
  signer : outer.signer.extract = place.signer
  is_secondary : outer.is_secondary.extract = some place.is_secondary
  is_feepayer : outer.is_feepayer.extract = some place.is_feepayer
  is_sender : outer.is_sender.extract = some place.is_sender
  public_key : outer.public_key = inner.public_key
  signature : outer.signature = inner.signature
  threshold : outer.threshold = inner.threshold

/-- A group of subrecords is all that an account signature unfolds to, completed by the place. -/
def Place.Group (place : Place) (built : Outcome SignatureError (List SignatureSubRecord))
    (group : List SignatureSubRecord) : Prop :=
  ∃ inner, built = .ok inner ∧ List.Forall₂ place.Completes inner group

/-- A part of a message: a place, and what is built there. -/
abbrev Part := Place × Outcome SignatureError (List SignatureSubRecord)

/-- The place of a signature that is not composite, and of a single sender. -/
def solePlace (buildtype : SignatureBuildType) : Place := ⟨buildtype, none, none, none, none⟩

/-- The place of the sender of a multi-agent signature. -/
def multiAgentSender : Place := ⟨.MultiAgent, none, some false, none, some true⟩

/-- The place of a secondary signer of a multi-agent signature. -/
def multiAgentSecondary (address : Address) : Place :=
  ⟨.MultiAgent, some address, some true, none, some false⟩

/-- The place of the sender of a fee-payer signature. -/
def feePayerSender : Place := ⟨.FeePayer, none, some false, some false, some true⟩

/-- The place of the fee payer. -/
def feePayerSigner (address : Address) : Place :=
  ⟨.FeePayer, some address, some false, some true, some false⟩

/-- The place of a secondary signer of a fee-payer signature. -/
def feePayerSecondary (address : Address) : Place :=
  ⟨.FeePayer, some address, some true, some false, some false⟩

/-! ## Parts -/

/-- The part of an account signature that the message may lack. -/
def ownPart (crates : Crates) (place : Place) (missing : SignatureError)
    (acctsig : Option AccountSignature) : Part :=
  (place, (Outcome.ofOption acctsig missing).bind
    (SignatureSubRecord.fromAccountsignature crates))

/-- The parts of the secondary signers, each at the place of its address. -/
def secondaryParts (crates : Crates) (place : Address → Place) (signers : List AccountSignature)
    (addresses : List String) : List Part :=
  (signers.zip addresses).map fun (acctsig, addrstr) =>
    (place (.string addrstr), SignatureSubRecord.fromAccountsignature crates acctsig)

/-- The parts of a signature, in the order in which they are published. -/
def parts (crates : Crates) : SignatureData → List Part
  | .Ed25519 data => [(solePlace .Ed25519, .ok [SignatureSubRecord.fromEd25519 crates data])]
  | .MultiEd25519 data =>
    [(solePlace .MultiEd25519, SignatureSubRecord.fromMultied25519 crates data)]
  | .MultiAgent data =>
    secondaryParts crates multiAgentSecondary data.secondary_signers
        data.secondary_signer_addresses ++
      [ownPart crates multiAgentSender .MultiAgentMissingSender data.sender]
  | .FeePayer data =>
    ownPart crates feePayerSender .FeePayerMissingSender data.sender ::
      ownPart crates (feePayerSigner (.string data.fee_payer_address)) .FeePayerMissingFeePayer
          data.fee_payer_signer ::
        secondaryParts crates feePayerSecondary data.secondary_signers
          data.secondary_signer_addresses
  | .SingleSender data =>
    [ownPart crates (solePlace .SingleSender) .MissingSingleSender data.sender]

/-- The build type of the subrecords of a signature. -/
def buildTypeOf : SignatureData → SignatureBuildType
  | .Ed25519 _ => .Ed25519
  | .MultiEd25519 _ => .MultiEd25519
  | .MultiAgent _ => .MultiAgent
  | .FeePayer _ => .FeePayer
  | .SingleSender _ => .SingleSender

/-- The build type that a signature message declares. -/
def declaredBuildType : SignatureType → Option SignatureBuildType
  | .Ed25519 => some .Ed25519
  | .MultiEd25519 => some .MultiEd25519
  | .MultiAgent => some .MultiAgent
  | .FeePayer => some .FeePayer
  | .SingleSender => some .SingleSender
  | .Unspecified => none

/-- The places of a signature have its build type. -/
theorem buildtype_of_mem_parts {data : SignatureData} {part : Part} (h : part ∈ parts crates data) :
    part.1.buildtype = buildTypeOf data := by
  have hsecondary : ∀ (place : Address → Place) {signers addresses buildtype},
      (∀ address, (place address).buildtype = buildtype) →
        ∀ part ∈ secondaryParts crates place signers addresses, part.1.buildtype = buildtype := by
    intro place signers addresses buildtype hplace part hpart
    obtain ⟨pair, -, rfl⟩ := List.mem_map.1 hpart
    exact hplace _
  cases data with
  | Ed25519 data => obtain rfl := List.mem_singleton.1 h; rfl
  | MultiEd25519 data => obtain rfl := List.mem_singleton.1 h; rfl
  | MultiAgent data =>
    rcases List.mem_append.1 h with h | h
    · exact hsecondary multiAgentSecondary (fun _ => rfl) part h
    · obtain rfl := List.mem_singleton.1 h; rfl
  | FeePayer data =>
    rcases List.mem_cons.1 h with rfl | h
    · rfl
    rcases List.mem_cons.1 h with rfl | h
    · rfl
    · exact hsecondary feePayerSecondary (fun _ => rfl) part h
  | SingleSender data => obtain rfl := List.mem_singleton.1 h; rfl

/-- The subrecords of a list of parts: the group of each part, one after the other. -/
def Unfolds (parts : List Part) (subrecords : List SignatureSubRecord) : Prop :=
  ∃ groups, List.Forall₂ (fun part group => part.1.Group part.2 group) parts groups ∧
    subrecords = groups.flatten

/-- The subrecords of appended parts are those of the first and then those of the second. -/
theorem Unfolds.append {parts parts' : List Part} {subrecords subrecords' : List SignatureSubRecord}
    (h : Unfolds parts subrecords) (h' : Unfolds parts' subrecords') :
    Unfolds (parts ++ parts') (subrecords ++ subrecords') := by
  obtain ⟨groups, hgroups, rfl⟩ := h
  obtain ⟨groups', hgroups', rfl⟩ := h'
  exact ⟨groups ++ groups', List.rel_append hgroups hgroups', by rw [List.flatten_append]⟩

/-- The subrecords of one part are its group. -/
theorem unfolds_singleton {part : Part} {group : List SignatureSubRecord}
    (h : part.1.Group part.2 group) : Unfolds [part] group :=
  ⟨[group], .cons h .nil, by simp⟩

namespace SignatureSubRecord

/-! ## Account signatures are incomplete -/

/-- The subrecords of a multi-Ed25519 signature are incomplete, and of its build type. -/
theorem fromMultied25519_incomplete {value : MultiEd25519Signature}
    {subrecords : List SignatureSubRecord} (h : fromMultied25519 crates value = .ok subrecords) :
    ∀ subrecord ∈ subrecords,
      subrecord.Incomplete ∧ subrecord.buildtype = .DeferredFallback .MultiEd25519 := by
  unfold fromMultied25519 at h
  split_ifs at h
  obtain ⟨sigs, -, h⟩ := Outcome.bind_eq_ok.1 h
  obtain rfl := Outcome.ok.inj h
  intro subrecord hmem
  obtain ⟨i, hi, rfl⟩ := List.mem_mapIdx.1 hmem
  exact ⟨⟨rfl, rfl, rfl, rfl⟩, rfl⟩

/-- The subrecord of a single-key signature is incomplete. -/
theorem fromSinglekeysignature_incomplete {value : SingleKeySignature}
    {subrecord : SignatureSubRecord} (h : fromSinglekeysignature crates value = .ok subrecord) :
    subrecord.Incomplete := by
  unfold fromSinglekeysignature at h
  split at h
  · obtain ⟨sig, -, h⟩ := Outcome.bind_eq_ok.1 h
    obtain ⟨publicKey, -, h⟩ := Outcome.bind_eq_ok.1 h
    obtain ⟨signature, -, h⟩ := Outcome.bind_eq_ok.1 h
    obtain rfl := Outcome.ok.inj h
    exact ⟨rfl, rfl, rfl, rfl⟩
  · exact nomatch h
  · exact nomatch h

/-- The subrecords of a multi-key signature are incomplete. -/
theorem fromMultikeysignature_incomplete {value : MultiKeySignature}
    {subrecords : List SignatureSubRecord}
    (h : fromMultikeysignature crates value = .ok subrecords) :
    ∀ subrecord ∈ subrecords, subrecord.Incomplete := by
  obtain ⟨sigs, -, h⟩ := Outcome.bind_eq_ok.1 h
  intro subrecord hmem
  obtain ⟨item, -, hitem⟩ := Outcome.exists_of_mem_tryMap h hmem
  obtain ⟨publicKey, -, hitem⟩ := Outcome.bind_eq_ok.1 hitem
  obtain rfl := Outcome.ok.inj hitem
  exact ⟨rfl, rfl, rfl, rfl⟩

/-- The subrecords of an account signature are incomplete, whatever its kind. -/
theorem fromAccountsignature_incomplete {value : AccountSignature}
    {subrecords : List SignatureSubRecord}
    (h : fromAccountsignature crates value = .ok subrecords) :
    ∀ subrecord ∈ subrecords, subrecord.Incomplete := by
  cases accountConvertsTo_of_eq_ok h with
  | @Ed25519 data =>
    simpa using (⟨rfl, rfl, rfl, rfl⟩ : (fromEd25519 crates data).Incomplete)
  | MultiEd25519 htype hdata hrecords =>
    exact fun subrecord hmem => (fromMultied25519_incomplete hrecords subrecord hmem).1
  | MultiKey htype hdata hrecords => exact fromMultikeysignature_incomplete hrecords
  | SingleKey htype hdata hrecord => simpa using fromSinglekeysignature_incomplete hrecord
  | @Abstraction data =>
    -- the roles are fallbacks here and set elsewhere, which `extract` does not tell apart
    simpa using (⟨rfl, rfl, rfl, rfl⟩ : (fromAbstractionsignature crates data).Incomplete)

/-! ## The groups of a message -/

/-- What an account signature unfolds to, in a context that completes each subrecord, is a group. -/
theorem group_of_map {place : Place} {acctsig : AccountSignature}
    {context : SignatureSubRecord → SignatureSubRecord} {inner : List SignatureSubRecord}
    (h : fromAccountsignature crates acctsig = .ok inner)
    (hcontext : ∀ subrecord, subrecord.Incomplete →
      place.Completes subrecord (context subrecord)) :
    place.Group (fromAccountsignature crates acctsig) (inner.map context) := by
  refine ⟨inner, h, List.forall₂_map_right_iff.2 (List.forall₂_same.2 fun subrecord hmem => ?_)⟩
  exact hcontext subrecord (fromAccountsignature_incomplete h subrecord hmem)

/-- The subrecords of the secondary signers are the groups of their parts. -/
theorem fromSecondarySigners_unfolds (place : Address → Place)
    {context : Address → SignatureSubRecord → SignatureSubRecord}
    {signers : List AccountSignature} {addresses : List String}
    {subrecords : List SignatureSubRecord}
    (h : fromSecondarySigners crates context signers addresses = .ok subrecords)
    (hcontext : ∀ address subrecord, subrecord.Incomplete →
      (place address).Completes subrecord (context address subrecord)) :
    Unfolds (secondaryParts crates place signers addresses) subrecords := by
  obtain ⟨groups, hgroups, h⟩ := Outcome.bind_eq_ok.1 h
  obtain rfl := Outcome.ok.inj h
  refine ⟨groups, List.forall₂_map_left_iff.2 ?_, rfl⟩
  refine (Outcome.tryMap_eq_ok.1 hgroups).imp ?_
  rintro ⟨acctsig, addrstr⟩ group hgroup
  obtain ⟨inner, hinner, hgroup⟩ := Outcome.bind_eq_ok.1 hgroup
  obtain rfl := Outcome.ok.inj hgroup
  exact group_of_map hinner (hcontext _)

/-- The part of an account signature that is there is what it unfolds to. -/
theorem ownPart_some (place : Place) (missing : SignatureError) (acctsig : AccountSignature) :
    ownPart crates place missing (some acctsig) =
      (place, fromAccountsignature crates acctsig) := rfl

/-- The subrecords of a multi-agent signature are the groups of its parts. -/
theorem fromMultiagentsignature_unfolds {value : MultiAgentSignature}
    {subrecords : List SignatureSubRecord}
    (h : fromMultiagentsignature crates value = .ok subrecords) :
    Unfolds (parts crates (.MultiAgent value)) subrecords := by
  obtain ⟨secondary, hsecondary, h⟩ := Outcome.bind_eq_ok.1 h
  have hgroups := fromSecondarySigners_unfolds multiAgentSecondary hsecondary
    fun address subrecord hinc => ⟨rfl, rfl, rfl, hinc.is_feepayer, rfl, rfl, rfl, rfl⟩
  split at h
  · exact nomatch h
  case h_2 sender hsender =>
    obtain ⟨inner, hinner, h⟩ := Outcome.bind_eq_ok.1 h
    obtain rfl := Outcome.ok.inj h
    refine hgroups.append (unfolds_singleton ?_)
    rw [hsender, ownPart_some]
    refine group_of_map hinner fun subrecord hinc => ?_
    exact ⟨rfl, by simp [hinc.signer, Deferred.extract, multiAgentSender], rfl,
      hinc.is_feepayer, rfl, rfl, rfl, rfl⟩

/-- The sender's subrecords of a fee-payer signature are the group of its part. -/
theorem fromFeepayerSender_unfolds {value : FeePayerSignature}
    {subrecords : List SignatureSubRecord} (h : fromFeepayerSender crates value = .ok subrecords) :
    Unfolds [ownPart crates feePayerSender .FeePayerMissingSender value.sender] subrecords := by
  unfold fromFeepayerSender at h
  split at h
  · exact nomatch h
  case h_2 sender hsender =>
    obtain ⟨inner, hinner, h⟩ := Outcome.bind_eq_ok.1 h
    obtain rfl := Outcome.ok.inj h
    refine unfolds_singleton ?_
    rw [hsender, ownPart_some]
    refine group_of_map hinner fun subrecord hinc => ?_
    exact ⟨rfl, by simp [hinc.signer, Deferred.extract, feePayerSender], rfl, rfl, rfl, rfl, rfl,
      rfl⟩

/-- The fee payer's subrecords are the group of its part. -/
theorem fromFeepayerSigner_unfolds {value : FeePayerSignature}
    {subrecords : List SignatureSubRecord} (h : fromFeepayerSigner crates value = .ok subrecords) :
    Unfolds [ownPart crates (feePayerSigner (.string value.fee_payer_address))
      .FeePayerMissingFeePayer value.fee_payer_signer] subrecords := by
  unfold fromFeepayerSigner at h
  split at h
  · exact nomatch h
  case h_2 feepayer hfeepayer =>
    obtain ⟨inner, hinner, h⟩ := Outcome.bind_eq_ok.1 h
    obtain rfl := Outcome.ok.inj h
    refine unfolds_singleton ?_
    rw [hfeepayer, ownPart_some]
    exact group_of_map hinner fun subrecord _ => ⟨rfl, rfl, rfl, rfl, rfl, rfl, rfl, rfl⟩

/-- The subrecords of a fee-payer signature are the groups of its parts. -/
theorem fromFeepayersignature_unfolds {value : FeePayerSignature}
    {subrecords : List SignatureSubRecord}
    (h : fromFeepayersignature crates value = .ok subrecords) :
    Unfolds (parts crates (.FeePayer value)) subrecords := by
  obtain ⟨sender, hsender, h⟩ := Outcome.bind_eq_ok.1 h
  obtain ⟨feepayer, hfeepayer, h⟩ := Outcome.bind_eq_ok.1 h
  obtain ⟨secondary, hsecondary, h⟩ := Outcome.bind_eq_ok.1 h
  obtain rfl := Outcome.ok.inj h
  have hown := (fromFeepayerSender_unfolds hsender).append (fromFeepayerSigner_unfolds hfeepayer)
  exact hown.append (fromSecondarySigners_unfolds feePayerSecondary hsecondary
    fun address subrecord _ => ⟨rfl, rfl, rfl, rfl, rfl, rfl, rfl, rfl⟩)

/-- The subrecords of a single sender are the group of its part. -/
theorem fromSinglesender_unfolds {value : SingleSender} {subrecords : List SignatureSubRecord}
    (h : fromSinglesender crates value = .ok subrecords) :
    Unfolds (parts crates (.SingleSender value)) subrecords := by
  unfold fromSinglesender at h
  split at h
  case h_1 sender hsender =>
    obtain ⟨inner, hinner, h⟩ := Outcome.bind_eq_ok.1 h
    obtain rfl := Outcome.ok.inj h
    refine unfolds_singleton ?_
    rw [hsender, ownPart_some]
    refine group_of_map hinner fun subrecord hinc => ?_
    exact ⟨rfl, by simp [hinc.signer, Deferred.extract, solePlace], hinc.is_secondary,
      hinc.is_feepayer, hinc.is_sender, rfl, rfl, rfl⟩
  · exact nomatch h

/-- A subrecord that only its own place completes. -/
theorem Incomplete.completes_solePlace {subrecord : SignatureSubRecord}
    {buildtype : SignatureBuildType} (h : subrecord.Incomplete)
    (hbuild : subrecord.buildtype = .DeferredFallback buildtype) :
    (solePlace buildtype).Completes subrecord subrecord :=
  ⟨by rw [hbuild]; rfl, by rw [h.signer]; rfl, h.is_secondary, h.is_feepayer, h.is_sender, rfl,
    rfl, rfl⟩

/-- Whatever the kind of the signature, its subrecords are the groups of its parts, and its data is
of the build type that it declares. -/
theorem fromSignature_unfolds {value : Signature} {subrecords : List SignatureSubRecord}
    (h : fromSignature crates value = .ok subrecords) :
    ∃ data, value.signature = some data ∧
      declaredBuildType (value.type.getD .Unspecified) = some (buildTypeOf data) ∧
        Unfolds (parts crates data) subrecords := by
  unfold fromSignature at h
  split at h
  case h_1 data htype hdata =>
    obtain rfl := Outcome.ok.inj h
    refine ⟨_, hdata, by rw [htype]; rfl, unfolds_singleton ⟨_, rfl, .cons ?_ .nil⟩⟩
    exact Incomplete.completes_solePlace ⟨rfl, rfl, rfl, rfl⟩ rfl
  case h_2 data htype hdata =>
    have hinc := fromMultied25519_incomplete h
    refine ⟨_, hdata, by rw [htype]; rfl, unfolds_singleton ⟨_, h, ?_⟩⟩
    refine List.forall₂_same.2 fun subrecord hmem => ?_
    exact (hinc subrecord hmem).1.completes_solePlace (hinc subrecord hmem).2
  case h_3 data htype hdata =>
    exact ⟨_, hdata, by rw [htype]; rfl, fromMultiagentsignature_unfolds h⟩
  case h_4 data htype hdata =>
    exact ⟨_, hdata, by rw [htype]; rfl, fromFeepayersignature_unfolds h⟩
  case h_5 data htype hdata => exact ⟨_, hdata, by rw [htype]; rfl, fromSinglesender_unfolds h⟩
  all_goals exact nomatch h

end SignatureSubRecord

/-! ## Signers that are lost -/

/-- A composite message: the parts of its own account signatures, the place of a secondary signer,
and the two lists of the secondary signers. -/
structure Composite where
  own : List Part
  secondary : Address → Place
  signers : List AccountSignature
  addresses : List String

namespace Composite

/-- A multi-agent signature as a composite message. -/
def ofMultiAgent (crates : Crates) (value : MultiAgentSignature) : Composite where
  own := [ownPart crates multiAgentSender .MultiAgentMissingSender value.sender]
  secondary := multiAgentSecondary
  signers := value.secondary_signers
  addresses := value.secondary_signer_addresses

/-- A fee-payer signature as a composite message. -/
def ofFeePayer (crates : Crates) (value : FeePayerSignature) : Composite where
  own := [ownPart crates feePayerSender .FeePayerMissingSender value.sender,
    ownPart crates (feePayerSigner (.string value.fee_payer_address)) .FeePayerMissingFeePayer
      value.fee_payer_signer]
  secondary := feePayerSecondary
  signers := value.secondary_signers
  addresses := value.secondary_signer_addresses

/-- The parts of a composite message, as far as both lists of it go. -/
def parts (crates : Crates) (message : Composite) : List Part :=
  message.own ++ secondaryParts crates message.secondary message.signers message.addresses

/-- No signer is lost: the lists of the secondary signers pair up, and the subrecords are the
groups of all account signatures, each once and at its place, in some order. -/
structure KeepsSigners (crates : Crates) (message : Composite)
    (subrecords : List SignatureSubRecord) : Prop where
  paired : message.signers.length = message.addresses.length
  unfolds : ∃ arranged : List Part,
    arranged.Perm (message.parts crates) ∧ Unfolds arranged subrecords

/-- A builder loses no signer of a message: what it builds keeps them all, and lists that do not
pair up are refused. -/
def Lossless (crates : Crates) (message : Composite)
    (built : Outcome SignatureError (List SignatureSubRecord)) : Prop :=
  (∀ subrecords, built = .ok subrecords → message.KeepsSigners crates subrecords) ∧
    (message.signers.length ≠ message.addresses.length → ∃ error, built = .err error)

/-- An account signature of the message is missing, or is itself refused. -/
def Rejected (crates : Crates) (message : Composite) : Prop :=
  ∃ part ∈ message.parts crates, ∃ error, part.2 = .err error

/-- A builder that unfolds the parts of its message, and fails only where one of them does, is
lossless exactly on lists that pair up and on messages that are rejected for another reason. -/
theorem lossless_of_unfolds_iff {message : Composite}
    {built : Outcome SignatureError (List SignatureSubRecord)}
    (hunfolds : ∀ subrecords, built = .ok subrecords →
      ∃ arranged : List Part, arranged.Perm (message.parts crates) ∧ Unfolds arranged subrecords)
    (hbuilt : (∃ subrecords, built = .ok subrecords) ↔ ¬ message.Rejected crates)
    (hsettles : built.Settles) :
    message.Lossless crates built ↔
      (message.signers.length = message.addresses.length ∨ message.Rejected crates) := by
  constructor
  · rintro ⟨-, hmismatch⟩
    by_contra hcond
    obtain ⟨hlength, hrejected⟩ := not_or.1 hcond
    -- the message is built although its lists do not pair up
    obtain ⟨error, herror⟩ := hmismatch hlength
    obtain ⟨subrecords, hok⟩ := hbuilt.2 hrejected
    exact nomatch hok.symm.trans herror
  · rintro (hlength | hrejected)
    · exact ⟨fun subrecords h => ⟨hlength, hunfolds subrecords h⟩, fun hne => absurd hlength hne⟩
    · have hnone : ¬ ∃ subrecords, built = .ok subrecords := fun h => hbuilt.1 h hrejected
      exact ⟨fun subrecords h => absurd ⟨subrecords, h⟩ hnone, fun _ => hsettles.exists_err hnone⟩

end Composite

namespace SignatureSubRecord

/-- The part of an account signature that the message may lack settles. -/
theorem ownPart_settles (place : Place) (missing : SignatureError)
    (acctsig : Option AccountSignature) : (ownPart crates place missing acctsig).2.Settles :=
  (Outcome.settles_ofOption _ _).bind fun _ _ => fromAccountsignature_settles _

/-- The secondary signers are built exactly when each of their parts is. -/
theorem exists_fromSecondarySigners_iff (crates : Crates) (place : Address → Place)
    (context : Address → SignatureSubRecord → SignatureSubRecord)
    (signers : List AccountSignature) (addresses : List String) :
    (∃ subrecords, fromSecondarySigners crates context signers addresses = .ok subrecords) ↔
      ∀ part ∈ secondaryParts crates place signers addresses, ∃ inner, part.2 = .ok inner := by
  have hloop :
      (∃ subrecords, fromSecondarySigners crates context signers addresses = .ok subrecords) ↔
        ∀ pair ∈ signers.zip addresses, ∃ group,
          (fromAccountsignature crates pair.1).bind (fun subrecords =>
            .ok (subrecords.map (context (.string pair.2)))) = .ok group := by
    rw [← Outcome.exists_tryMap_iff]
    simp [fromSecondarySigners]
  rw [hloop, secondaryParts, List.forall_mem_map]
  simp

/-- A message is not rejected exactly when each of its parts is built. -/
theorem not_rejected_iff {message : Composite} (hown : ∀ part ∈ message.own, part.2.Settles) :
    ¬ message.Rejected crates ↔ ∀ part ∈ message.parts crates, ∃ inner, part.2 = .ok inner := by
  have hsettles : ∀ part ∈ message.parts crates, part.2.Settles := by
    intro part hpart
    rcases List.mem_append.1 hpart with hpart | hpart
    · exact hown part hpart
    · obtain ⟨pair, -, rfl⟩ := List.mem_map.1 hpart
      exact fromAccountsignature_settles _
  constructor
  · intro h part hpart
    by_contra hnone
    exact h ⟨part, hpart, (hsettles part hpart).exists_err hnone⟩
  · rintro h ⟨part, hpart, error, herror⟩
    obtain ⟨inner, hinner⟩ := h part hpart
    exact nomatch hinner.symm.trans herror

/-- A multi-agent signature is built exactly when each of its parts is. -/
theorem exists_fromMultiagentsignature_iff (value : MultiAgentSignature) :
    (∃ subrecords, fromMultiagentsignature crates value = .ok subrecords) ↔
      ¬ (Composite.ofMultiAgent crates value).Rejected crates := by
  rw [not_rejected_iff (by simpa [Composite.ofMultiAgent] using ownPart_settles _ _ _)]
  have hsecondary := exists_fromSecondarySigners_iff crates multiAgentSecondary
    (fun address subrecord => { subrecord with
      buildtype := .DeferredFallback .MultiAgent
      signer := .Present address
      is_secondary := .Present (some true)
      is_sender := .Present (some false) })
    value.secondary_signers value.secondary_signer_addresses
  simp only [Composite.parts, Composite.ofMultiAgent, List.forall_mem_append,
    List.forall_mem_singleton, ← hsecondary]
  unfold fromMultiagentsignature
  cases hsender : value.sender with
  | none => simp [ownPart, Outcome.ofOption]
  | some sender => simp [ownPart_some, and_comm]

/-- A fee-payer signature is built exactly when each of its parts is. -/
theorem exists_fromFeepayersignature_iff (value : FeePayerSignature) :
    (∃ subrecords, fromFeepayersignature crates value = .ok subrecords) ↔
      ¬ (Composite.ofFeePayer crates value).Rejected crates := by
  have hown : ∀ part ∈ (Composite.ofFeePayer crates value).own, part.2.Settles := by
    simpa [Composite.ofFeePayer] using ⟨ownPart_settles _ _ _, ownPart_settles _ _ _⟩
  rw [not_rejected_iff hown]
  have hsecondary := exists_fromSecondarySigners_iff crates feePayerSecondary
    (fun address subrecord => { subrecord with
      buildtype := .DeferredFallback .FeePayer
      signer := .Present address
      is_feepayer := .Present (some false)
      is_secondary := .Present (some true)
      is_sender := .Present (some false) })
    value.secondary_signers value.secondary_signer_addresses
  have hsender : (∃ subrecords, fromFeepayerSender crates value = .ok subrecords) ↔
      ∃ inner,
        (ownPart crates feePayerSender .FeePayerMissingSender value.sender).2 = .ok inner := by
    unfold fromFeepayerSender
    cases value.sender <;> simp [ownPart, Outcome.ofOption]
  have hsigner : (∃ subrecords, fromFeepayerSigner crates value = .ok subrecords) ↔
      ∃ inner, (ownPart crates (feePayerSigner (.string value.fee_payer_address))
        .FeePayerMissingFeePayer value.fee_payer_signer).2 = .ok inner := by
    unfold fromFeepayerSigner
    cases value.fee_payer_signer <;> simp [ownPart, Outcome.ofOption]
  simp only [Composite.parts, Composite.ofFeePayer, List.forall_mem_append, List.forall_mem_cons,
    ← hsecondary, ← hsender, ← hsigner]
  simp [fromFeepayersignature, and_assoc]

end SignatureSubRecord

/-- Both composite builders lose no signer exactly on messages whose two lists have one length,
and on those that they reject because an account signature is missing or refused. -/
theorem builders_lossless_iff (multiAgent : MultiAgentSignature) (feePayer : FeePayerSignature) :
    ((Composite.ofMultiAgent crates multiAgent).Lossless crates
        (SignatureSubRecord.fromMultiagentsignature crates multiAgent) ↔
      (multiAgent.secondary_signers.length = multiAgent.secondary_signer_addresses.length ∨
        (Composite.ofMultiAgent crates multiAgent).Rejected crates)) ∧
    ((Composite.ofFeePayer crates feePayer).Lossless crates
        (SignatureSubRecord.fromFeepayersignature crates feePayer) ↔
      (feePayer.secondary_signers.length = feePayer.secondary_signer_addresses.length ∨
        (Composite.ofFeePayer crates feePayer).Rejected crates)) := by
  constructor
  · refine Composite.lossless_of_unfolds_iff (fun subrecords h => ⟨_, List.perm_append_comm,
      SignatureSubRecord.fromMultiagentsignature_unfolds h⟩)
      (SignatureSubRecord.exists_fromMultiagentsignature_iff multiAgent)
      (SignatureSubRecord.fromMultiagentsignature_settles multiAgent)
  · refine Composite.lossless_of_unfolds_iff (fun subrecords h => ⟨_, List.Perm.refl _,
      SignatureSubRecord.fromFeepayersignature_unfolds h⟩)
      (SignatureSubRecord.exists_fromFeepayersignature_iff feePayer)
      (SignatureSubRecord.fromFeepayersignature_settles feePayer)

/-- An account signature of one key. -/
def sampleAccountSignature : AccountSignature :=
  ⟨.known .Ed25519, some (.Ed25519 ⟨[1], [2]⟩)⟩

/-- A multi-agent signature with a secondary signer and without its address. -/
def sampleMultiAgent : MultiAgentSignature :=
  ⟨some sampleAccountSignature, [], [sampleAccountSignature]⟩

/-- The secondary signer without an address is lost. -/
theorem builders_not_lossless :
    ¬ ∀ multiAgent feePayer,
      (Composite.ofMultiAgent sampleCrates multiAgent).Lossless sampleCrates
          (SignatureSubRecord.fromMultiagentsignature sampleCrates multiAgent) ∧
        (Composite.ofFeePayer sampleCrates feePayer).Lossless sampleCrates
          (SignatureSubRecord.fromFeepayersignature sampleCrates feePayer) := by
  intro h
  obtain ⟨⟨-, hrefused⟩, -⟩ := h sampleMultiAgent ⟨none, [], [], "", none⟩
  obtain ⟨error, herror⟩ := hrefused (by decide)
  exact nomatch herror

end AptosEtl.Reps
