import AptosEtl.Reps.Signers
import AptosEtl.Tables.All

/-!
# The rows of a signature

The rows that `getSignatures` makes of the parts of a signature. Each part has a group of rows: one
row for each subrecord of its account signature, with the roles of its place and with one signer,
who is the sender unless the place names another (`getSignatures_groups`). The roles and signers
of the rows are read off the groups (`getSignatures_roles`).
-/

namespace AptosEtl.Tables

open Rust Input Reps

variable {crates : Crates}

/-! ## Rows of a place -/

/-- The row of a subrecord at its place, with its signer. -/
def placedRow (crates : Crates) (tx : TransactionExtraction) (timestamp signer : String)
    (place : Place) (subrecord : SignatureSubRecord) : Rows.Signature where
  block_height := tx.blockheight
  block_timestamp := timestamp
  tx_version := tx.version
  tx_hash := tx.getEncodedHash crates
  threshold := subrecord.threshold
  is_secondary := place.is_secondary
  is_fee_payer := place.is_feepayer
  is_sender := place.is_sender
  signature := subrecord.signature
  public_key := subrecord.public_key
  build_type := place.buildtype.asStrName
  signer := signer
  block_unixtimestamp := tx.getUnixTimestamp

/-- The rows of one part of a signature. -/
structure SignerGroup where
  place : Place
  signer : String
  subrecords : List SignatureSubRecord

/-- The rows of a group. -/
def SignerGroup.rows (crates : Crates) (tx : TransactionExtraction) (timestamp : String)
    (group : SignerGroup) : List Rows.Signature :=
  group.subrecords.map (placedRow crates tx timestamp group.signer group.place)

/-- A group is that of a part: what is built there, at its place. A signer is only encoded for the
sake of a row, so nothing is known of that of a group without rows. -/
structure SignerGroup.Of (crates : Crates) (sender : Address) (part : Part) (group : SignerGroup) :
    Prop where
  place : group.place = part.1
  built : part.2 = .ok group.subrecords
  signer : group.subrecords ≠ [] → (part.1.signer.getD sender).tryEncode crates = .ok group.signer

section Row

variable {tx : TransactionExtraction} {timestamp defaultSigner : String} {place : Place}
  {inner outer : SignatureSubRecord}

/-- A completed subrecord leaves only its signer to compute. -/
theorem signatureRow_of_completes (h : place.Completes inner outer) :
    signatureRow crates tx timestamp (tx.getEncodedHash crates) defaultSigner outer =
      (signerColumn crates outer.signer defaultSigner).bind fun signer =>
        .ok (placedRow crates tx timestamp signer place inner) := by
  simp only [signatureRow, h.is_secondary, h.is_feepayer, h.is_sender, h.buildtype,
    h.public_key, h.signature, h.threshold, Outcome.ofOption, Outcome.ok_bind, placedRow]

/-- The signer of a completed subrecord is that of its place, or else the sender. -/
theorem signerColumn_of_completes (h : place.Completes inner outer) {sender : Address}
    (hsender : sender.tryEncode crates = .ok defaultSigner) :
    signerColumn crates outer.signer defaultSigner =
      ((place.signer.getD sender).tryEncode crates).mapErr .Address := by
  unfold signerColumn
  rw [h.signer]
  cases place.signer with
  | none => simp [hsender]
  | some address => rfl

/-- The rows of a group of completed subrecords have one signer. -/
theorem rows_of_group {built : Outcome SignatureError (List SignatureSubRecord)}
    {group : List SignatureSubRecord} {rows : List Rows.Signature} {sender : Address}
    (h : place.Group built group) (hsender : sender.tryEncode crates = .ok defaultSigner)
    (hrows : List.Forall₂ (fun subrecord row =>
      signatureRow crates tx timestamp (tx.getEncodedHash crates) defaultSigner subrecord = .ok row)
      group rows) :
    ∃ signers : SignerGroup, signers.Of crates sender (place, built) ∧
      rows = signers.rows crates tx timestamp := by
  obtain ⟨inner, hbuilt, hinner⟩ := h
  -- what the row of one subrecord is, for any signer that the place can have
  have hrow : ∀ {a b row}, place.Completes a b →
      signatureRow crates tx timestamp (tx.getEncodedHash crates) defaultSigner b = .ok row →
        ∃ signer, (place.signer.getD sender).tryEncode crates = .ok signer ∧
          row = placedRow crates tx timestamp signer place a := by
    intro a b row hcompletes hok
    rw [signatureRow_of_completes hcompletes, signerColumn_of_completes hcompletes hsender] at hok
    obtain ⟨signer, hsigner, hok⟩ := Outcome.bind_eq_ok.1 hok
    exact ⟨signer, Outcome.mapErr_eq_ok.1 hsigner, (Outcome.ok.inj hok).symm⟩
  cases hcase : (place.signer.getD sender).tryEncode crates with
  | ok signer =>
    refine ⟨⟨place, signer, inner⟩, ⟨rfl, hbuilt, fun _ => hcase⟩, ?_⟩
    -- the encoding is a function, so every row has this signer
    rw [SignerGroup.rows]
    clear hbuilt
    induction hinner generalizing rows with
    | nil => cases hrows; rfl
    | cons hcompletes _ ih =>
      cases hrows with
      | cons hok hrest =>
        obtain ⟨signer', hsigner', rfl⟩ := hrow hcompletes hok
        obtain rfl := Outcome.ok.inj (hcase.symm.trans hsigner')
        rw [List.map_cons, ih hrest]
  | err error =>
    cases hinner with
    | nil => cases hrows; exact ⟨⟨place, "", []⟩, ⟨rfl, hbuilt, fun h => absurd rfl h⟩, rfl⟩
    | cons hcompletes _ =>
      cases hrows with
      | cons hok _ =>
        obtain ⟨signer, hsigner, -⟩ := hrow hcompletes hok
        exact nomatch hcase.symm.trans hsigner
  | panic message => exact absurd hcase (Address.tryEncode_settles _ message)

/-- The rows of the subrecords that some parts unfold to are the groups of the parts. -/
theorem rows_of_unfolds {parts : List Part} {subrecords : List SignatureSubRecord}
    {rows : List Rows.Signature} {sender : Address} (h : Unfolds parts subrecords)
    (hsender : sender.tryEncode crates = .ok defaultSigner)
    (hrows : List.Forall₂ (fun subrecord row =>
      signatureRow crates tx timestamp (tx.getEncodedHash crates) defaultSigner subrecord = .ok row)
        subrecords rows) :
    ∃ groups : List SignerGroup, List.Forall₂ (SignerGroup.Of crates sender) parts groups ∧
      rows = groups.flatMap (SignerGroup.rows crates tx timestamp) := by
  obtain ⟨groups, hgroups, rfl⟩ := h
  induction hgroups generalizing rows with
  | nil => cases hrows; exact ⟨[], .nil, rfl⟩
  | cons hgroup _ ih =>
    -- the rows split where the subrecords of the first part end
    obtain ⟨firstRows, restRows, rfl, hfirst, hrest⟩ := Aligned.exists_append hrows
    obtain ⟨first, hof, rfl⟩ := rows_of_group hgroup hsender hfirst
    obtain ⟨rest, hofs, rfl⟩ := ih hrest
    exact ⟨first :: rest, .cons hof hofs, rfl⟩

end Row

/-- What is known of a user transaction whose signatures are extracted: the parts of its signature,
and the groups of rows that they have. -/
structure SignedBy (crates : Crates) (tx : TransactionExtraction) (request : UserTransactionRequest)
    (signature : Input.Signature) (data : SignatureData) (timestamp : String)
    (groups : List SignerGroup) (rows : List Rows.Signature) : Prop where
  userRequest : tx.tx_data.userRequest = .ok (some request)
  signed : request.signature = some signature
  signatureData : signature.signature = some data
  declared : declaredBuildType (signature.type.getD .Unspecified) = some (buildTypeOf data)
  encoded : tx.getEncodedTimestamp crates = .ok timestamp
  ofParts : List.Forall₂ (SignerGroup.Of crates (.string request.sender)) (parts crates data) groups
  ofGroups : rows = groups.flatMap (SignerGroup.rows crates tx timestamp)

/-- The signature of a user transaction is that of its request. -/
theorem signature_eq_some {self : TxDataExtract} {signature : Input.Signature}
    (h : self.signature = .ok (some signature)) :
    ∃ request, self.userRequest = .ok (some request) ∧ request.signature = some signature := by
  obtain ⟨request, hrequest, h⟩ := Outcome.bind_eq_ok.1 h
  cases request with
  | none => exact nomatch h
  | some request =>
    cases hsignature : request.signature with
    | none => simp [hsignature] at h
    | some signature' =>
      simp only [hsignature, Outcome.ok.injEq, Option.some.injEq] at h
      exact ⟨request, hrequest, by rw [hsignature, h]⟩

/-- The encoded sender of a user transaction is that of its request. -/
theorem encodedSender_eq_some {self : TxDataExtract} {request : UserTransactionRequest}
    {encoded : Option String} (hrequest : self.userRequest = .ok (some request))
    (h : self.encodedSender crates = .ok encoded) :
    ∃ sender, encoded = some sender ∧
      (Address.string request.sender).tryEncode crates = .ok sender := by
  obtain ⟨address, haddress, h⟩ := Outcome.bind_eq_ok.1 h
  obtain ⟨request', hrequest', haddress⟩ := Outcome.bind_eq_ok.1 haddress
  obtain rfl := Outcome.ok.inj (hrequest.symm.trans hrequest')
  obtain rfl := Outcome.ok.inj haddress
  obtain ⟨sender, hsender, h⟩ := Outcome.bind_eq_ok.1 h
  exact ⟨sender, (Outcome.ok.inj h).symm, Outcome.mapErr_eq_ok.1 hsender⟩

/-- The rows of a user transaction are the groups of the parts of its signature. -/
theorem getSignatures_groups {crates : Crates} {tx : TransactionExtraction}
    {rows : List Rows.Signature} (h : getSignatures crates tx = .ok (some rows)) :
    ∃ request signature data timestamp groups,
      SignedBy crates tx request signature data timestamp groups rows := by
  obtain ⟨signature, hsignature, h⟩ := Outcome.bind_eq_ok.1 h
  cases signature with
  | none => exact nomatch h
  | some signature =>
    obtain ⟨request, hrequest, hsigned⟩ := signature_eq_some (Outcome.mapErr_eq_ok.1 hsignature)
    obtain ⟨subrecords, hsubrecords, h⟩ := Outcome.bind_eq_ok.1 h
    obtain ⟨timestamp, htimestamp, h⟩ := Outcome.bind_eq_ok.1 h
    obtain ⟨encoded, hencoded, h⟩ := Outcome.bind_eq_ok.1 h
    obtain ⟨defaultSigner, hdefault, h⟩ := Outcome.bind_eq_ok.1 h
    obtain ⟨rows', hrows, h⟩ := Outcome.bind_eq_ok.1 h
    obtain rfl := Option.some.inj (Outcome.ok.inj h)
    rw [Outcome.expect_eq_ok] at hdefault
    rw [Outcome.mapErr_eq_ok] at hsubrecords htimestamp hencoded
    obtain ⟨sender, rfl, hsender⟩ := encodedSender_eq_some hrequest hencoded
    obtain rfl := Option.some.inj hdefault
    obtain ⟨data, hdata, hdeclared, hunfolds⟩ :=
      SignatureSubRecord.fromSignature_unfolds hsubrecords
    obtain ⟨groups, hgroups, hrows⟩ :=
      rows_of_unfolds hunfolds hsender (Outcome.tryMap_eq_ok.1 hrows)
    exact ⟨request, signature, data, timestamp, groups, hrequest, hsigned, hdata, hdeclared,
      htimestamp, hgroups, hrows⟩

/-! ## Roles -/

/-- The rows that go with a secondary signer: those of its account signature, signed by its
address. -/
def PairedRows (crates : Crates) (pair : AccountSignature × String) (rows : List Rows.Signature) :
    Prop :=
  ∃ subrecords, SignatureSubRecord.fromAccountsignature crates pair.1 = .ok subrecords ∧
    List.Forall₂ (fun subrecord row =>
      row.public_key = subrecord.public_key ∧ row.signature = subrecord.signature ∧
        row.threshold = subrecord.threshold ∧
          (Address.string pair.2).tryEncode crates = .ok row.signer) subrecords rows

/-- The roles and signers in the rows of a composite signature. -/
structure CompositeRoles (crates : Crates) (sender : Address) (feePayer : Option Address)
    (signers : List AccountSignature) (addresses : List String) (rows : List Rows.Signature) :
    Prop where
  one_role : ∀ row ∈ rows,
    [row.is_sender, row.is_secondary, row.is_fee_payer].count (some true) = 1
  sender : ∀ row ∈ rows, row.is_sender = some true → sender.tryEncode crates = .ok row.signer
  fee_payer : ∀ row ∈ rows, row.is_fee_payer = some true →
    ∃ address ∈ feePayer, address.tryEncode crates = .ok row.signer
  secondary : ∃ groups, rows.filter (fun row => row.is_secondary = some true) = groups.flatten ∧
    List.Forall₂ (PairedRows crates) (signers.zip addresses) groups

/-- The rows of a signature of the sender alone. -/
structure SoleRoles (crates : Crates) (sender : Address) (rows : List Rows.Signature) : Prop where
  no_role : ∀ row ∈ rows,
    row.is_sender = none ∧ row.is_secondary = none ∧ row.is_fee_payer = none
  sender : ∀ row ∈ rows, sender.tryEncode crates = .ok row.signer

/-- The roles and signers in the rows of a signature. -/
def HasRoles (crates : Crates) (sender : Address) (rows : List Rows.Signature) :
    SignatureData → Prop
  | .Ed25519 _ => SoleRoles crates sender rows
  | .MultiEd25519 _ => SoleRoles crates sender rows
  | .SingleSender _ => SoleRoles crates sender rows
  | .MultiAgent data =>
    CompositeRoles crates sender none data.secondary_signers data.secondary_signer_addresses rows ∧
      ∀ row ∈ rows, row.is_fee_payer = none
  | .FeePayer data =>
    CompositeRoles crates sender (some (.string data.fee_payer_address)) data.secondary_signers
      data.secondary_signer_addresses rows

section Roles

variable {tx : TransactionExtraction} {timestamp : String} {sender : Address}
  {groups : List SignerGroup}

/-- Every row of the groups is at the place of a part, and its signer is that of the place. -/
theorem exists_part_of_mem {parts : List Part} {row : Rows.Signature}
    (h : List.Forall₂ (SignerGroup.Of crates sender) parts groups)
    (hrow : row ∈ groups.flatMap (SignerGroup.rows crates tx timestamp)) :
    ∃ part ∈ parts, ∃ subrecord signer,
      row = placedRow crates tx timestamp signer part.1 subrecord ∧
        (part.1.signer.getD sender).tryEncode crates = .ok signer := by
  obtain ⟨group, hgroup, hrow⟩ := List.mem_flatMap.1 hrow
  obtain ⟨subrecord, hsubrecord, rfl⟩ := List.mem_map.1 hrow
  obtain ⟨part, hpart, hof⟩ := Aligned.exists_of_mem_right h hgroup
  refine ⟨part, hpart, subrecord, group.signer, by rw [hof.place], ?_⟩
  exact hof.signer (List.ne_nil_of_mem hsubrecord)

/-- The groups of the secondary signers are the rows that go with them. -/
theorem pairedRows_of_secondaryParts {place : Address → Place} {signers : List AccountSignature}
    {addresses : List String} (hplace : ∀ address, (place address).signer = some address)
    (h : List.Forall₂ (SignerGroup.Of crates sender)
      (secondaryParts crates place signers addresses) groups) :
    List.Forall₂ (PairedRows crates) (signers.zip addresses)
      (groups.map (SignerGroup.rows crates tx timestamp)) := by
  rw [secondaryParts, List.forall₂_map_left_iff] at h
  rw [List.forall₂_map_right_iff]
  refine h.imp fun pair group hof => ⟨group.subrecords, hof.built, ?_⟩
  rw [SignerGroup.rows, List.forall₂_map_right_iff, List.forall₂_same]
  intro subrecord hsubrecord
  have hsigner := hof.signer (List.ne_nil_of_mem hsubrecord)
  rw [hplace] at hsigner
  exact ⟨rfl, rfl, rfl, hsigner⟩

/-- The rows of groups are secondary as the places of their parts are. -/
theorem is_secondary_of_mem {parts : List Part} {is_secondary : Option Bool}
    (h : List.Forall₂ (SignerGroup.Of crates sender) parts groups)
    (hparts : ∀ part ∈ parts, part.1.is_secondary = is_secondary) :
    ∀ row ∈ groups.flatMap (SignerGroup.rows crates tx timestamp),
      row.is_secondary = is_secondary := by
  intro row hrow
  obtain ⟨part, hpart, subrecord, signer, rfl, -⟩ := exists_part_of_mem h hrow
  exact hparts part hpart

/-- All rows of the groups of the secondary signers are secondary. -/
theorem filter_secondaryParts {place : Address → Place} {signers : List AccountSignature}
    {addresses : List String} (hplace : ∀ address, (place address).is_secondary = some true)
    (h : List.Forall₂ (SignerGroup.Of crates sender)
      (secondaryParts crates place signers addresses) groups) :
    (groups.flatMap (SignerGroup.rows crates tx timestamp)).filter
        (fun row => row.is_secondary = some true) =
      groups.flatMap (SignerGroup.rows crates tx timestamp) := by
  have hparts : ∀ part ∈ secondaryParts crates place signers addresses,
      part.1.is_secondary = some true := by
    intro part hpart
    obtain ⟨pair, -, rfl⟩ := List.mem_map.1 hpart
    exact hplace _
  exact List.filter_eq_self.2 fun row hrow => decide_eq_true (is_secondary_of_mem h hparts row hrow)

/-- No row of the other groups is. -/
theorem filter_ownParts {parts : List Part}
    (h : List.Forall₂ (SignerGroup.Of crates sender) parts groups)
    (hparts : ∀ part ∈ parts, part.1.is_secondary = some false) :
    (groups.flatMap (SignerGroup.rows crates tx timestamp)).filter
        (fun row => row.is_secondary = some true) = [] := by
  refine List.filter_eq_nil_iff.2 fun row hrow => ?_
  rw [is_secondary_of_mem h hparts row hrow]
  decide

/-- The rows of a part of the sender alone have no role. -/
theorem soleRoles_of_singleton {buildtype : SignatureBuildType}
    {built : Outcome SignatureError (List SignatureSubRecord)}
    (h : List.Forall₂ (SignerGroup.Of crates sender) [(solePlace buildtype, built)] groups) :
    SoleRoles crates sender (groups.flatMap (SignerGroup.rows crates tx timestamp)) := by
  have hrow : ∀ row ∈ groups.flatMap (SignerGroup.rows crates tx timestamp),
      ∃ subrecord signer,
        row = placedRow crates tx timestamp signer (solePlace buildtype) subrecord ∧
          sender.tryEncode crates = .ok signer := by
    intro row hmem
    obtain ⟨part, hpart, subrecord, signer, heq, hsigner⟩ := exists_part_of_mem h hmem
    obtain rfl := List.mem_singleton.1 hpart
    exact ⟨subrecord, signer, heq, hsigner⟩
  constructor
  · intro row hmem
    obtain ⟨subrecord, signer, rfl, -⟩ := hrow row hmem
    exact ⟨rfl, rfl, rfl⟩
  · intro row hmem
    obtain ⟨subrecord, signer, rfl, hsigner⟩ := hrow row hmem
    exact hsigner

/-- The rows of a multi-agent signature have its roles. -/
theorem compositeRoles_multiAgent {data : MultiAgentSignature}
    (h : List.Forall₂ (SignerGroup.Of crates sender) (parts crates (.MultiAgent data)) groups) :
    HasRoles crates sender (groups.flatMap (SignerGroup.rows crates tx timestamp))
      (.MultiAgent data) := by
  have hrow : ∀ row ∈ groups.flatMap (SignerGroup.rows crates tx timestamp), ∃ subrecord signer,
      (row = placedRow crates tx timestamp signer multiAgentSender subrecord ∧
        sender.tryEncode crates = .ok signer) ∨
      ∃ address,
        row = placedRow crates tx timestamp signer (multiAgentSecondary address) subrecord := by
    intro row hmem
    obtain ⟨part, hpart, subrecord, signer, heq, hsigner⟩ := exists_part_of_mem h hmem
    refine ⟨subrecord, signer, ?_⟩
    rcases List.mem_append.1 hpart with hpart | hpart
    · obtain ⟨pair, -, rfl⟩ := List.mem_map.1 hpart
      exact .inr ⟨_, heq⟩
    · obtain rfl := List.mem_singleton.1 hpart
      exact .inl ⟨heq, hsigner⟩
  refine ⟨⟨?_, ?_, ?_, ?_⟩, ?_⟩
  · intro row hmem
    obtain ⟨subrecord, signer, ⟨rfl, -⟩ | ⟨address, rfl⟩⟩ := hrow row hmem <;> rfl
  · intro row hmem hsender
    obtain ⟨subrecord, signer, ⟨rfl, hsigner⟩ | ⟨address, rfl⟩⟩ := hrow row hmem
    · exact hsigner
    · exact nomatch hsender
  · intro row hmem hfeepayer
    obtain ⟨subrecord, signer, ⟨rfl, -⟩ | ⟨address, rfl⟩⟩ := hrow row hmem
    · exact nomatch hfeepayer
    · exact nomatch hfeepayer
  · -- the secondary groups come first, and the group of the sender has no secondary row
    obtain ⟨secondary, own, rfl, hsecondary, hown⟩ := Aligned.exists_append h
    refine ⟨secondary.map (SignerGroup.rows crates tx timestamp), ?_,
      pairedRows_of_secondaryParts (fun _ => rfl) hsecondary⟩
    rw [List.flatMap_append, List.filter_append, filter_secondaryParts (fun _ => rfl) hsecondary,
      filter_ownParts hown (by simp [ownPart, multiAgentSender]), List.append_nil,
      List.flatMap_def]
  · intro row hmem
    obtain ⟨subrecord, signer, ⟨rfl, -⟩ | ⟨address, rfl⟩⟩ := hrow row hmem <;> rfl

/-- The rows of a fee-payer signature have its roles. -/
theorem compositeRoles_feePayer {data : FeePayerSignature}
    (h : List.Forall₂ (SignerGroup.Of crates sender) (parts crates (.FeePayer data)) groups) :
    HasRoles crates sender (groups.flatMap (SignerGroup.rows crates tx timestamp))
      (.FeePayer data) := by
  have hrow : ∀ row ∈ groups.flatMap (SignerGroup.rows crates tx timestamp), ∃ subrecord signer,
      (row = placedRow crates tx timestamp signer feePayerSender subrecord ∧
        sender.tryEncode crates = .ok signer) ∨
      (row = placedRow crates tx timestamp signer (feePayerSigner (.string data.fee_payer_address))
          subrecord ∧ (Address.string data.fee_payer_address).tryEncode crates = .ok signer) ∨
      ∃ address,
        row = placedRow crates tx timestamp signer (feePayerSecondary address) subrecord := by
    intro row hmem
    obtain ⟨part, hpart, subrecord, signer, heq, hsigner⟩ := exists_part_of_mem h hmem
    refine ⟨subrecord, signer, ?_⟩
    rcases List.mem_cons.1 hpart with rfl | hpart
    · exact .inl ⟨heq, hsigner⟩
    rcases List.mem_cons.1 hpart with rfl | hpart
    · exact .inr (.inl ⟨heq, hsigner⟩)
    · obtain ⟨pair, -, rfl⟩ := List.mem_map.1 hpart
      exact .inr (.inr ⟨_, heq⟩)
  refine ⟨?_, ?_, ?_, ?_⟩
  · intro row hmem
    obtain ⟨subrecord, signer, ⟨rfl, -⟩ | ⟨rfl, -⟩ | ⟨address, rfl⟩⟩ := hrow row hmem <;> rfl
  · intro row hmem hsender
    obtain ⟨subrecord, signer, ⟨rfl, hsigner⟩ | ⟨rfl, -⟩ | ⟨address, rfl⟩⟩ := hrow row hmem
    · exact hsigner
    · exact nomatch hsender
    · exact nomatch hsender
  · intro row hmem hfeepayer
    obtain ⟨subrecord, signer, ⟨rfl, -⟩ | ⟨rfl, hsigner⟩ | ⟨address, rfl⟩⟩ := hrow row hmem
    · exact nomatch hfeepayer
    · exact ⟨_, rfl, hsigner⟩
    · exact nomatch hfeepayer
  · -- the groups of the sender and the fee payer come first, and have no secondary row
    have h : List.Forall₂ (SignerGroup.Of crates sender)
        ([ownPart crates feePayerSender .FeePayerMissingSender data.sender,
          ownPart crates (feePayerSigner (.string data.fee_payer_address)) .FeePayerMissingFeePayer
            data.fee_payer_signer] ++ secondaryParts crates feePayerSecondary data.secondary_signers
              data.secondary_signer_addresses) groups := h
    obtain ⟨own, secondary, rfl, hown, hsecondary⟩ := Aligned.exists_append h
    refine ⟨secondary.map (SignerGroup.rows crates tx timestamp), ?_,
      pairedRows_of_secondaryParts (fun _ => rfl) hsecondary⟩
    rw [List.flatMap_append, List.filter_append, filter_secondaryParts (fun _ => rfl) hsecondary,
      filter_ownParts hown (by simp [ownPart, feePayerSender, feePayerSigner]), List.nil_append,
      List.flatMap_def]

/-- The rows of the groups of a signature have its roles, whatever its kind. -/
theorem hasRoles_of_parts {data : SignatureData}
    (h : List.Forall₂ (SignerGroup.Of crates sender) (parts crates data) groups) :
    HasRoles crates sender (groups.flatMap (SignerGroup.rows crates tx timestamp)) data := by
  cases data with
  | Ed25519 data => exact soleRoles_of_singleton h
  | MultiEd25519 data => exact soleRoles_of_singleton h
  | MultiAgent data => exact compositeRoles_multiAgent h
  | FeePayer data => exact compositeRoles_feePayer h
  | SingleSender data => exact soleRoles_of_singleton h

end Roles

/-- Every subrecord that some parts unfold to is completed by a place. -/
theorem exists_completes_of_unfolds {parts : List Part} {subrecords : List SignatureSubRecord}
    {subrecord : SignatureSubRecord} (h : Unfolds parts subrecords)
    (hmem : subrecord ∈ subrecords) :
    ∃ (place : Place) (inner : SignatureSubRecord), place.Completes inner subrecord := by
  obtain ⟨groups, hgroups, rfl⟩ := h
  obtain ⟨group, hgroup, hmem⟩ := List.mem_flatten.1 hmem
  obtain ⟨part, -, inner, -, hinner⟩ := Aligned.exists_of_mem_right hgroups hgroup
  obtain ⟨subrecord', -, hcompletes⟩ := Aligned.exists_of_mem_right hinner hmem
  exact ⟨part.1, subrecord', hcompletes⟩

/-- The signer of a row is the one column of a completed subrecord that can fail. -/
theorem signatureRow_raisesOnly {tx : TransactionExtraction} {timestamp defaultSigner : String}
    {place : Place} {inner outer : SignatureSubRecord} (h : place.Completes inner outer) :
    (signatureRow crates tx timestamp (tx.getEncodedHash crates) defaultSigner outer).RaisesOnly
      (· ≠ .DeferredError) := by
  rw [signatureRow_of_completes h, signerColumn, h.signer]
  refine Outcome.RaisesOnly.bind ?_ fun _ _ => Outcome.raisesOnly_ok _ _
  cases place.signer with
  | none => exact Outcome.raisesOnly_ok _ _
  | some address => exact Outcome.raisesOnly_mapErr (fun _ => nofun) _

/-- No deferred column is asked for before it is set. -/
theorem getSignatures_ne_deferredError (crates : Crates) (tx : TransactionExtraction) :
    getSignatures crates tx ≠ .err .DeferredError := by
  have hraises : (getSignatures crates tx).RaisesOnly (· ≠ .DeferredError) := by
    refine (Outcome.raisesOnly_mapErr (fun _ => nofun) _).bind fun signature _ => ?_
    cases signature with
    | none => exact Outcome.raisesOnly_ok _ _
    | some signature =>
      refine (Outcome.raisesOnly_mapErr (fun _ => nofun) _).bind fun subrecords hsubrecords => ?_
      refine (Outcome.raisesOnly_mapErr (fun _ => nofun) _).bind fun timestamp _ => ?_
      refine (Outcome.raisesOnly_mapErr (fun _ => nofun) _).bind fun encoded _ => ?_
      refine (Outcome.raisesOnly_expect _ _ _).bind fun defaultSigner _ => ?_
      -- every subrecord has been completed by its place
      obtain ⟨data, -, -, hunfolds⟩ :=
        SignatureSubRecord.fromSignature_unfolds (Outcome.mapErr_eq_ok.1 hsubrecords)
      refine (Outcome.raisesOnly_tryMap fun subrecord hmem => ?_).bind
        fun _ _ => Outcome.raisesOnly_ok _ _
      obtain ⟨place, inner, hcompletes⟩ := exists_completes_of_unfolds hunfolds hmem
      exact signatureRow_raisesOnly hcompletes
  exact fun h => hraises _ h rfl

/-- The rows of a user transaction are of the build type that its signature declares, with the
roles and signers of the parts of the signature; and no column is left open. -/
theorem getSignatures_roles (crates : Crates) (tx : TransactionExtraction) :
    (∀ userdata records, tx.tx_data.txndata = .User userdata →
      getSignatures crates tx = .ok records →
        ∃ request signature data buildtype rows, userdata.request = some request ∧
          request.signature = some signature ∧ signature.signature = some data ∧
            declaredBuildType (signature.type.getD .Unspecified) = some buildtype ∧
              records = some rows ∧ (∀ row ∈ rows, row.build_type = buildtype.asStrName) ∧
                HasRoles crates (.string request.sender) rows data) ∧
      getSignatures crates tx ≠ .err .DeferredError := by
  refine ⟨fun userdata records huser h => ?_, getSignatures_ne_deferredError crates tx⟩
  have hsome : records.isSome = true := (getSignatures_spec h).1.2 ⟨userdata, huser⟩
  obtain ⟨rows, rfl⟩ := Option.isSome_iff_exists.1 hsome
  obtain ⟨request, signature, data, timestamp, groups, hsigned⟩ := getSignatures_groups h
  have hrequest : userdata.request = some request := by
    obtain ⟨userdata', huser', hrequest, -⟩ | ⟨hother, -⟩ :=
      TxDataExtract.userRequest_cases hsigned.userRequest
    · rwa [TxnData.User.inj (huser.symm.trans huser')]
    · exact absurd huser (hother userdata)
  refine ⟨request, signature, data, buildTypeOf data, rows, hrequest, hsigned.signed,
    hsigned.signatureData, hsigned.declared, rfl, ?_, ?_⟩
  · rw [hsigned.ofGroups]
    intro row hrow
    obtain ⟨part, hpart, subrecord, signer, rfl, -⟩ := exists_part_of_mem hsigned.ofParts hrow
    exact congrArg SignatureBuildType.asStrName (buildtype_of_mem_parts hpart)
  · rw [hsigned.ofGroups]
    exact hasRoles_of_parts hsigned.ofParts

/-- A user transaction with a signature. -/
def sampleSigned (signature : SignatureData) (type : Input.SignatureType) :
    TransactionExtraction where
  version := 1
  epoch := 0
  blockheight := 0
  timestamp := ⟨0, 0⟩
  tx_type := .User
  tx_info := ⟨⟨[]⟩, ⟨[]⟩, ⟨[]⟩, none, 0, true, "", ⟨[]⟩, []⟩
  tx_data := ⟨.User ⟨some ⟨"0x1", 0, 0, 0, none, none, some ⟨.known type, some signature⟩⟩, []⟩⟩

/-- A multi-agent signature with one secondary signer. -/
def samplePaired : MultiAgentSignature :=
  ⟨some sampleAccountSignature, ["0x2"], [sampleAccountSignature]⟩

/-- The rows of the multi-agent signature can be built. -/
theorem exists_signatures_samplePaired :
    ∃ records, getSignatures sampleCrates (sampleSigned (.MultiAgent samplePaired) .MultiAgent) =
      .ok records :=
  Outcome.isSome_toOption.1 (by decide)

/-- The sender and the secondary signer of a multi-agent signature. -/
theorem getSignatures_roles_samplePaired :
    ∃ rows, getSignatures sampleCrates (sampleSigned (.MultiAgent samplePaired) .MultiAgent) =
      .ok (some rows) ∧ HasRoles sampleCrates (.string "0x1") rows (.MultiAgent samplePaired) := by
  obtain ⟨records, h⟩ := exists_signatures_samplePaired
  obtain ⟨request, signature, data, buildtype, rows, ⟨⟩, ⟨⟩, ⟨⟩, -, rfl, -, hroles⟩ :=
    (getSignatures_roles sampleCrates (sampleSigned (.MultiAgent samplePaired) .MultiAgent)).1
      _ records rfl h
  exact ⟨rows, h, hroles⟩

end AptosEtl.Tables
