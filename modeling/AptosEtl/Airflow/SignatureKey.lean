import AptosEtl.Tables.SignatureRows

/-!
# The key of the signatures table

`SQL_MERGE_TABLE` of `daily_dedupe_mainnet.py`, for the signatures table: the columns by which the
dedupe job takes two rows for duplicates of each other. Whether the rows of one transaction have
different keys is read off its signature. Each account signature in it has a list of `Slot`s, one
for each row, with the bytes of the public key and of the signature and the index that is published
with the key. A row is told apart from the others of its group by its slot alone, and from those of
another group only if the two are signed by different addresses or in different roles.

The index is published for the keys of a multi-Ed25519 signature, and not for those of a multi-key
account, where one key may come up twice without a signature.
-/

namespace AptosEtl.Airflow

open Rust Input Reps Tables

variable {crates : Crates}

/-! ## Keys -/

/-- The columns of `SQL_MERGE_TABLE` for the signatures table. -/
structure SignatureKey where
  tx_version : UInt64
  signature_value : Option String
  public_key_value : String
  public_key_index : Option UInt32
  signer : String
  is_sender : Option Bool
  is_fee_payer : Option Bool
  deriving DecidableEq, Repr

/-- The key of a row. -/
def signatureKey (row : Rows.Signature) : SignatureKey where
  tx_version := row.tx_version
  signature_value := row.signature.map Rows.SignatureValue.value
  public_key_value := row.public_key.value
  public_key_index := row.public_key.index
  signer := row.signer
  is_sender := row.is_sender
  is_fee_payer := row.is_fee_payer

/-- What tells a row apart within its group. -/
structure Slot where
  /-- The bytes of the signature, if the key has signed. -/
  signature : Option Bytes
  /-- The bytes of the public key, of which an abstraction has none. -/
  public_key : Option Bytes
  /-- The index that is published with the public key. -/
  index : Option UInt32
  deriving DecidableEq, Repr

/-- The columns of the key that come from a subrecord. -/
structure InnerKey where
  signature_value : Option String
  public_key_value : String
  public_key_index : Option UInt32

/-- The columns of the key that come from a subrecord. -/
def innerKey (subrecord : SignatureSubRecord) : InnerKey where
  signature_value := subrecord.signature.map Rows.SignatureValue.value
  public_key_value := subrecord.public_key.value
  public_key_index := subrecord.public_key.index

/-- The columns of the key that a slot is published under. -/
def Slot.innerKey (crates : Crates) (slot : Slot) : InnerKey where
  signature_value := slot.signature.map fun bytes => (HashValue.mk bytes).encode crates
  public_key_value := (slot.public_key.map fun bytes => (HashValue.mk bytes).encode crates).getD
    "Abstraction"
  public_key_index := slot.index

/-- The key of the row of a subrecord at a place. -/
def InnerKey.complete (version : UInt64) (signer : String) (place : Place) (inner : InnerKey) :
    SignatureKey where
  tx_version := version
  signature_value := inner.signature_value
  public_key_value := inner.public_key_value
  public_key_index := inner.public_key_index
  signer := signer
  is_sender := place.is_sender
  is_fee_payer := place.is_feepayer

/-- An encoded hash is no abstraction. -/
theorem encode_ne_abstraction (bytes : Bytes) :
    (HashValue.mk bytes).encode crates ≠ "Abstraction" := by
  intro h
  have hfirst := congrArg (fun s => s.toList.head?) h
  simp [HashValue.encode, crates.hexEncode_eq] at hfirst

/-- Different slots are published under different columns. -/
theorem innerKey_injective : Function.Injective (Slot.innerKey crates) := by
  rintro ⟨sig, key, index⟩ ⟨sig', key', index'⟩ h
  obtain ⟨hsig, hkey, hindex⟩ := InnerKey.mk.inj h
  have hencode : Function.Injective fun bytes => (HashValue.mk bytes).encode crates :=
    fun a b hab => HashValue.mk.inj (HashValue.encode_injective crates hab)
  have hsig : sig = sig' := Option.map_injective hencode hsig
  have hkey : key = key' := by
    cases key with
    | none =>
      cases key' with
      | none => rfl
      | some bytes' => exact absurd hkey.symm (encode_ne_abstraction bytes')
    | some bytes =>
      cases key' with
      | none => exact absurd hkey (encode_ne_abstraction bytes)
      | some bytes' => rw [hencode hkey]
  have hindex : index = index' := hindex
  rw [hsig, hkey, hindex]

/-- The other columns of the key do not depend on the subrecord. -/
theorem complete_injective (version : UInt64) (signer : String) (place : Place) :
    Function.Injective (InnerKey.complete version signer place) := by
  rintro ⟨sig, key, index⟩ ⟨sig', key', index'⟩ h
  obtain ⟨-, hsig, hkey, hindex, -, -, -⟩ := SignatureKey.mk.inj h
  rw [show sig = sig' from hsig, show key = key' from hkey, show index = index' from hindex]

/-! ## Slots -/

/-- The slot of an Ed25519 signature. -/
def ed25519Slot (value : Ed25519Signature) : Slot :=
  ⟨some value.signature, some value.public_key, none⟩

/-- The slots of a multi-Ed25519 signature: the keys with their index, as a `u32`. -/
def multiEd25519Slots (value : MultiEd25519Signature) : List Slot :=
  value.public_keys.mapIdx fun index pubkey =>
    ⟨((value.signatures.zip value.public_key_indices).map fun (sig, i) => (i.toNat, sig)).lookup
        index, some pubkey, some (UInt32.ofNat index)⟩

/-- The bytes of a signature value. -/
def anySignatureBytes (value : AnySignature) : Bytes :=
  (value.signature_variant.map SigValueExtraction.variantBytes).getD []

/-- The slots of a multi-key signature: the keys without an index. -/
def multiKeySlots (value : MultiKeySignature) : List Slot :=
  value.public_keys.zipIdx.map fun (pubkey, index) =>
    ⟨(value.signatures.map fun sig =>
        (sig.index.toNat, (sig.signature.map anySignatureBytes).getD [])).lookup index,
      some pubkey.public_key, none⟩

/-- The slots of an account signature. -/
def accountSlots (value : AccountSignature) : List Slot :=
  match value.signature with
  | some (.Ed25519 data) => [ed25519Slot data]
  | some (.MultiEd25519 data) => multiEd25519Slots data
  | some (.SingleKeySignature data) =>
    [⟨data.signature.map anySignatureBytes, data.public_key.map AnyPublicKey.public_key, none⟩]
  | some (.MultiKeySignature data) => multiKeySlots data
  | some (.Abstraction data) => [⟨some data.signature, none, none⟩]
  | none => []

/-- The slots of an account signature that a message may lack. -/
def ownSlots (value : Option AccountSignature) : List Slot := (value.map accountSlots).getD []

/-- The slots of a signature, one list for each of its account signatures, with their places. -/
def slotted : SignatureData → List (Place × List Slot)
  | .Ed25519 data => [(solePlace .Ed25519, [ed25519Slot data])]
  | .MultiEd25519 data => [(solePlace .MultiEd25519, multiEd25519Slots data)]
  | .MultiAgent data =>
    (data.secondary_signers.zip data.secondary_signer_addresses).map
        (fun (acctsig, addrstr) =>
          (multiAgentSecondary (.string addrstr), accountSlots acctsig)) ++
      [(multiAgentSender, ownSlots data.sender)]
  | .FeePayer data =>
    (feePayerSender, ownSlots data.sender) ::
      (feePayerSigner (.string data.fee_payer_address), ownSlots data.fee_payer_signer) ::
        (data.secondary_signers.zip data.secondary_signer_addresses).map
          (fun (acctsig, addrstr) =>
            (feePayerSecondary (.string addrstr), accountSlots acctsig))
  | .SingleSender data => [(solePlace .SingleSender, ownSlots data.sender)]

/-! ## The slots are what is published -/

/-- Looking up what the values are mapped to. -/
theorem lookup_map_snd {β γ : Type} (f : β → γ) (entries : List (ℕ × β)) (index : ℕ) :
    (entries.map fun entry => (entry.1, f entry.2)).lookup index =
      (entries.lookup index).map f := by
  induction entries with
  | nil => rfl
  | cons entry entries ih =>
    obtain ⟨i, b⟩ := entry
    rw [List.map_cons, List.lookup_cons, List.lookup_cons, ih]
    cases index == i <;> rfl

/-- The map of signatures that the loops build is looked up as the list of them is, since no index
comes twice. -/
theorem lookup_of_insertNew {α : Type} (value : α → Outcome SignatureError Rows.SignatureValue)
    {index : α → ℕ} (text : α → String) {duplicate : α → SignatureError} {xs : List α}
    {sigs : SignatureSubRecord.Sigs}
    (h : Outcome.tryFold (fun sigs x => (value x).bind fun sigval =>
      SignatureSubRecord.Sigs.insertNew sigs (index x) sigval (duplicate x)) [] xs = .ok sigs)
    (hvalue : ∀ x sigval, value x = .ok sigval → sigval.value = text x) (i : ℕ) :
    (sigs.lookup i).map Rows.SignatureValue.value =
      (xs.map fun x => (index x, text x)).lookup i := by
  refine Outcome.tryFold_induct
    (P := fun done sigs => (sigs.lookup i).map Rows.SignatureValue.value =
      (done.map fun x => (index x, text x)).lookup i) h rfl ?_
  intro done x sigs sigs' hdone hstep
  obtain ⟨sigval, hsigval, hstep⟩ := Outcome.bind_eq_ok.1 hstep
  unfold SignatureSubRecord.Sigs.insertNew at hstep
  split at hstep
  case h_1 hnone =>
    obtain rfl := Outcome.ok.inj hstep
    rw [List.map_append, List.lookup_append, ← hdone, List.lookup_cons]
    by_cases hi : i = index x
    · -- the index was not there before
      subst hi
      simp [hnone, hvalue x sigval hsigval]
    · have hbeq : (i == index x) = false := beq_eq_false_iff_ne.2 hi
      simp [hbeq, List.lookup_cons]
  case h_2 => exact nomatch hstep

/-- What a signature value is published as. -/
theorem value_of_tryInto {extract : SigValueExtraction} {sigval : Rows.SignatureValue}
    (h : extract.tryInto crates = .ok sigval) : sigval.value = extract.value.encode crates := by
  obtain ⟨type, -, h⟩ := Outcome.bind_eq_ok.1 h
  obtain rfl := Outcome.ok.inj h
  rfl

/-- The value of a signature is that of its variant. -/
theorem value_of_tryFrom {value : AnySignature} {extract : SigValueExtraction}
    (h : SigValueExtraction.tryFrom value = .ok extract) :
    extract.value = ⟨anySignatureBytes value⟩ := by
  unfold SigValueExtraction.tryFrom at h
  split at h
  case h_1 variant hvariant =>
    obtain rfl := Outcome.ok.inj h
    simp [anySignatureBytes, hvariant]
  case h_2 => exact nomatch h

/-- A public key is published without an index. -/
theorem publicKeyTryInto_eq_ok {value : AnyPublicKey} {publicKey : Rows.PublicKey}
    (h : publicKeyTryInto crates value = .ok publicKey) :
    publicKey.value = (HashValue.mk value.public_key).encode crates ∧ publicKey.index = none := by
  obtain ⟨type, -, h⟩ := Outcome.bind_eq_ok.1 h
  obtain rfl := Outcome.ok.inj h
  exact ⟨rfl, rfl⟩

/-- The subrecords of a multi-Ed25519 signature are published as its slots. -/
theorem innerKeys_multiEd25519 {value : MultiEd25519Signature}
    {subrecords : List SignatureSubRecord}
    (h : SignatureSubRecord.fromMultied25519 crates value = .ok subrecords) :
    subrecords.map innerKey = (multiEd25519Slots value).map (Slot.innerKey crates) := by
  unfold SignatureSubRecord.fromMultied25519 at h
  split_ifs at h
  obtain ⟨sigs, hsigs, h⟩ := Outcome.bind_eq_ok.1 h
  obtain rfl := Outcome.ok.inj h
  have hlookup := lookup_of_insertNew
    (fun x : Bytes × UInt32 => .ok ⟨"ed25519", (HashValue.mk x.1).encode crates, some x.2⟩)
    (fun x => (HashValue.mk x.1).encode crates) hsigs fun x sigval hx => by rw [← Outcome.ok.inj hx]
  rw [multiEd25519Slots, List.mapIdx_eq_zipIdx_map, List.mapIdx_eq_zipIdx_map, List.map_map,
    List.map_map]
  refine List.map_congr_left fun ⟨pubkey, index⟩ _ => ?_
  have hmap := lookup_map_snd (fun bytes => (HashValue.mk bytes).encode crates)
    ((value.signatures.zip value.public_key_indices).map fun (sig, i) => (i.toNat, sig)) index
  rw [List.map_map] at hmap
  exact congrArg (InnerKey.mk · _ _) ((hlookup index).trans hmap)

/-- The bytes of an indexed signature. -/
def indexedSignatureBytes (sig : IndexedSignature) : Bytes :=
  (sig.signature.map anySignatureBytes).getD []

/-- An indexed signature is published with its bytes. -/
theorem value_of_tryFromIndexed {sig : IndexedSignature} {sigval : Rows.SignatureValue}
    (h : ((SigValueExtraction.tryFromIndexed sig).mapErr SignatureError.SignatureValueIssue).bind
      (fun extract => (extract.tryInto crates).mapErr .SignatureValueIssue) = .ok sigval) :
    sigval.value = (HashValue.mk (indexedSignatureBytes sig)).encode crates := by
  obtain ⟨extract, hextract, h⟩ := Outcome.bind_eq_ok.1 h
  rw [value_of_tryInto (Outcome.mapErr_eq_ok.1 h)]
  rw [Outcome.mapErr_eq_ok, SigValueExtraction.tryFromIndexed] at hextract
  split at hextract
  case h_1 anysig hanysig =>
    obtain ⟨inner, hinner, hextract⟩ := Outcome.bind_eq_ok.1 hextract
    obtain rfl := Outcome.ok.inj hextract
    simp [indexedSignatureBytes, hanysig, value_of_tryFrom hinner]
  case h_2 => exact nomatch hextract

/-- The subrecords of a multi-key signature are published as its slots. -/
theorem innerKeys_multiKey {value : MultiKeySignature} {subrecords : List SignatureSubRecord}
    (h : SignatureSubRecord.fromMultikeysignature crates value = .ok subrecords) :
    subrecords.map innerKey = (multiKeySlots value).map (Slot.innerKey crates) := by
  obtain ⟨sigs, hsigs, h⟩ := Outcome.bind_eq_ok.1 h
  simp only [← Outcome.bind_assoc] at hsigs
  have hlookup := lookup_of_insertNew _
    (fun sig => (HashValue.mk (indexedSignatureBytes sig)).encode crates) hsigs
    fun sig sigval => value_of_tryFromIndexed
  rw [multiKeySlots, List.map_map]
  symm
  refine Aligned.map_eq_map ((Outcome.tryMap_eq_ok.1 h).imp ?_)
  rintro ⟨pubkey, index⟩ subrecord hsubrecord
  obtain ⟨publicKey, hkey, hsubrecord⟩ := Outcome.bind_eq_ok.1 hsubrecord
  obtain rfl := Outcome.ok.inj hsubrecord
  obtain ⟨hvalue, hindex⟩ := publicKeyTryInto_eq_ok (Outcome.mapErr_eq_ok.1 hkey)
  have hmap := lookup_map_snd (fun bytes => (HashValue.mk bytes).encode crates)
    (value.signatures.map fun sig => (sig.index.toNat, indexedSignatureBytes sig)) index
  rw [List.map_map] at hmap
  have hsig := (hlookup index).trans hmap
  simp only [innerKey, hsig, hvalue, hindex]
  rfl

/-- The subrecord of a single-key signature is published as its slot. -/
theorem innerKeys_singleKey {value : SingleKeySignature} {subrecord : SignatureSubRecord}
    (h : SignatureSubRecord.fromSinglekeysignature crates value = .ok subrecord) :
    innerKey subrecord = Slot.innerKey crates ⟨value.signature.map anySignatureBytes,
      value.public_key.map AnyPublicKey.public_key, none⟩ := by
  unfold SignatureSubRecord.fromSinglekeysignature at h
  split at h
  case h_1 pubkey sig hpubkey hsig =>
    obtain ⟨extract, hextract, h⟩ := Outcome.bind_eq_ok.1 h
    obtain ⟨publicKey, hkey, h⟩ := Outcome.bind_eq_ok.1 h
    obtain ⟨sigval, hsigval, h⟩ := Outcome.bind_eq_ok.1 h
    obtain rfl := Outcome.ok.inj h
    rw [Outcome.mapErr_eq_ok] at hextract hkey hsigval
    obtain ⟨hvalue, hindex⟩ := publicKeyTryInto_eq_ok hkey
    simp [innerKey, Slot.innerKey, hpubkey, hsig, hvalue, hindex, value_of_tryInto hsigval,
      value_of_tryFrom hextract]
  · exact nomatch h
  · exact nomatch h

/-- The subrecords of an account signature are published as its slots, whatever its kind. -/
theorem innerKeys_account {value : AccountSignature} {subrecords : List SignatureSubRecord}
    (h : SignatureSubRecord.fromAccountsignature crates value = .ok subrecords) :
    subrecords.map innerKey = (accountSlots value).map (Slot.innerKey crates) := by
  rw [accountSlots]
  cases SignatureSubRecord.accountConvertsTo_of_eq_ok h with
  | Ed25519 htype hdata =>
    rw [hdata]
    rfl
  | MultiEd25519 htype hdata hrecords =>
    rw [hdata]
    exact innerKeys_multiEd25519 hrecords
  | MultiKey htype hdata hrecords =>
    rw [hdata]
    exact innerKeys_multiKey hrecords
  | SingleKey htype hdata hrecord =>
    rw [hdata]
    exact congrArg (fun key => [key]) (innerKeys_singleKey hrecord)
  | Abstraction htype hdata =>
    rw [hdata]
    rfl

/-- The entry of a part: its place, and the slots that its subrecords are published as. -/
def EntryOf (crates : Crates) (part : Part) (entry : Place × List Slot) : Prop :=
  entry.1 = part.1 ∧ ∀ subrecords, part.2 = .ok subrecords →
    subrecords.map innerKey = entry.2.map (Slot.innerKey crates)

/-- The slots of an account signature that a message may lack are what its part publishes. -/
theorem entryOf_ownPart (place : Place) (missing : SignatureError)
    (acctsig : Option AccountSignature) :
    EntryOf crates (ownPart crates place missing acctsig) (place, ownSlots acctsig) := by
  refine ⟨rfl, fun subrecords h => ?_⟩
  cases acctsig with
  | none => exact nomatch h
  | some acctsig => exact innerKeys_account h

/-- The slots of the secondary signers are what their parts publish. -/
theorem entryOf_secondaryParts (place : Address → Place) (signers : List AccountSignature)
    (addresses : List String) :
    List.Forall₂ (EntryOf crates) (secondaryParts crates place signers addresses)
      ((signers.zip addresses).map fun (acctsig, addrstr) =>
        (place (.string addrstr), accountSlots acctsig)) := by
  rw [secondaryParts, List.forall₂_map_left_iff, List.forall₂_map_right_iff, List.forall₂_same]
  exact fun pair _ => ⟨rfl, fun subrecords h => innerKeys_account h⟩

/-- The slots of a signature are what its parts publish. -/
theorem entryOf_parts (data : SignatureData) :
    List.Forall₂ (EntryOf crates) (parts crates data) (slotted data) := by
  cases data with
  | Ed25519 data =>
    refine .cons ⟨rfl, fun subrecords h => ?_⟩ .nil
    obtain rfl := Outcome.ok.inj h
    rfl
  | MultiEd25519 data => exact .cons ⟨rfl, fun subrecords h => innerKeys_multiEd25519 h⟩ .nil
  | MultiAgent data =>
    exact List.rel_append (entryOf_secondaryParts _ _ _) (.cons (entryOf_ownPart _ _ _) .nil)
  | FeePayer data =>
    exact .cons (entryOf_ownPart _ _ _) (.cons (entryOf_ownPart _ _ _)
      (entryOf_secondaryParts _ _ _))
  | SingleSender data => exact .cons (entryOf_ownPart _ _ _) .nil

/-! ## Rows with one key -/

/-- Two account signatures of a message are signed by the same address in the same role. -/
def SameSigner (crates : Crates) (sender : Address) (place place' : Place) : Prop :=
  place.is_sender = place'.is_sender ∧ place.is_feepayer = place'.is_feepayer ∧
    ∃ signer, (place.signer.getD sender).tryEncode crates = .ok signer ∧
      (place'.signer.getD sender).tryEncode crates = .ok signer

/-- The slots of a signature tell its rows apart: no account signature has a slot twice, and no two
that are signed by the same address in the same role have one in common. -/
structure SlotsApart (crates : Crates) (sender : Address) (data : SignatureData) : Prop where
  within : ∀ entry ∈ slotted data, entry.2.Nodup
  across : (slotted data).Pairwise fun entry entry' =>
    SameSigner crates sender entry.1 entry'.1 → entry.2.Disjoint entry'.2

/-- The keys of the rows of a group. -/
def groupKeys (version : UInt64) (group : SignerGroup) : List SignatureKey :=
  (group.subrecords.map innerKey).map (InnerKey.complete version group.signer group.place)

/-- A group of rows has an entry: its place, its slots, and the signer if there is a row. -/
structure HasEntry (crates : Crates) (sender : Address) (group : SignerGroup)
    (entry : Place × List Slot) : Prop where
  place : group.place = entry.1
  slots : group.subrecords.map innerKey = entry.2.map (Slot.innerKey crates)
  signer : entry.2 ≠ [] → (entry.1.signer.getD sender).tryEncode crates = .ok group.signer

section Keys

variable {sender : Address} {version : UInt64} {group group' : SignerGroup}
  {entry entry' : Place × List Slot}

/-- The keys of a group are those of its slots. -/
theorem HasEntry.groupKeys_eq (h : HasEntry crates sender group entry) :
    groupKeys version group = entry.2.map fun slot =>
      (slot.innerKey crates).complete version group.signer entry.1 := by
  rw [groupKeys, h.slots, h.place, List.map_map]
  rfl

/-- The keys of a group are different when its slots are. -/
theorem HasEntry.nodup_iff (h : HasEntry crates sender group entry) :
    (groupKeys version group).Nodup ↔ entry.2.Nodup := by
  rw [h.groupKeys_eq]
  exact List.nodup_map_iff ((complete_injective _ _ _).comp innerKey_injective)

/-- Two groups have no key in common when they differ in the signer or the role, or else have no
slot in common. -/
theorem HasEntry.disjoint_iff (h : HasEntry crates sender group entry)
    (h' : HasEntry crates sender group' entry') :
    (groupKeys version group).Disjoint (groupKeys version group') ↔
      (SameSigner crates sender entry.1 entry'.1 → entry.2.Disjoint entry'.2) := by
  rw [h.groupKeys_eq, h'.groupKeys_eq]
  constructor
  · rintro hkeys ⟨hsender, hfeepayer, signer, hsigner, hsigner'⟩ slot hslot hslot'
    -- a common slot has the same key in both groups
    have hsame : group.signer = group'.signer := by
      have hfirst := (h.signer (List.ne_nil_of_mem hslot)).symm.trans hsigner
      have hsecond := (h'.signer (List.ne_nil_of_mem hslot')).symm.trans hsigner'
      rw [Outcome.ok.inj hfirst, Outcome.ok.inj hsecond]
    refine hkeys (List.mem_map_of_mem hslot) (List.mem_map.2 ⟨slot, hslot', ?_⟩)
    rw [InnerKey.complete, InnerKey.complete, hsame, hsender, hfeepayer]
  · intro hslots key hkey hkey'
    obtain ⟨slot, hslot, rfl⟩ := List.mem_map.1 hkey
    obtain ⟨slot', hslot', heq⟩ := List.mem_map.1 hkey'
    obtain ⟨-, hsig, hpubkey, hindex, hsigner, hsender, hfeepayer⟩ := SignatureKey.mk.inj heq
    have hinner : slot'.innerKey crates = slot.innerKey crates := by
      rw [InnerKey.mk.injEq]
      exact ⟨hsig, hpubkey, hindex⟩
    obtain rfl := innerKey_injective hinner
    refine hslots ⟨hsender.symm, hfeepayer.symm, group.signer,
      h.signer (List.ne_nil_of_mem hslot), ?_⟩ hslot hslot'
    rw [h'.signer (List.ne_nil_of_mem hslot'), hsigner]

/-- The groups of a signature have its entries. -/
theorem hasEntry_of_parts {parts : List Part} {groups : List SignerGroup}
    {entries : List (Place × List Slot)}
    (hgroups : List.Forall₂ (SignerGroup.Of crates sender) parts groups)
    (hentries : List.Forall₂ (EntryOf crates) parts entries) :
    List.Forall₂ (HasEntry crates sender) groups entries := by
  refine (Aligned.trans hgroups hentries).imp ?_
  rintro group entry ⟨part, hgroup, hplace, hslots⟩
  have hkeys := hslots _ hgroup.built
  refine ⟨hgroup.place.trans hplace.symm, hkeys, fun hsome => ?_⟩
  rw [hplace]
  refine hgroup.signer fun hnone => hsome ?_
  rw [hnone, List.map_nil] at hkeys
  exact List.map_eq_nil_iff.1 hkeys.symm

end Keys

/-- The rows of a user transaction have different keys exactly when the slots of its signature tell
them apart. -/
theorem signatureKeys_nodup_iff {crates : Crates} {tx : TransactionExtraction}
    {rows : List Rows.Signature} {request : UserTransactionRequest} {signature : Input.Signature}
    {data : SignatureData} (h : getSignatures crates tx = .ok (some rows))
    (hrequest : tx.tx_data.userRequest = .ok (some request))
    (hsignature : request.signature = some signature) (hdata : signature.signature = some data) :
    (rows.map signatureKey).Nodup ↔ SlotsApart crates (.string request.sender) data := by
  obtain ⟨request', signature', data', timestamp, groups, hsigned⟩ := getSignatures_groups h
  obtain rfl := Option.some.inj (Outcome.ok.inj (hrequest.symm.trans hsigned.userRequest))
  obtain rfl := Option.some.inj (hsignature.symm.trans hsigned.signed)
  obtain rfl := Option.some.inj (hdata.symm.trans hsigned.signatureData)
  have hentries := hasEntry_of_parts hsigned.ofParts (entryOf_parts data)
  have hkeys : rows.map signatureKey = groups.flatMap (groupKeys tx.version) := by
    rw [hsigned.ofGroups, List.map_flatMap]
    congr 1
    funext group
    rw [SignerGroup.rows, groupKeys, List.map_map, List.map_map]
    rfl
  rw [hkeys, List.nodup_flatMap]
  -- within a group the slots decide, and between groups the signers and the slots
  have hwithin : (∀ group ∈ groups, (groupKeys tx.version group).Nodup) ↔
      ∀ entry ∈ slotted data, entry.2.Nodup :=
    Aligned.forall_mem_iff hentries fun group entry hentry => hentry.nodup_iff
  have hacross : groups.Pairwise (Function.onFun List.Disjoint (groupKeys tx.version)) ↔
      (slotted data).Pairwise fun entry entry' =>
        SameSigner crates (.string request.sender) entry.1 entry'.1 → entry.2.Disjoint entry'.2 :=
    Aligned.pairwise_iff hentries fun group entry group' entry' hentry hentry' =>
      hentry.disjoint_iff hentry'
  rw [hwithin, hacross]
  constructor
  · rintro ⟨hwithin, hacross⟩
    exact ⟨hwithin, hacross⟩
  · intro hapart
    exact ⟨hapart.within, hapart.across⟩

/-- A multi-key account of three keys, of which the first two are the same and only the third has
signed. -/
def sampleMultiKey : SingleSender where
  sender := some {
    type := .known .MultiKey
    signature := some (.MultiKeySignature {
      public_keys := [⟨.known .Ed25519, [1]⟩, ⟨.known .Ed25519, [1]⟩, ⟨.known .Ed25519, [2]⟩]
      signatures := [⟨2, some ⟨.known .Ed25519, some (.Ed25519 [3])⟩⟩]
      signatures_required := 1 }) }

/-- The rows of a sender and of one secondary signer. -/
theorem signatureKeys_nodup_iff_samplePaired :
    ∃ rows, getSignatures sampleCrates (sampleSigned (.MultiAgent samplePaired) .MultiAgent) =
      .ok (some rows) ∧
        ((rows.map signatureKey).Nodup ↔
          SlotsApart sampleCrates (.string "0x1") (.MultiAgent samplePaired)) := by
  obtain ⟨records, h⟩ := exists_signatures_samplePaired
  obtain ⟨rows, rfl⟩ := Option.isSome_iff_exists.1 ((getSignatures_spec h).1.2 ⟨_, rfl⟩)
  exact ⟨rows, h, signatureKeys_nodup_iff h rfl rfl rfl⟩

/-- The first two keys of the account have rows with one key. -/
theorem signatureKeys_not_nodup :
    ¬ ∀ crates tx rows, getSignatures crates tx = .ok (some rows) →
      (rows.map signatureKey).Nodup := by
  intro h
  let tx := sampleSigned (.SingleSender sampleMultiKey) .SingleSender
  have hrows : (getSignatures sampleCrates tx).toOption.map
      (fun records => decide (((records.getD []).map signatureKey).Nodup)) = some false := by
    decide
  obtain ⟨records, hok, hdup⟩ := Outcome.map_toOption_eq_some.1 hrows
  obtain ⟨rows, rfl⟩ := Option.isSome_iff_exists.1 ((getSignatures_spec hok).1.2 ⟨_, rfl⟩)
  exact of_decide_eq_false hdup (h sampleCrates tx rows hok)

end AptosEtl.Airflow
