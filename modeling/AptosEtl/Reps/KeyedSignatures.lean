import AptosEtl.Lib.Aligned
import AptosEtl.Lib.Slots
import AptosEtl.Reps.Signatures

/-!
# Signatures and the keys they are attached to

The signatures of a multi-Ed25519 or a multi-key signature say by an index which public key they
belong to. Both loops put them into a map under that index and let each key take the signature of
its own number. An index that comes twice is an error, and an index beyond the keys is not looked
at: such a signature stays in the map. So the two conversions do what they are for exactly when, for
distinct indices, these are all in range (`keyed_signatures_exact`).
-/

namespace AptosEtl.Reps

open Rust Input

namespace SignatureSubRecord

/-! ## The map of signatures -/

/-- Inserting an index succeeds when it is new. -/
theorem insertNew_eq_ok {sigs sigs' : Sigs} {index : ℕ} {sigval : Rows.SignatureValue}
    {duplicate : SignatureError} :
    sigs.insertNew index sigval duplicate = .ok sigs' ↔
      sigs.lookup index = none ∧ sigs' = (index, sigval) :: sigs := by
  unfold Sigs.insertNew
  cases sigs.lookup index with
  | none => simp [eq_comm]
  | some old => simp

/-- What the loops put into the map: the entries in reverse, if their indices are distinct. -/
theorem tryFold_insertNew_eq_ok {α : Type} {value : α → Outcome SignatureError Rows.SignatureValue}
    {index : α → ℕ} {duplicate : α → SignatureError} {xs : List α} {start sigs : Sigs} :
    Outcome.tryFold (fun sigs x => (value x).bind fun sigval =>
        Sigs.insertNew sigs (index x) sigval (duplicate x)) start xs = .ok sigs ↔
      ∃ entries, Outcome.tryMap (fun x => (value x).bind fun sigval =>
          .ok (index x, sigval)) xs = .ok entries ∧
        (entries.map Prod.fst).Nodup ∧ (∀ entry ∈ entries, start.lookup entry.1 = none) ∧
          sigs = entries.reverse ++ start := by
  induction xs generalizing start with
  | nil =>
    simp only [Outcome.tryFold, Outcome.tryMap, Outcome.ok.injEq]
    constructor
    · rintro rfl
      exact ⟨[], rfl, List.nodup_nil, List.forall_mem_nil _, rfl⟩
    · rintro ⟨_, rfl, -, -, rfl⟩
      rfl
  | cons x xs ih =>
    -- an index is new to the longer map when it is new to the map and not the one just put in
    have hnew : ∀ (sigval : Rows.SignatureValue) (k : ℕ),
        List.lookup k ((index x, sigval) :: start) = none ↔
          k ≠ index x ∧ start.lookup k = none := by
      intro sigval k
      rw [Slots.lookup_eq_none_iff_notMem, Slots.lookup_eq_none_iff_notMem, List.map_cons,
        List.mem_cons, not_or]
    rw [Outcome.tryFold, Outcome.bind_eq_ok]
    constructor
    · rintro ⟨sigs', hstep, hrest⟩
      obtain ⟨sigval, hsigval, hstep⟩ := Outcome.bind_eq_ok.1 hstep
      obtain ⟨hnone, rfl⟩ := insertNew_eq_ok.1 hstep
      obtain ⟨entries, hentries, hnodup, hfresh, rfl⟩ := ih.1 hrest
      refine ⟨(index x, sigval) :: entries, ?_, ?_, ?_, ?_⟩
      · rw [Outcome.tryMap, hsigval, Outcome.ok_bind, Outcome.ok_bind, hentries, Outcome.ok_bind]
      · rw [List.map_cons, List.nodup_cons]
        refine ⟨?_, hnodup⟩
        intro hmem
        obtain ⟨entry, hentry, heq⟩ := List.mem_map.1 hmem
        exact ((hnew sigval entry.1).1 (hfresh entry hentry)).1 heq
      · exact List.forall_mem_cons.2 ⟨hnone, fun entry hentry =>
          ((hnew sigval entry.1).1 (hfresh entry hentry)).2⟩
      · rw [List.reverse_cons, List.append_assoc, List.singleton_append]
    · rintro ⟨entries, hentries, hnodup, hfresh, rfl⟩
      rw [Outcome.tryMap] at hentries
      obtain ⟨entry, hentry, hentries⟩ := Outcome.bind_eq_ok.1 hentries
      obtain ⟨sigval, hsigval, hentry⟩ := Outcome.bind_eq_ok.1 hentry
      obtain ⟨rest, hrest, hentries⟩ := Outcome.bind_eq_ok.1 hentries
      obtain rfl := Outcome.ok.inj hentry
      obtain rfl := Outcome.ok.inj hentries
      rw [List.map_cons, List.nodup_cons] at hnodup
      obtain ⟨hnone, hfresh⟩ := List.forall_mem_cons.1 hfresh
      refine ⟨_, Outcome.bind_eq_ok.2 ⟨sigval, hsigval, insertNew_eq_ok.2 ⟨hnone, rfl⟩⟩,
        ih.2 ⟨rest, hrest, hnodup.2, ?_, ?_⟩⟩
      · intro entry hentry
        refine (hnew sigval entry.1).2 ⟨?_, hfresh entry hentry⟩
        intro heq
        exact hnodup.1 (List.mem_map.2 ⟨entry, hentry, heq⟩)
      · rw [List.reverse_cons, List.append_assoc, List.singleton_append]

/-- What a loop that has the value at hand puts into the map. -/
theorem tryFold_insertNew_map_eq_ok {α : Type} {entry : α → ℕ × Rows.SignatureValue}
    {duplicate : α → SignatureError} {xs : List α} {sigs : Sigs} :
    Outcome.tryFold (fun sigs x =>
        Sigs.insertNew sigs (entry x).1 (entry x).2 (duplicate x)) [] xs = .ok sigs ↔
      ((xs.map entry).map Prod.fst).Nodup ∧ sigs = (xs.map entry).reverse := by
  have hcollected : Outcome.tryMap (fun x => (Outcome.ok (entry x).2).bind fun sigval =>
      .ok ((entry x).1, sigval)) xs = (Outcome.ok (xs.map entry) : Outcome SignatureError _) := by
    induction xs with
    | nil => rfl
    | cons x xs ih => rw [Outcome.tryMap, ih, List.map_cons, Outcome.ok_bind, Outcome.ok_bind]; rfl
  refine (@tryFold_insertNew_eq_ok _ (fun x => .ok (entry x).2) _ _ _ _ _).trans ?_
  rw [hcollected]
  simp [eq_comm]

/-! ## Records and their signatures -/

/-- Each public key has its own record, in order, with the threshold of the message and with the
signature of its own index where there is one, and every signature is in a record. -/
structure Attached {κ : Type} (own : κ → Rows.PublicKey → Prop) (keys : List κ)
    (threshold : UInt32) (entries : List (ℕ × Rows.SignatureValue))
    (records : List SignatureSubRecord) : Prop where
  keys : List.Forall₂ (fun key record => own key record.public_key) keys records
  threshold : ∀ record ∈ records, record.threshold = some threshold
  signature : ∀ i record, records[i]? = some record → ∀ sigval,
    record.signature = some sigval ↔ (i, sigval) ∈ entries
  none_lost : (records.filter (·.signature.isSome)).length = entries.length

/-- Records that take their signatures from the slots have all of them exactly when every index is
that of a public key. -/
theorem attached_iff {κ : Type} {own : κ → Rows.PublicKey → Prop} {keys : List κ}
    {threshold : UInt32} {entries : List (ℕ × Rows.SignatureValue)}
    {records : List SignatureSubRecord} (hnodup : (entries.map Prod.fst).Nodup)
    (hkeys : List.Forall₂ (fun key record => own key record.public_key) keys records)
    (hthreshold : ∀ record ∈ records, record.threshold = some threshold)
    (hslots : records.map SignatureSubRecord.signature = Slots.fill entries keys.length) :
    Attached own keys threshold entries records ↔ ∀ entry ∈ entries, entry.1 < keys.length := by
  have hfilled : (records.filter (·.signature.isSome)).length =
      ((Slots.fill entries keys.length).filter Option.isSome).length := by
    rw [← hslots, List.filter_map, List.length_map]
    rfl
  rw [← Slots.filled_fill_eq_length_iff hnodup, ← hfilled]
  constructor
  · exact Attached.none_lost
  · intro hall
    refine ⟨hkeys, hthreshold, ?_, hall⟩
    intro i record hrecord sigval
    have hlt : i < keys.length := by
      rw [hkeys.length_eq]
      exact (List.getElem?_eq_some_iff.1 hrecord).1
    rw [← Slots.getElem?_fill hnodup hlt, ← hslots, List.getElem?_map, hrecord, Option.map_some,
      Option.some.injEq]

/-! ## Multi-Ed25519 signatures -/

variable {crates : Crates}

/-- A signature as it is published, under its index. -/
def multiEd25519Entry (crates : Crates) : Bytes × UInt32 → ℕ × Rows.SignatureValue
  | (sig, index) => (index.toNat, ⟨"ed25519", (HashValue.mk sig).encode crates, some index⟩)

/-- The signatures of a multi-Ed25519 signature as they are published, with their indices. -/
def multiEd25519Entries (crates : Crates) (value : MultiEd25519Signature) :
    List (ℕ × Rows.SignatureValue) :=
  (value.signatures.zip value.public_key_indices).map (multiEd25519Entry crates)

/-- The record of a public key of a multi-Ed25519 signature. -/
def multiEd25519Record (crates : Crates) (value : MultiEd25519Signature) (index : ℕ)
    (pubkey : Bytes) : SignatureSubRecord where
  buildtype := .DeferredFallback .MultiEd25519
  public_key := ⟨"ed25519", (HashValue.mk pubkey).encode crates, some (UInt32.ofNat index)⟩
  signature := (multiEd25519Entries crates value).lookup index
  threshold := some value.threshold
  signer := .Deferred
  is_secondary := .Present none
  is_feepayer := .Present none
  is_sender := .Present none

/-- Numbers of distinct indices are distinct. -/
theorem nodup_map_toNat {indices : List UInt32} :
    (indices.map UInt32.toNat).Nodup ↔ indices.Nodup :=
  List.nodup_map_iff fun _ _ => UInt32.toNat_inj.1

/-- The indices of the entries, one for each signature. -/
theorem map_fst_multiEd25519Entries {value : MultiEd25519Signature}
    (h : value.signatures.length = value.public_key_indices.length) :
    (multiEd25519Entries crates value).map Prod.fst =
      value.public_key_indices.map UInt32.toNat := by
  have hlength : value.public_key_indices.length ≤ value.signatures.length := by omega
  calc (multiEd25519Entries crates value).map Prod.fst
      = (value.signatures.zip value.public_key_indices).map (UInt32.toNat ∘ Prod.snd) :=
        List.map_map
    _ = ((value.signatures.zip value.public_key_indices).map Prod.snd).map UInt32.toNat :=
        List.map_map.symm
    _ = value.public_key_indices.map UInt32.toNat := by rw [List.map_snd_zip hlength]

/-- A multi-Ed25519 signature is converted when each signature has an index and no index comes
twice. -/
theorem fromMultied25519_eq_ok {value : MultiEd25519Signature}
    {records : List SignatureSubRecord} :
    fromMultied25519 crates value = .ok records ↔
      value.signatures.length = value.public_key_indices.length ∧
        value.public_key_indices.Nodup ∧
          records = value.public_keys.mapIdx (multiEd25519Record crates value) := by
  have hfold : ∀ sigs, Outcome.tryFold (fun sigs (x : Bytes × UInt32) =>
      Sigs.insertNew sigs x.2.toNat ⟨"ed25519", (HashValue.mk x.1).encode crates, some x.2⟩
        (.MultiEd25519MultiplePubkeyIndexMatch x.2.toNat)) []
        (value.signatures.zip value.public_key_indices) = .ok sigs ↔
      ((multiEd25519Entries crates value).map Prod.fst).Nodup ∧
        sigs = (multiEd25519Entries crates value).reverse :=
    fun sigs => @tryFold_insertNew_map_eq_ok _ (multiEd25519Entry crates) _ _ _
  rw [fromMultied25519]
  by_cases hlength : value.signatures.length = value.public_key_indices.length
  · rw [if_neg (not_not.2 hlength), Outcome.bind_eq_ok, ← nodup_map_toNat,
      ← map_fst_multiEd25519Entries hlength]
    simp only [hfold]
    constructor
    · rintro ⟨sigs, ⟨hnodup, rfl⟩, h⟩
      simp only [Slots.lookup_reverse hnodup] at h
      exact ⟨hlength, hnodup, (Outcome.ok.inj h).symm⟩
    · rintro ⟨-, hnodup, rfl⟩
      refine ⟨_, ⟨hnodup, rfl⟩, ?_⟩
      simp only [Slots.lookup_reverse hnodup]
      rfl
  · rw [if_pos hlength]
    simp [hlength]

/-- The property of a multi-Ed25519 signature: it is converted exactly when each signature has one
index, no index comes twice and every index is that of a public key, and then every signature is
attached to its key. -/
def MultiEd25519Keyed (crates : Crates) (value : MultiEd25519Signature) : Prop :=
  ((∃ records, fromMultied25519 crates value = .ok records) ↔
      value.signatures.length = value.public_key_indices.length ∧
        value.public_key_indices.Nodup ∧
          ∀ index ∈ value.public_key_indices, index.toNat < value.public_keys.length) ∧
    ∀ records, fromMultied25519 crates value = .ok records →
      Attached (fun pubkey publicKey => publicKey.value = (HashValue.mk pubkey).encode crates)
        value.public_keys value.threshold (multiEd25519Entries crates value) records

/-- The indices of the entries are in range when those of the message are. -/
theorem forall_multiEd25519Entries {value : MultiEd25519Signature} {P : ℕ → Prop}
    (h : value.signatures.length = value.public_key_indices.length) :
    (∀ entry ∈ multiEd25519Entries crates value, P entry.1) ↔
      ∀ index ∈ value.public_key_indices, P index.toNat := by
  rw [← List.forall_mem_map (P := P), map_fst_multiEd25519Entries h, List.forall_mem_map]

/-- The records of a multi-Ed25519 signature are attached when every index is that of a key. -/
theorem attached_multiEd25519 {value : MultiEd25519Signature} {records : List SignatureSubRecord}
    (h : fromMultied25519 crates value = .ok records) :
    Attached (fun pubkey publicKey => publicKey.value = (HashValue.mk pubkey).encode crates)
        value.public_keys value.threshold (multiEd25519Entries crates value) records ↔
      ∀ index ∈ value.public_key_indices, index.toNat < value.public_keys.length := by
  obtain ⟨hlength, hnodup, rfl⟩ := fromMultied25519_eq_ok.1 h
  rw [← nodup_map_toNat, ← map_fst_multiEd25519Entries hlength] at hnodup
  rw [← forall_multiEd25519Entries (P := fun i => i < value.public_keys.length) hlength]
  refine attached_iff hnodup ?_ ?_ ?_
  · rw [List.forall₂_iff_get]
    refine ⟨List.length_mapIdx.symm, fun i hi hi' => ?_⟩
    simp [multiEd25519Record]
  · intro record hrecord
    obtain ⟨i, hi, rfl⟩ := List.mem_mapIdx.1 hrecord
    rfl
  · apply List.ext_getElem
    · simp [Slots.fill]
    · intro i hi hi'
      simp [Slots.fill, multiEd25519Record]

/-- The multi-Ed25519 part: what goes wrong is an index beyond the keys in a message that is
otherwise in order. -/
theorem multiEd25519Keyed_iff (value : MultiEd25519Signature) :
    MultiEd25519Keyed crates value ↔
      (value.signatures.length = value.public_key_indices.length →
        value.public_key_indices.Nodup →
          ∀ index ∈ value.public_key_indices, index.toNat < value.public_keys.length) := by
  have hconverted : (∃ records, fromMultied25519 crates value = .ok records) ↔
      value.signatures.length = value.public_key_indices.length ∧
        value.public_key_indices.Nodup := by
    simp [fromMultied25519_eq_ok]
  constructor
  · rintro ⟨hiff, -⟩ hlength hnodup
    exact (hiff.1 (hconverted.2 ⟨hlength, hnodup⟩)).2.2
  · intro hrange
    refine ⟨?_, fun records h => ?_⟩
    · rw [hconverted]
      exact ⟨fun ⟨hlength, hnodup⟩ => ⟨hlength, hnodup, hrange hlength hnodup⟩,
        fun ⟨hlength, hnodup, _⟩ => ⟨hlength, hnodup⟩⟩
    · obtain ⟨hlength, hnodup, -⟩ := fromMultied25519_eq_ok.1 h
      exact (attached_multiEd25519 h).2 (hrange hlength hnodup)

/-! ## Multi-key signatures -/

/-- A signature of a multi-key signature as it is published, under its index. -/
def multiKeyEntry (crates : Crates) (sig : IndexedSignature) :
    Outcome SignatureError (ℕ × Rows.SignatureValue) :=
  ((SigValueExtraction.tryFromIndexed sig).mapErr .SignatureValueIssue |>.bind fun extract =>
    (extract.tryInto crates).mapErr .SignatureValueIssue).bind fun sigval =>
      .ok (sig.index.toNat, sigval)

/-- The record of a public key of a multi-key signature. -/
def multiKeyRecord (value : MultiKeySignature) (entries : List (ℕ × Rows.SignatureValue))
    (publicKey : Rows.PublicKey) (index : ℕ) : SignatureSubRecord where
  buildtype := .Deferred
  public_key := publicKey
  signature := entries.lookup index
  threshold := some value.signatures_required
  signer := .Deferred
  is_secondary := .Present none
  is_feepayer := .Present none
  is_sender := .Present none

/-- The indices of the entries. -/
theorem map_fst_of_multiKeyEntry {value : MultiKeySignature}
    {entries : List (ℕ × Rows.SignatureValue)}
    (h : Outcome.tryMap (multiKeyEntry crates) value.signatures = .ok entries) :
    entries.map Prod.fst = value.signatures.map fun sig => sig.index.toNat := by
  refine (Aligned.map_eq_map ((Outcome.tryMap_eq_ok.1 h).imp ?_)).symm
  intro sig entry hentry
  obtain ⟨sigval, -, hentry⟩ := Outcome.bind_eq_ok.1 hentry
  rw [← Outcome.ok.inj hentry]

/-- A multi-key signature is converted when its signatures and its keys are and no index comes
twice. -/
theorem fromMultikeysignature_eq_ok {value : MultiKeySignature}
    {records : List SignatureSubRecord} :
    fromMultikeysignature crates value = .ok records ↔
      ∃ entries, Outcome.tryMap (multiKeyEntry crates) value.signatures = .ok entries ∧
        (entries.map Prod.fst).Nodup ∧
          List.Forall₂ (fun key record => ∃ publicKey,
            publicKeyTryInto crates key.1 = .ok publicKey ∧
              record = multiKeyRecord value entries publicKey key.2)
            value.public_keys.zipIdx records := by
  have hfold : ∀ sigs, Outcome.tryFold (fun sigs sig =>
      ((SigValueExtraction.tryFromIndexed sig).mapErr SignatureError.SignatureValueIssue).bind
        fun extract => ((extract.tryInto crates).mapErr .SignatureValueIssue).bind fun sigval =>
          Sigs.insertNew sigs sig.index.toNat sigval
            (.MultiKeyMultipleSignatureIndexMatch sig.index.toNat)) [] value.signatures = .ok sigs ↔
      ∃ entries, Outcome.tryMap (multiKeyEntry crates) value.signatures = .ok entries ∧
        (entries.map Prod.fst).Nodup ∧ sigs = entries.reverse := by
    intro sigs
    simp only [← Outcome.bind_assoc]
    rw [tryFold_insertNew_eq_ok]
    simp only [List.append_nil, List.lookup_nil, implies_true, true_and]
    rfl
  rw [fromMultikeysignature, Outcome.bind_eq_ok]
  simp only [hfold, Outcome.tryMap_eq_ok]
  constructor
  · rintro ⟨_, ⟨entries, hentries, hnodup, rfl⟩, hrecords⟩
    refine ⟨entries, hentries, hnodup, hrecords.imp ?_⟩
    rintro key record hrecord
    obtain ⟨publicKey, hkey, hrecord⟩ := Outcome.bind_eq_ok.1 hrecord
    refine ⟨publicKey, Outcome.mapErr_eq_ok.1 hkey, ?_⟩
    rw [← Outcome.ok.inj hrecord, Slots.lookup_reverse hnodup]
    rfl
  · rintro ⟨entries, hentries, hnodup, hrecords⟩
    refine ⟨_, ⟨entries, hentries, hnodup, rfl⟩, hrecords.imp ?_⟩
    rintro key record ⟨publicKey, hkey, rfl⟩
    refine Outcome.bind_eq_ok.2 ⟨publicKey, Outcome.mapErr_eq_ok.2 hkey, ?_⟩
    rw [Slots.lookup_reverse hnodup]
    rfl

/-- The keys and the signatures of a multi-key signature are individually convertible. -/
structure Convertible (crates : Crates) (value : MultiKeySignature) : Prop where
  keys : ∀ key ∈ value.public_keys, ∃ publicKey, publicKeyTryInto crates key = .ok publicKey
  signatures : ∀ sig ∈ value.signatures, ∃ entry, multiKeyEntry crates sig = .ok entry

/-- The property of a multi-key signature: it is converted exactly when no index comes twice and
every index is that of a public key, and then every signature is attached to its key. -/
def MultiKeyKeyed (crates : Crates) (value : MultiKeySignature) : Prop :=
  ((∃ records, fromMultikeysignature crates value = .ok records) ↔
      (value.signatures.map IndexedSignature.index).Nodup ∧
        ∀ sig ∈ value.signatures, sig.index.toNat < value.public_keys.length) ∧
    ∀ entries, Outcome.tryMap (multiKeyEntry crates) value.signatures = .ok entries →
      ∀ records, fromMultikeysignature crates value = .ok records →
        Attached (fun key publicKey => publicKeyTryInto crates key = .ok publicKey)
          value.public_keys value.signatures_required entries records

/-- The entries have distinct indices when the signatures have. -/
theorem nodup_of_multiKeyEntry {value : MultiKeySignature}
    {entries : List (ℕ × Rows.SignatureValue)}
    (h : Outcome.tryMap (multiKeyEntry crates) value.signatures = .ok entries) :
    (entries.map Prod.fst).Nodup ↔ (value.signatures.map IndexedSignature.index).Nodup := by
  rw [map_fst_of_multiKeyEntry h, ← nodup_map_toNat, List.map_map]
  rfl

/-- Where the signatures and the keys are convertible, distinct indices are all that it takes. -/
theorem exists_fromMultikeysignature_iff {value : MultiKeySignature}
    (h : Convertible crates value) :
    (∃ records, fromMultikeysignature crates value = .ok records) ↔
      (value.signatures.map IndexedSignature.index).Nodup := by
  obtain ⟨entries, hentries⟩ := Outcome.exists_tryMap_iff.2 h.signatures
  constructor
  · rintro ⟨records, hrecords⟩
    obtain ⟨entries', hentries', hnodup, -⟩ := fromMultikeysignature_eq_ok.1 hrecords
    exact (nodup_of_multiKeyEntry hentries').1 hnodup
  · intro hnodup
    have hkeys : ∀ key ∈ value.public_keys.zipIdx, ∃ record, ∃ publicKey,
        publicKeyTryInto crates key.1 = .ok publicKey ∧
          record = multiKeyRecord value entries publicKey key.2 := by
      intro key hkey
      obtain ⟨publicKey, hpublicKey⟩ := h.keys key.1 (List.fst_mem_of_mem_zipIdx hkey)
      exact ⟨_, publicKey, hpublicKey, rfl⟩
    obtain ⟨records, hrecords⟩ := Aligned.exists_of_forall hkeys
    exact ⟨records, fromMultikeysignature_eq_ok.2
      ⟨entries, hentries, (nodup_of_multiKeyEntry hentries).2 hnodup, hrecords⟩⟩

/-- The records of a multi-key signature are attached when every index is that of a key. -/
theorem attached_multiKey {value : MultiKeySignature} {entries : List (ℕ × Rows.SignatureValue)}
    {records : List SignatureSubRecord}
    (hentries : Outcome.tryMap (multiKeyEntry crates) value.signatures = .ok entries)
    (h : fromMultikeysignature crates value = .ok records) :
    Attached (fun key publicKey => publicKeyTryInto crates key = .ok publicKey) value.public_keys
        value.signatures_required entries records ↔
      ∀ sig ∈ value.signatures, sig.index.toNat < value.public_keys.length := by
  obtain ⟨entries', hentries', hnodup, hrecords⟩ := fromMultikeysignature_eq_ok.1 h
  obtain rfl := Outcome.ok.inj (hentries.symm.trans hentries')
  have hrange : (∀ entry ∈ entries, entry.1 < value.public_keys.length) ↔
      ∀ sig ∈ value.signatures, sig.index.toNat < value.public_keys.length := by
    rw [← List.forall_mem_map (P := fun i => i < value.public_keys.length),
      map_fst_of_multiKeyEntry hentries, List.forall_mem_map]
  rw [← hrange]
  refine attached_iff hnodup ?_ ?_ ?_
  · rw [← List.zipIdx_map_fst 0 value.public_keys, List.forall₂_map_left_iff]
    refine hrecords.imp ?_
    rintro key record ⟨publicKey, hkey, rfl⟩
    exact hkey
  · intro record hrecord
    obtain ⟨key, -, publicKey, -, rfl⟩ := Aligned.exists_of_mem_right hrecords hrecord
    rfl
  · have hslots : value.public_keys.zipIdx.map (fun key => entries.lookup key.2) =
        records.map SignatureSubRecord.signature := by
      refine Aligned.map_eq_map (hrecords.imp ?_)
      rintro key record ⟨publicKey, -, rfl⟩
      rfl
    have hnumbers : value.public_keys.zipIdx.map Prod.snd =
        List.range value.public_keys.length := by
      rw [List.zipIdx_map_snd, List.range_eq_range']
    rw [← hslots, Slots.fill, ← hnumbers, List.map_map]
    rfl

/-- The multi-key part: what goes wrong is an index beyond the keys in a message that is otherwise
in order. -/
theorem multiKeyKeyed_iff {value : MultiKeySignature} (h : Convertible crates value) :
    MultiKeyKeyed crates value ↔
      ((value.signatures.map IndexedSignature.index).Nodup →
        ∀ sig ∈ value.signatures, sig.index.toNat < value.public_keys.length) := by
  have hconverted := exists_fromMultikeysignature_iff h
  constructor
  · rintro ⟨hiff, -⟩ hnodup
    exact (hiff.1 (hconverted.2 hnodup)).2
  · intro hrange
    refine ⟨?_, fun entries hentries records hrecords => ?_⟩
    · rw [hconverted]
      exact ⟨fun hnodup => ⟨hnodup, hrange hnodup⟩, And.left⟩
    · exact (attached_multiKey hentries hrecords).2 (hrange (hconverted.1 ⟨records, hrecords⟩))

/-- Multi-key signatures are attached to the right keys and none is lost, but for indices beyond the
keys: either conversion does what it is for exactly when, in a message whose signatures have one
index each and distinct ones, every index is smaller than the number of public keys. -/
theorem keyed_signatures_exact (multiEd25519 : MultiEd25519Signature)
    (multiKey : MultiKeySignature) (h : Convertible crates multiKey) :
    (MultiEd25519Keyed crates multiEd25519 ↔
      (multiEd25519.signatures.length = multiEd25519.public_key_indices.length →
        multiEd25519.public_key_indices.Nodup → ∀ index ∈ multiEd25519.public_key_indices,
          index.toNat < multiEd25519.public_keys.length)) ∧
      (MultiKeyKeyed crates multiKey ↔
        ((multiKey.signatures.map IndexedSignature.index).Nodup →
          ∀ sig ∈ multiKey.signatures, sig.index.toNat < multiKey.public_keys.length)) :=
  ⟨multiEd25519Keyed_iff multiEd25519, multiKeyKeyed_iff h⟩

/-- Two of three keys sign. -/
def sampleMultiKey : MultiKeySignature where
  public_keys := List.replicate 3 ⟨.known .Ed25519, [7]⟩
  signatures := [⟨2, some ⟨.known .Ed25519, some (.Ed25519 [9])⟩⟩,
    ⟨0, some ⟨.known .Ed25519, some (.Ed25519 [8])⟩⟩]
  signatures_required := 2

/-- Keys and signatures of Ed25519 are convertible. -/
theorem convertible_sampleMultiKey : Convertible sampleCrates sampleMultiKey where
  keys := by
    intro key hkey
    obtain rfl := List.eq_of_mem_replicate hkey
    exact ⟨_, rfl⟩
  signatures := List.forall_mem_cons.2 ⟨⟨_, rfl⟩, List.forall_mem_singleton.2 ⟨_, rfl⟩⟩

/-- Two of three keys sign, in either kind of message: the signatures are attached. -/
theorem keyed_signatures_exact_sample :
    MultiEd25519Keyed sampleCrates ⟨[[7], [7], [7]], [[9], [8]], 2, [2, 0]⟩ ∧
      MultiKeyKeyed sampleCrates sampleMultiKey := by
  have hexact := keyed_signatures_exact ⟨[[7], [7], [7]], [[9], [8]], 2, [2, 0]⟩ sampleMultiKey
    convertible_sampleMultiKey
  exact ⟨hexact.1.2 fun _ _ => by simp, hexact.2.2 fun _ => by simp [sampleMultiKey]⟩

/-- One public key and one signature, of which the index is 1: the conversion succeeds and the
signature is lost. -/
theorem not_multiEd25519Keyed :
    (∃ record, fromMultied25519 sampleCrates ⟨[[7]], [[9]], 1, [1]⟩ = .ok [record] ∧
        record.signature = none) ∧
      ¬ MultiEd25519Keyed sampleCrates ⟨[[7]], [[9]], 1, [1]⟩ := by
  refine ⟨⟨_, rfl, rfl⟩, ?_⟩
  rintro ⟨hiff, -⟩
  have hrange := (hiff.1 ⟨_, rfl⟩).2.2 1 (by decide)
  exact absurd hrange (by decide)

end SignatureSubRecord

end AptosEtl.Reps
