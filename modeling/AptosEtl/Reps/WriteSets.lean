import AptosEtl.Reps.Payload

/-!
# The write sets of users and of the genesis transaction

A write set is the payload of the genesis transaction, or the data of a user transaction whose
payload type says so. The accessors of a payload dispatch on the data and on the genesis write set
separately. For a script they do the same in both places; a direct write set has no script, which
is an error under the data and no value under the genesis transaction (`encodesAlike_iff`).
-/

namespace AptosEtl.Reps.TxPayloadExtract

open Rust Input

/-- The payload of a user transaction around a write set. -/
def userPayload (writeSet : WriteSet) : TransactionPayload :=
  ⟨.known .WriteSetPayload, some (.WriteSetPayload ⟨some ⟨some writeSet⟩⟩)⟩

/-- What the payload of a user transaction around a write set is extracted to. -/
def ofUser (writeSet : WriteSet) : TxPayloadExtract :=
  ⟨some .WriteSetPayload, some (.WriteSetPayload ⟨some ⟨some writeSet⟩⟩), none⟩

/-- The payload is extracted. -/
theorem tryFrom_userPayload (writeSet : WriteSet) :
    tryFrom (userPayload writeSet) = .ok (ofUser writeSet) := rfl

/-- A write set is encoded to the same payload, or refused, under a user transaction and under the
genesis transaction. -/
def EncodesAlike (crates : Crates) (writeSet : WriteSet) : Prop :=
  ∃ extract, tryFrom (userPayload writeSet) = .ok extract ∧ ∀ payload,
    extract.tryEncode crates = .ok payload ↔ (ofWriteSet writeSet).tryEncode crates = .ok payload

/-! ## Scripts -/

section Script

variable (sws : ScriptWriteSet)

/-- The type arguments of a script are the same in both places. -/
theorem typeArguments_script (crates : Crates) :
    (ofUser (.ScriptWriteSet sws)).typeArguments crates =
    (ofWriteSet (.ScriptWriteSet sws)).typeArguments crates := rfl

/-- Its arguments are the same. -/
theorem arguments_script : (ofUser (.ScriptWriteSet sws)).arguments =
    (ofWriteSet (.ScriptWriteSet sws)).arguments := rfl

/-- Its code is the same. -/
theorem code_script (crates : Crates) : (ofUser (.ScriptWriteSet sws)).code crates =
    (ofWriteSet (.ScriptWriteSet sws)).code crates := rfl

/-- The account that it is executed as is the same. -/
theorem executeAs_script : (ofUser (.ScriptWriteSet sws)).executeAs =
    (ofWriteSet (.ScriptWriteSet sws)).executeAs := rfl

/-- A script is encoded to the same payload, or refused with the same error. -/
theorem tryEncode_script (crates : Crates) :
    (ofUser (.ScriptWriteSet sws)).tryEncode crates =
      (ofWriteSet (.ScriptWriteSet sws)).tryEncode crates := by
  unfold tryEncode
  rw [typeArguments_script, arguments_script, code_script, executeAs_script]
  rfl

end Script

/-! ## Direct write sets -/

/-- Under a user transaction a direct write set is refused, for having no script. -/
theorem tryEncode_ofUser_direct (crates : Crates) :
    (ofUser .DirectWriteSet).tryEncode crates = .err .NoScriptPayloadInWriteSetPayload := rfl

/-- Under the genesis transaction a direct write set has no columns. -/
theorem tryEncode_ofWriteSet_direct (crates : Crates) :
    (ofWriteSet .DirectWriteSet).tryEncode crates =
      .ok ⟨none, [], [], none, none, none, none⟩ := rfl

/-- A write set is encoded alike exactly when it is a script. -/
theorem encodesAlike_iff (crates : Crates) (writeSet : WriteSet) :
    EncodesAlike crates writeSet ↔ ∃ sws, writeSet = .ScriptWriteSet sws := by
  constructor
  · rintro ⟨extract, hextract, halike⟩
    cases writeSet with
    | ScriptWriteSet sws => exact ⟨sws, rfl⟩
    | DirectWriteSet =>
      obtain rfl := Outcome.ok.inj hextract
      have hrefused := (halike _).2 (tryEncode_ofWriteSet_direct crates)
      exact nomatch (tryEncode_ofUser_direct crates).symm.trans hrefused
  · rintro ⟨sws, rfl⟩
    refine ⟨ofUser (.ScriptWriteSet sws), tryFrom_userPayload _, fun payload => ?_⟩
    rw [tryEncode_script]

/-- A direct write set is refused under a user transaction, and not under the genesis
transaction. -/
theorem not_encodesAlike_direct :
    ¬ ∀ (crates : Crates) (writeSet : WriteSet), EncodesAlike crates writeSet := by
  intro h
  obtain ⟨extract, hextract, halike⟩ := h sampleCrates .DirectWriteSet
  obtain rfl := Outcome.ok.inj hextract
  exact nomatch (halike ⟨none, [], [], none, none, none, none⟩).2 rfl

end AptosEtl.Reps.TxPayloadExtract
