import AptosEtl.Tables.All

/-!
# The kinds of the changes

A change keeps its kind beside the record of its family, and three functions read the kind again:
the aggregate of a transaction row, which takes the known kinds out of a map, `convertChangeType`,
which has no case for the unspecified kind, and the columns of the two tables that accept the kinds
of their own family only. Each of them has an error for a kind that does not fit.

The conversion of a transaction's info gives well-formed changes only, and none of these errors is
raised on them.
-/

namespace AptosEtl.Tables

open Rust Input Reps

/-! ## The kind of one change -/

/-- The errors of a change whose kind is unspecified, or not one of its family. -/
def ChangeError.OfKind : ChangeError → Prop
  | .UnspecifiedType => True
  | .InvalidChangeTypeForRecord _ => True
  | _ => False

/-- A specified kind is converted. -/
theorem exists_convertChangeType {kind : Input.ChangeType} (h : kind ≠ .Unspecified) :
    ∃ chtype, convertChangeType kind = .ok chtype := by
  cases kind with
  | Unspecified => exact absurd rfl h
  | DeleteModule => exact ⟨_, rfl⟩
  | DeleteResource => exact ⟨_, rfl⟩
  | DeleteTableItem => exact ⟨_, rfl⟩
  | WriteModule => exact ⟨_, rfl⟩
  | WriteResource => exact ⟨_, rfl⟩
  | WriteTableItem => exact ⟨_, rfl⟩

/-- The converted kind of a well-formed resource is one of the table of resources. -/
theorem exists_resourceChangeType {resource : IncompleteResourceRecord} {chtype : ChangeType}
    (h : (IncompleteChangeRecord.Resource resource).WellFormed)
    (hchtype : convertChangeType resource.change_type = .ok chtype) :
    ∃ text, resourceChangeType chtype = .ok text := by
  rcases h with hkind | hkind
  · rw [hkind] at hchtype
    obtain rfl := Outcome.ok.inj hchtype
    exact ⟨_, rfl⟩
  · rw [hkind] at hchtype
    obtain rfl := Outcome.ok.inj hchtype
    exact ⟨_, rfl⟩

/-- The converted kind of a well-formed table item is one of the table of table items. -/
theorem exists_tableChangeType {tableitem : IncompleteTableItemRecord} {chtype : ChangeType}
    (h : (IncompleteChangeRecord.TableItem tableitem).WellFormed)
    (hchtype : convertChangeType tableitem.change_type = .ok chtype) :
    ∃ text, tableChangeType chtype = .ok text := by
  rcases h with hkind | hkind
  · rw [hkind] at hchtype
    obtain rfl := Outcome.ok.inj hchtype
    exact ⟨_, rfl⟩
  · rw [hkind] at hchtype
    obtain rfl := Outcome.ok.inj hchtype
    exact ⟨_, rfl⟩

/-! ## The errors of the pass -/

section Raises

variable {crates : Crates} {tx : TransactionExtraction} {columns : TxColumns}
  {change : ChangeColumns}

/-- The shared columns of a well-formed change fail for another reason than its kind. -/
theorem changeColumns_raisesOnly {record : IncompleteChangeRecord} (h : record.WellFormed)
    (index : ℕ) : (changeColumns crates record index).RaisesOnly (¬ ·.OfKind) := by
  obtain ⟨chtype, hchtype⟩ := exists_convertChangeType (getType_ne_unspecified h)
  unfold changeColumns
  rw [hchtype, Outcome.ok_bind]
  refine (Outcome.raisesOnly_expect _ _ _).bind fun address _ => ?_
  refine (Outcome.raisesOnly_mapErr (fun _ => id) _).bind fun addr _ => ?_
  exact (Outcome.raisesOnly_expect _ _ _).bind fun _ _ => Outcome.raisesOnly_ok _ _

/-- The columns of a module do not depend on a kind. -/
theorem moduleColumns_raisesOnly (data : Option MoveModuleBytecode) :
    (moduleColumns crates data).RaisesOnly (¬ ·.OfKind) := by
  unfold moduleColumns
  split
  · split
    · unfold abiColumns
      refine (Outcome.raisesOnly_mapErr (fun _ => id) _).bind fun extraction _ => ?_
      refine (Outcome.raisesOnly_mapErr (fun _ => id) _).bind fun friends _ => ?_
      refine (Outcome.raisesOnly_mapErr (fun _ => id) _).bind fun exposed _ => ?_
      exact (Outcome.raisesOnly_mapErr (fun _ => id) _).bind fun _ _ => Outcome.raisesOnly_ok _ _
    · exact Outcome.raisesOnly_ok _ _
  · exact Outcome.raisesOnly_ok _ _

/-- The row of a module does not depend on its kind. -/
theorem moduleRow_raisesOnly (module : IncompleteModuleRecord) :
    (moduleRow crates tx columns change module).RaisesOnly (¬ ·.OfKind) := by
  refine (moduleColumns_raisesOnly _).bind fun data _ => ?_
  exact (Outcome.raisesOnly_mapErr (fun _ => id) _).bind fun _ _ => Outcome.raisesOnly_ok _ _

/-- The row of a resource fails for another reason than its kind, where the kind is one of the
table. -/
theorem resourceRow_raisesOnly {text : String} (h : resourceChangeType change.chtype = .ok text)
    (resource : IncompleteResourceRecord) :
    (resourceRow crates tx columns change resource).RaisesOnly (¬ ·.OfKind) := by
  refine (Outcome.raisesOnly_mapErr (fun _ => id) _).bind fun address _ => ?_
  rw [h, Outcome.ok_bind]
  refine Outcome.RaisesOnly.bind ?_ fun _ _ => Outcome.raisesOnly_ok _ _
  cases resource.struct_tag with
  | none => exact Outcome.raisesOnly_ok _ _
  | some structTag =>
    exact (Outcome.raisesOnly_mapErr (fun _ => id) _).bind fun _ _ => Outcome.raisesOnly_ok _ _

/-- The row of a table item fails for another reason than its kind, where the kind is one of the
table. -/
theorem tableItemRow_raisesOnly {text : String} (h : tableChangeType change.chtype = .ok text)
    (tableitem : IncompleteTableItemRecord) :
    (tableItemRow crates tx columns change tableitem).RaisesOnly (¬ ·.OfKind) := by
  refine (Outcome.raisesOnly_mapErr (fun _ => id) _).bind fun address _ => ?_
  rw [h, Outcome.ok_bind]
  exact Outcome.raisesOnly_ok _ _

/-- A step of the loop over a well-formed change fails for another reason than the kind of the
change. -/
theorem pushChange_raisesOnly {item : IncompleteChangeRecord × ℕ} (h : item.1.WellFormed)
    (records : ChangeRecords) :
    (pushChange crates tx columns records item).RaisesOnly (¬ ·.OfKind) := by
  obtain ⟨record, index⟩ := item
  refine (changeColumns_raisesOnly h index).bind fun change hchange => ?_
  -- the kind that the rows see is the converted kind of the record
  obtain ⟨chtype, address, addr, stateKeyHash, hchtype, -, -, -, rfl⟩ := changeColumns_eq_ok hchange
  cases record with
  | Module module =>
    exact (moduleRow_raisesOnly module).bind fun _ _ => Outcome.raisesOnly_ok _ _
  | Resource resource =>
    obtain ⟨text, htext⟩ := exists_resourceChangeType h hchtype
    exact (resourceRow_raisesOnly htext resource).bind fun _ _ => Outcome.raisesOnly_ok _ _
  | TableItem tableitem =>
    obtain ⟨text, htext⟩ := exists_tableChangeType h hchtype
    exact (tableItemRow_raisesOnly htext tableitem).bind fun _ _ => Outcome.raisesOnly_ok _ _

/-- The pass over well-formed changes fails for another reason than a kind. -/
theorem getChanges_raisesOnly (crates : Crates)
    (h : ∀ record ∈ tx.tx_info.changes, record.WellFormed) :
    (getChanges crates tx).RaisesOnly (¬ ·.OfKind) := by
  refine Outcome.RaisesOnly.bind ?_ fun columns _ => ?_
  · refine (Outcome.raisesOnly_mapErr (fun _ => id) _).bind fun timestamp _ => ?_
    exact (Outcome.raisesOnly_mapErr (fun _ => id) _).bind fun _ _ => Outcome.raisesOnly_ok _ _
  · refine Outcome.raisesOnly_tryFold (fun records item hitem => ?_) _
    have hmem : item.1 ∈ tx.tx_info.changes := List.fst_mem_of_mem_zipIdx hitem
    exact pushChange_raisesOnly (h item.1 hmem) records

end Raises

/-! ## The changes of an info -/

/-- The kinds of the changes fit: each is one of the family of its record, it is among those that
the aggregate takes out of its map, and it is converted; and `get_changes` refuses none. -/
structure KindsConsistent (info : TransactionInfoExtraction) : Prop where
  wellFormed : ∀ change ∈ info.changes, change.WellFormed
  accounted : ∀ types, info.calculateChangesAggregate ≠ .err (.UnaccountedForChanges types)
  converted : ∀ change ∈ info.changes, ∃ chtype, convertChangeType change.getType = .ok chtype
  specified : ∀ crates tx, tx.tx_info = info → getChanges crates tx ≠ .err .UnspecifiedType
  accepted : ∀ crates tx, tx.tx_info = info →
    ∀ type, getChanges crates tx ≠ .err (.InvalidChangeTypeForRecord type)

/-- The kinds of the changes of a converted info fit. -/
theorem kindsConsistent_of_tryFrom {value : TransactionInfo} {info : TransactionInfoExtraction}
    (h : TransactionInfoExtraction.tryFrom value = .ok info) : KindsConsistent info := by
  have hwell := TransactionInfoExtraction.wellFormed_of_tryFrom h
  have hspecified : ∀ change ∈ info.changes, change.getType ≠ .Unspecified :=
    fun change hchange => getType_ne_unspecified (hwell change hchange)
  constructor
  case wellFormed => exact hwell
  case accounted =>
    intro types
    rw [info.calculateChangesAggregate_eq hspecified]
    exact nofun
  case converted =>
    exact fun change hchange => exists_convertChangeType (hspecified change hchange)
  case specified =>
    rintro crates tx rfl herror
    exact getChanges_raisesOnly crates hwell _ herror trivial
  case accepted =>
    rintro crates tx rfl type herror
    exact getChanges_raisesOnly crates hwell _ herror trivial

/-- The info of a transaction that writes a module. -/
theorem kindsConsistent_of_tryFrom_sampleUser :
    ∃ value info, sampleUser.info = some value ∧
      TransactionInfoExtraction.tryFrom value = .ok info ∧ KindsConsistent info := by
  obtain ⟨tx, records, htx, -⟩ := @exists_changes_of_isSome sampleCrates sampleUser
    (by decide +kernel)
  obtain ⟨value, hvalue, hinfo⟩ := TransactionExtraction.exists_info_of_tryFrom htx
  exact ⟨value, tx.tx_info, hvalue, hinfo, kindsConsistent_of_tryFrom hinfo⟩

end AptosEtl.Tables
