import AptosEtl.Lib.Aligned
import AptosEtl.Tables.ChangeRows

/-!
# Each change has one detail row

A change has a row in `changes` and a detail row in the table of its family. The type of the change
row comes from the declared type and the table from the variant of the record, and it is the
conversion of the message that ties the two together (`getType_of_tryFrom`). The rows are
distributed over the tables in the order of the changes, so that a detail row is found by the index
of its change, and by nothing else (`changes_paired`).
-/

namespace AptosEtl.Tables

open Rust Input Reps

/-! ## Detail rows -/

namespace FamilyRow

/-- The `change_index` column. -/
def index : FamilyRow → ℕ
  | Module row => row.change_index
  | Resource row => row.change_index
  | TableItem row => row.change_index

/-- The `tx_version` column. -/
def txVersion : FamilyRow → UInt64
  | Module row => row.tx_version
  | Resource row => row.tx_version
  | TableItem row => row.tx_version

/-- The `address` column. -/
def address : FamilyRow → String
  | Module row => row.address
  | Resource row => row.address
  | TableItem row => row.address

/-- The `change_type` column, where the table has it. -/
def changeType? : FamilyRow → Option String
  | Module _ => none
  | Resource row => some row.change_type
  | TableItem row => some row.change_type

/-- The `state_key_hash` column, where the table has it. -/
def stateKeyHash? : FamilyRow → Option String
  | Module _ => none
  | Resource row => some row.state_key_hash
  | TableItem row => some row.state_key_hash

/-- The table of the row is the one of a kind of change. -/
def HasKind : FamilyRow → Input.ChangeType → Prop
  | Module _, kind => kind = .WriteModule ∨ kind = .DeleteModule
  | Resource _, kind => kind = .WriteResource ∨ kind = .DeleteResource
  | TableItem _, kind => kind = .WriteTableItem ∨ kind = .DeleteTableItem

end FamilyRow

/-- The rows of the three detail tables. -/
def ChangeRecords.details (records : ChangeRecords) : List FamilyRow :=
  records.modules.map .Module ++
    (records.resources.map .Resource ++ records.tableitems.map .TableItem)

/-- The two rows of a change agree, and are of its kind and at its place. -/
structure Paired (change : WriteSetChange) (i : ℕ) (row : Rows.Change) (detail : FamilyRow) :
    Prop where
  row_index : row.change_index = i
  detail_index : detail.index = i
  kind : detail.HasKind (change.type.getD .Unspecified)
  tx_version : detail.txVersion = row.tx_version
  address : row.address = some detail.address
  change_type : ∀ text ∈ detail.changeType?, text = row.change_type
  state_key_hash : ∀ hash ∈ detail.stateKeyHash?, hash = row.state_key_hash

/-! ## The rows that are built -/

section Built

variable {crates : Crates} {tx : TransactionExtraction} {columns : TxColumns}

/-- The type of a resource row is that of its change row. -/
theorem eq_of_resourceChangeType {chtype : ChangeType} {text : String}
    (h : resourceChangeType chtype = .ok text) : text = chtype.asStrName := by
  cases chtype <;> simp [resourceChangeType, ChangeType.asStrName] at h ⊢ <;> exact h.symm

/-- The type of a table item row is that of its change row. -/
theorem eq_of_tableChangeType {chtype : ChangeType} {text : String}
    (h : tableChangeType chtype = .ok text) : text = chtype.asStrName := by
  cases chtype <;> simp [tableChangeType, ChangeType.asStrName] at h ⊢ <;> exact h.symm

/-- The two rows of a change agree. -/
theorem paired_of_buildChange {change : WriteSetChange} {record : IncompleteChangeRecord} {i : ℕ}
    {built : BuiltChange} (hrecord : IncompleteChangeRecord.tryFrom change = .ok record)
    (h : buildChange crates tx columns (record, i) = .ok built) :
    Paired change i built.row built.family := by
  obtain ⟨hrow, hmodule, hresource, htableItem⟩ := change_index_of_buildChange h
  have hformed := IncompleteChangeRecord.wellFormed_of_tryFrom hrecord
  have htype := IncompleteChangeRecord.getType_of_tryFrom hrecord
  obtain ⟨shared, family, hshared, hfamily, rfl⟩ := buildChange_eq_ok h
  obtain ⟨chtype, address, addr, stateKeyHash, -, haddress, haddr, -, rfl⟩ :=
    changeColumns_eq_ok hshared
  cases familyOf_of_buildFamily hfamily with
  | Module hok =>
    obtain ⟨data, address', -, haddress', rfl⟩ := moduleRow_eq_ok hok
    obtain rfl := Option.some.inj haddress
    obtain rfl := Outcome.ok.inj (haddr.symm.trans haddress')
    exact ⟨hrow, rfl, htype ▸ hformed, rfl, rfl, nofun, nofun⟩
  | Resource hok =>
    obtain ⟨address', changeType, structTag, haddress', hchangeType, -, rfl⟩ :=
      resourceRow_eq_ok hok
    obtain rfl := Option.some.inj haddress
    obtain rfl := Outcome.ok.inj (haddr.symm.trans haddress')
    obtain rfl := eq_of_resourceChangeType hchangeType
    refine ⟨hrow, rfl, htype ▸ hformed, rfl, rfl, ?_, ?_⟩
    · rintro _ ⟨⟩
      rfl
    · rintro _ ⟨⟩
      rfl
  | TableItem hok =>
    obtain ⟨address', changeType, haddress', hchangeType, rfl⟩ := tableItemRow_eq_ok hok
    obtain rfl := Option.some.inj haddress
    obtain rfl := Outcome.ok.inj (haddr.symm.trans haddress')
    obtain rfl := eq_of_tableChangeType hchangeType
    refine ⟨hrow, rfl, htype ▸ hformed, rfl, rfl, ?_, ?_⟩
    · rintro _ ⟨⟩
      rfl
    · rintro _ ⟨⟩
      rfl

/-! ## The rows of all changes -/

variable {changes : List IncompleteChangeRecord} {built : List BuiltChange}

/-- A row of `modules` has the index of its change. -/
theorem index_of_module {item : IncompleteChangeRecord × ℕ} {b : BuiltChange}
    (h : buildChange crates tx columns item = .ok b) :
    ∀ row ∈ b.family.module?.toList, row.change_index = item.2 := fun row hrow =>
  (change_index_of_buildChange h).2.1 row (Option.mem_toList.1 hrow)

/-- A row of `resources` has the index of its change. -/
theorem index_of_resource {item : IncompleteChangeRecord × ℕ} {b : BuiltChange}
    (h : buildChange crates tx columns item = .ok b) :
    ∀ row ∈ b.family.resource?.toList, row.change_index = item.2 := fun row hrow =>
  (change_index_of_buildChange h).2.2.1 row (Option.mem_toList.1 hrow)

/-- A row of `table_items` has the index of its change. -/
theorem index_of_tableItem {item : IncompleteChangeRecord × ℕ} {b : BuiltChange}
    (h : buildChange crates tx columns item = .ok b) :
    ∀ row ∈ b.family.tableItem?.toList, row.change_index = item.2 := fun row hrow =>
  (change_index_of_buildChange h).2.2.2 row (Option.mem_toList.1 hrow)

/-- At most one row whose index is a place follows that place. -/
theorem index_sublist_of_forall {α : Type} {index : α → ℕ} {i : ℕ} {o : Option α}
    (h : ∀ row ∈ o.toList, index row = i) : (o.toList.map index).Sublist [i] := by
  cases o with
  | none => exact List.nil_sublist _
  | some row =>
    rw [Option.toList_some, List.map_singleton, h row List.mem_cons_self]

/-- The indices of each detail table go up. -/
theorem pairwise_details
    (h : List.Forall₂ (fun item b => buildChange crates tx columns item = .ok b) changes.zipIdx
      built) :
    ((ChangeRecords.ofBuilt built).modules.map Rows.Module.change_index).Pairwise (· < ·) ∧
      ((ChangeRecords.ofBuilt built).resources.map Rows.Resource.change_index).Pairwise (· < ·) ∧
        ((ChangeRecords.ofBuilt built).tableitems.map Rows.TableItem.change_index).Pairwise
          (· < ·) := by
  rw [ofBuilt_modules, ofBuilt_resources, ofBuilt_tableitems]
  refine ⟨?_, ?_, ?_⟩
  · exact Aligned.pairwise_index h fun _ _ hb => index_sublist_of_forall (index_of_module hb)
  · exact Aligned.pairwise_index h fun _ _ hb => index_sublist_of_forall (index_of_resource hb)
  · exact Aligned.pairwise_index h fun _ _ hb => index_sublist_of_forall (index_of_tableItem hb)

/-- The detail rows with an index are the one detail row of the change at that place. -/
theorem filter_details
    (h : List.Forall₂ (fun item b => buildChange crates tx columns item = .ok b) changes.zipIdx
      built) (i : ℕ) :
    (ChangeRecords.ofBuilt built).details.filter (·.index = i) =
      (built[i]?.map BuiltChange.family).toList := by
  have hmodules := Aligned.filter_index h (fun _ _ => index_of_module) i
  have hresources := Aligned.filter_index h (fun _ _ => index_of_resource) i
  have htableitems := Aligned.filter_index h (fun _ _ => index_of_tableItem) i
  rw [Nat.zero_add] at hmodules hresources htableitems
  have hsplit : (ChangeRecords.ofBuilt built).details.filter (·.index = i) =
      ((built.flatMap fun b => b.family.module?.toList).filter
          (Rows.Module.change_index · = i)).map .Module ++
        (((built.flatMap fun b => b.family.resource?.toList).filter
            (Rows.Resource.change_index · = i)).map .Resource ++
          ((built.flatMap fun b => b.family.tableItem?.toList).filter
            (Rows.TableItem.change_index · = i)).map .TableItem) := by
    rw [ChangeRecords.details, ofBuilt_modules, ofBuilt_resources, ofBuilt_tableitems,
      List.filter_append, List.filter_append, List.filter_map, List.filter_map, List.filter_map]
    rfl
  rw [hsplit, hmodules, hresources, htableitems]
  cases built[i]? with
  | none => rfl
  | some b => cases hfamily : b.family <;> simp [hfamily, FamilyRow.module?, FamilyRow.resource?,
      FamilyRow.tableItem?]

/-- Every detail row has the index of a change. -/
theorem index_lt_of_mem_details
    (h : List.Forall₂ (fun item b => buildChange crates tx columns item = .ok b) changes.zipIdx
      built) {detail : FamilyRow} (hdetail : detail ∈ (ChangeRecords.ofBuilt built).details) :
    detail.index < changes.length := by
  have hfound : detail ∈ (ChangeRecords.ofBuilt built).details.filter (·.index = detail.index) :=
    List.mem_filter.2 ⟨hdetail, decide_eq_true rfl⟩
  rw [filter_details h] at hfound
  have hlength := h.length_eq
  rw [List.length_zipIdx] at hlength
  by_contra hge
  rw [List.getElem?_eq_none (by omega)] at hfound
  exact absurd hfound List.not_mem_nil

/-- The change at a place is converted, and its rows are built at that place. -/
theorem exists_built_at {messages : List WriteSetChange}
    (hall : List.Forall₂ (fun change record => IncompleteChangeRecord.tryFrom change = .ok record)
      messages changes)
    (h : List.Forall₂ (fun item b => buildChange crates tx columns item = .ok b) changes.zipIdx
      built) {i : ℕ} {change : WriteSetChange} (hchange : messages[i]? = some change) :
    ∃ record b, IncompleteChangeRecord.tryFrom change = .ok record ∧
      buildChange crates tx columns (record, i) = .ok b ∧ built[i]? = some b := by
  obtain ⟨hi, rfl⟩ := List.getElem?_eq_some_iff.1 hchange
  have hi' : i < changes.length := hall.length_eq ▸ hi
  have hplace : i < changes.zipIdx.length := by rwa [List.length_zipIdx]
  have hbuild := h.get hplace (h.length_eq ▸ hplace)
  rw [List.get_eq_getElem, List.get_eq_getElem, List.getElem_zipIdx, Nat.zero_add] at hbuild
  exact ⟨_, _, hall.get hi hi', hbuild, List.getElem?_eq_getElem _⟩

/-- The change records of a transaction are built from its converted changes. -/
theorem exists_built {value : Input.Transaction} {records : ChangeRecords}
    (htx : TransactionExtraction.tryFrom value = .ok tx) (h : getChanges crates tx = .ok records) :
    ∃ info changes columns built, value.info = some info ∧
      List.Forall₂ (fun change record => IncompleteChangeRecord.tryFrom change = .ok record)
        info.changes changes ∧
      List.Forall₂ (fun item b => buildChange crates tx columns item = .ok b) changes.zipIdx
        built ∧ records = .ofBuilt built := by
  obtain ⟨info, hinfo, htxInfo⟩ := TransactionExtraction.exists_info_of_tryFrom htx
  obtain ⟨changes, hchanges, htxInfo⟩ := Outcome.bind_eq_ok.1 htxInfo
  obtain ⟨columns, built, -, hbuilt, hrecords⟩ := getChanges_eq_ok.1 h
  rw [← Outcome.ok.inj htxInfo] at hbuilt
  exact ⟨info, changes, columns, built, hinfo,
    Outcome.tryMap_eq_ok.1 (Outcome.mapErr_eq_ok.1 hchanges), hbuilt, hrecords⟩

/-- Of each detail table, the rows with the index of a change are what the change is built into. -/
theorem exists_familyOf_at {value : Input.Transaction} {records : ChangeRecords}
    {info : Input.TransactionInfo} {change : WriteSetChange} {i : ℕ}
    (htx : TransactionExtraction.tryFrom value = .ok tx) (h : getChanges crates tx = .ok records)
    (hinfo : value.info = some info) (hchange : info.changes[i]? = some change) :
    ∃ record columns shared family, IncompleteChangeRecord.tryFrom change = .ok record ∧
      FamilyOf crates tx columns shared record family ∧
        records.modules.filter (·.change_index = i) = family.module?.toList ∧
          records.resources.filter (·.change_index = i) = family.resource?.toList ∧
            records.tableitems.filter (·.change_index = i) = family.tableItem?.toList := by
  obtain ⟨info', changes, columns, built, hinfo', hall, hbuilt, rfl⟩ := exists_built htx h
  obtain rfl := Option.some.inj (hinfo.symm.trans hinfo')
  obtain ⟨record, b, hrecord, hbuild, hget⟩ := exists_built_at hall hbuilt hchange
  have hmodules := Aligned.filter_index hbuilt (fun _ _ => index_of_module) i
  have hresources := Aligned.filter_index hbuilt (fun _ _ => index_of_resource) i
  have htableitems := Aligned.filter_index hbuilt (fun _ _ => index_of_tableItem) i
  rw [Nat.zero_add, hget] at hmodules hresources htableitems
  obtain ⟨shared, family, -, hfamily, rfl⟩ := buildChange_eq_ok hbuild
  rw [ofBuilt_modules, ofBuilt_resources, ofBuilt_tableitems]
  exact ⟨record, columns, shared, family, hrecord, familyOf_of_buildFamily hfamily, hmodules,
    hresources, htableitems⟩

end Built

/-- Each change has exactly one change row and one detail row: the change at place `i` has the `i`th
row of `changes`, and of the rows of the detail tables exactly one has the index `i`. It is in the
table of the kind of the change, and the two rows agree. The indices of each detail table go up, and
no detail row has the index of no change. -/
theorem changes_paired {crates : Crates} {value : Input.Transaction} {tx : TransactionExtraction}
    {records : ChangeRecords} (htx : TransactionExtraction.tryFrom value = .ok tx)
    (h : getChanges crates tx = .ok records) :
    ∃ info, value.info = some info ∧ records.changes.length = info.changes.length ∧
      (∀ i change, info.changes[i]? = some change → ∃ row detail,
        records.changes[i]? = some row ∧
          records.details.filter (·.index = i) = [detail] ∧ Paired change i row detail) ∧
        (∀ detail ∈ records.details, detail.index < info.changes.length) ∧
          (records.modules.map Rows.Module.change_index).Pairwise (· < ·) ∧
            (records.resources.map Rows.Resource.change_index).Pairwise (· < ·) ∧
              (records.tableitems.map Rows.TableItem.change_index).Pairwise (· < ·) := by
  obtain ⟨info, changes, columns, built, hinfo, hall, hbuilt, rfl⟩ := exists_built htx h
  have hlength : changes.length = built.length := by
    rw [← hbuilt.length_eq, List.length_zipIdx]
  refine ⟨info, hinfo, ?_, ?_, ?_, pairwise_details hbuilt⟩
  · rw [ChangeRecords.ofBuilt, List.length_map, ← hlength, ← hall.length_eq]
  · intro i change hchange
    obtain ⟨record, b, hrecord, hbuild, hget⟩ := exists_built_at hall hbuilt hchange
    refine ⟨_, _, ?_, ?_, paired_of_buildChange hrecord hbuild⟩
    · rw [ChangeRecords.ofBuilt, List.getElem?_map, hget, Option.map_some]
    · rw [filter_details hbuilt, hget, Option.map_some, Option.toList_some]
  · intro detail hdetail
    rw [hall.length_eq]
    exact index_lt_of_mem_details hbuilt hdetail

/-- The written module of a user transaction has its two rows, both of them at the place 0. -/
theorem changes_paired_sampleUser :
    ∃ tx records, TransactionExtraction.tryFrom sampleUser = .ok tx ∧
      getChanges sampleCrates tx = .ok records ∧ ∃ change row detail,
        records.changes[0]? = some row ∧ records.details.filter (·.index = 0) = [detail] ∧
          Paired change 0 row detail := by
  obtain ⟨all, hall⟩ := exists_records_sampleUser
  obtain ⟨tx, block, changes, events, sigs, transactions, hextracts, -⟩ :=
    extractRecords_eq_ok.1 hall
  obtain ⟨info, hinfo, -, hpaired, -⟩ := changes_paired hextracts.extraction hextracts.changes
  obtain rfl := Option.some.inj hinfo
  obtain ⟨row, detail, hrow, hdetail, hagree⟩ := hpaired 0 _ rfl
  exact ⟨tx, changes, hextracts.extraction, hextracts.changes, _, row, detail, hrow, hdetail,
    hagree⟩

end AptosEtl.Tables
