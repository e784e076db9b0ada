import AptosEtl.Tables.All

/-!
# The rows of a change

The pass over the changes, change by change. Whether a step of the pass succeeds, and what it
appends, depends on its change and not on the records so far, so the pass builds the two rows of
each change (`buildChange`) and then distributes them over the four tables (`getChanges_eq_ok`).
-/

namespace AptosEtl.Tables

open Rust Input Reps

/-- The row of a change in the table of its family. -/
inductive FamilyRow where
  | Module (row : Rows.Module)
  | Resource (row : Rows.Resource)
  | TableItem (row : Rows.TableItem)

/-- The row, if it is of `modules`. -/
def FamilyRow.module? : FamilyRow → Option Rows.Module
  | Module row => some row
  | _ => none

/-- The row, if it is of `resources`. -/
def FamilyRow.resource? : FamilyRow → Option Rows.Resource
  | Resource row => some row
  | _ => none

/-- The row, if it is of `table_items`. -/
def FamilyRow.tableItem? : FamilyRow → Option Rows.TableItem
  | TableItem row => some row
  | _ => none

/-- The two rows of a change. -/
structure BuiltChange where
  row : Rows.Change
  family : FamilyRow

section Build

variable (crates : Crates) (tx : TransactionExtraction) (columns : TxColumns)

/-- The row of a change in the table of its family. -/
def buildFamily (change : ChangeColumns) : IncompleteChangeRecord → Outcome ChangeError FamilyRow
  | .Module module =>
    (moduleRow crates tx columns change module).bind fun row => .ok (.Module row)
  | .Resource resource =>
    (resourceRow crates tx columns change resource).bind fun row => .ok (.Resource row)
  | .TableItem tableitem =>
    (tableItemRow crates tx columns change tableitem).bind fun row => .ok (.TableItem row)

/-- The two rows of a change, at its index. -/
def buildChange (item : IncompleteChangeRecord × ℕ) : Outcome ChangeError BuiltChange :=
  (changeColumns crates item.1 item.2).bind fun change =>
    (buildFamily crates tx columns change item.1).bind fun family =>
      .ok ⟨changeRow tx columns change, family⟩

end Build

/-- The records with the two rows of one more change. -/
def ChangeRecords.add (records : ChangeRecords) (built : BuiltChange) : ChangeRecords where
  changes := records.changes ++ [built.row]
  resources := records.resources ++ built.family.resource?.toList
  modules := records.modules ++ built.family.module?.toList
  tableitems := records.tableitems ++ built.family.tableItem?.toList

/-- The records with the rows of some changes. -/
def ChangeRecords.ofBuilt (built : List BuiltChange) : ChangeRecords where
  changes := built.map BuiltChange.row
  resources := built.filterMap fun b => b.family.resource?
  modules := built.filterMap fun b => b.family.module?
  tableitems := built.filterMap fun b => b.family.tableItem?

/-- A step of the pass adds the two rows of its change. -/
theorem pushChange_eq (crates : Crates) (tx : TransactionExtraction) (columns : TxColumns)
    (records : ChangeRecords) (item : IncompleteChangeRecord × ℕ) :
    pushChange crates tx columns records item =
      (buildChange crates tx columns item).bind fun built => .ok (records.add built) := by
  obtain ⟨change, index⟩ := item
  rw [pushChange, buildChange, Outcome.bind_assoc]
  congr 1
  funext columns'
  cases change with
  | Module module =>
    simp only [buildFamily, Outcome.bind_assoc, Outcome.ok_bind, ChangeRecords.add,
      FamilyRow.module?, FamilyRow.resource?, FamilyRow.tableItem?, Option.toList,
      List.append_nil]
  | Resource resource =>
    simp only [buildFamily, Outcome.bind_assoc, Outcome.ok_bind, ChangeRecords.add,
      FamilyRow.module?, FamilyRow.resource?, FamilyRow.tableItem?, Option.toList,
      List.append_nil]
  | TableItem tableitem =>
    simp only [buildFamily, Outcome.bind_assoc, Outcome.ok_bind, ChangeRecords.add,
      FamilyRow.module?, FamilyRow.resource?, FamilyRow.tableItem?, Option.toList,
      List.append_nil]

/-- Adding the rows of changes one by one gives the records with all of them. -/
theorem foldl_add (records : ChangeRecords) (built : List BuiltChange) :
    built.foldl ChangeRecords.add records =
      ⟨records.changes ++ (ChangeRecords.ofBuilt built).changes,
        records.resources ++ (ChangeRecords.ofBuilt built).resources,
        records.modules ++ (ChangeRecords.ofBuilt built).modules,
        records.tableitems ++ (ChangeRecords.ofBuilt built).tableitems⟩ := by
  induction built generalizing records with
  | nil => simp [ChangeRecords.ofBuilt]
  | cons b built ih =>
    rw [List.foldl_cons, ih]
    cases hfamily : b.family <;>
      simp [ChangeRecords.add, ChangeRecords.ofBuilt, hfamily, FamilyRow.module?,
        FamilyRow.resource?, FamilyRow.tableItem?]

/-- The records of a transaction are the rows of its changes, each at the index of its change. -/
theorem getChanges_eq_ok {crates : Crates} {tx : TransactionExtraction} {records : ChangeRecords} :
    getChanges crates tx = .ok records ↔
      ∃ columns built, txColumns crates tx = .ok columns ∧
        List.Forall₂ (fun item b => buildChange crates tx columns item = .ok b)
          tx.tx_info.changes.zipIdx built ∧ records = .ofBuilt built := by
  have hloop : ∀ columns, Outcome.tryFold (pushChange crates tx columns) ChangeRecords.new
      tx.tx_info.changes.zipIdx =
        (Outcome.tryMap (buildChange crates tx columns) tx.tx_info.changes.zipIdx).bind
          fun built => .ok (.ofBuilt built) := by
    intro columns
    have hstep : pushChange crates tx columns = fun records item =>
        (buildChange crates tx columns item).bind fun built => .ok (records.add built) :=
      funext fun records => funext fun item => pushChange_eq crates tx columns records item
    rw [hstep, Outcome.tryFold_of_step]
    congr 1
    funext built
    rw [foldl_add]
    simp [ChangeRecords.new]
  simp only [getChanges, hloop, Outcome.bind_eq_ok, Outcome.tryMap_eq_ok, Outcome.ok.injEq]
  constructor
  · rintro ⟨columns, hcolumns, built, hbuilt, hrecords⟩
    exact ⟨columns, built, hcolumns, hbuilt, hrecords.symm⟩
  · rintro ⟨columns, built, hcolumns, hbuilt, hrecords⟩
    exact ⟨columns, hcolumns, built, hbuilt, hrecords.symm⟩

/-! ## The rows of one change in a table -/

/-- The rows of a change in a table. -/
def BuiltChange.rows (built : BuiltChange) : (table : Table) → List table.Row
  | .Changes => [built.row]
  | .Modules => built.family.module?.toList
  | .Resources => built.family.resource?.toList
  | .TableItems => built.family.tableItem?.toList
  | .Transactions => []
  | .Blocks => []
  | .Events => []
  | .Signatures => []

/-- The rows of all changes in `changes`. -/
theorem ofBuilt_changes (built : List BuiltChange) :
    (ChangeRecords.ofBuilt built).changes = built.flatMap (BuiltChange.rows · .Changes) :=
  List.map_eq_flatMap

/-- Collecting what is there joins the lists with one element or none. -/
theorem filterMap_eq_flatMap {α β : Type} (f : α → Option β) (xs : List α) :
    xs.filterMap f = xs.flatMap fun x => (f x).toList := by
  induction xs with
  | nil => rfl
  | cons x xs ih =>
    rw [List.filterMap_cons, List.flatMap_cons, ih]
    cases f x <;> rfl

/-- The rows of all changes in `modules`. -/
theorem ofBuilt_modules (built : List BuiltChange) :
    (ChangeRecords.ofBuilt built).modules = built.flatMap (BuiltChange.rows · .Modules) :=
  filterMap_eq_flatMap _ built

/-- The rows of all changes in `resources`. -/
theorem ofBuilt_resources (built : List BuiltChange) :
    (ChangeRecords.ofBuilt built).resources = built.flatMap (BuiltChange.rows · .Resources) :=
  filterMap_eq_flatMap _ built

/-- The rows of all changes in `table_items`. -/
theorem ofBuilt_tableitems (built : List BuiltChange) :
    (ChangeRecords.ofBuilt built).tableitems = built.flatMap (BuiltChange.rows · .TableItems) :=
  filterMap_eq_flatMap _ built

section Family

variable {crates : Crates} {tx : TransactionExtraction} {columns : TxColumns}
  {change : ChangeColumns} {record : IncompleteChangeRecord} {family : FamilyRow}

/-- The row of a change is of its family, built by the function of the family. -/
inductive FamilyOf (crates : Crates) (tx : TransactionExtraction) (columns : TxColumns)
    (change : ChangeColumns) : IncompleteChangeRecord → FamilyRow → Prop where
  | Module {module : IncompleteModuleRecord} {row : Rows.Module}
      (h : moduleRow crates tx columns change module = .ok row) :
      FamilyOf crates tx columns change (.Module module) (.Module row)
  | Resource {resource : IncompleteResourceRecord} {row : Rows.Resource}
      (h : resourceRow crates tx columns change resource = .ok row) :
      FamilyOf crates tx columns change (.Resource resource) (.Resource row)
  | TableItem {tableitem : IncompleteTableItemRecord} {row : Rows.TableItem}
      (h : tableItemRow crates tx columns change tableitem = .ok row) :
      FamilyOf crates tx columns change (.TableItem tableitem) (.TableItem row)

/-- The row that is built is of the family of the change. -/
theorem familyOf_of_buildFamily (h : buildFamily crates tx columns change record = .ok family) :
    FamilyOf crates tx columns change record family := by
  cases record with
  | Module module =>
    obtain ⟨row, hrow, h⟩ := Outcome.bind_eq_ok.1 h
    obtain rfl := Outcome.ok.inj h
    exact .Module hrow
  | Resource resource =>
    obtain ⟨row, hrow, h⟩ := Outcome.bind_eq_ok.1 h
    obtain rfl := Outcome.ok.inj h
    exact .Resource hrow
  | TableItem tableitem =>
    obtain ⟨row, hrow, h⟩ := Outcome.bind_eq_ok.1 h
    obtain rfl := Outcome.ok.inj h
    exact .TableItem hrow

/-- A row of `modules` is built from a module. -/
theorem moduleRow_of_buildFamily (h : buildFamily crates tx columns change record = .ok family)
    {row : Rows.Module} (hrow : family.module? = some row) :
    ∃ module, record = .Module module ∧ moduleRow crates tx columns change module = .ok row := by
  cases familyOf_of_buildFamily h with
  | Module hok => obtain rfl := Option.some.inj hrow; exact ⟨_, rfl, hok⟩
  | Resource hok => exact nomatch hrow
  | TableItem hok => exact nomatch hrow

/-- A row of `resources` is built from a resource. -/
theorem resourceRow_of_buildFamily (h : buildFamily crates tx columns change record = .ok family)
    {row : Rows.Resource} (hrow : family.resource? = some row) :
    ∃ resource, record = .Resource resource ∧
      resourceRow crates tx columns change resource = .ok row := by
  cases familyOf_of_buildFamily h with
  | Module hok => exact nomatch hrow
  | Resource hok => obtain rfl := Option.some.inj hrow; exact ⟨_, rfl, hok⟩
  | TableItem hok => exact nomatch hrow

/-- A row of `table_items` is built from a table item. -/
theorem tableItemRow_of_buildFamily (h : buildFamily crates tx columns change record = .ok family)
    {row : Rows.TableItem} (hrow : family.tableItem? = some row) :
    ∃ tableitem, record = .TableItem tableitem ∧
      tableItemRow crates tx columns change tableitem = .ok row := by
  cases familyOf_of_buildFamily h with
  | Module hok => exact nomatch hrow
  | Resource hok => exact nomatch hrow
  | TableItem hok => obtain rfl := Option.some.inj hrow; exact ⟨_, rfl, hok⟩

/-- The two rows of a change are those of the columns that they share. -/
theorem buildChange_eq_ok {item : IncompleteChangeRecord × ℕ} {built : BuiltChange}
    (h : buildChange crates tx columns item = .ok built) :
    ∃ change family, changeColumns crates item.1 item.2 = .ok change ∧
      buildFamily crates tx columns change item.1 = .ok family ∧
        built = ⟨changeRow tx columns change, family⟩ := by
  obtain ⟨change, hchange, h⟩ := Outcome.bind_eq_ok.1 h
  obtain ⟨family, hfamily, h⟩ := Outcome.bind_eq_ok.1 h
  exact ⟨change, family, hchange, hfamily, (Outcome.ok.inj h).symm⟩

/-- Both rows of a change have its index. -/
theorem change_index_of_buildChange {item : IncompleteChangeRecord × ℕ} {built : BuiltChange}
    (h : buildChange crates tx columns item = .ok built) :
    built.row.change_index = item.2 ∧ (∀ row ∈ built.family.module?, row.change_index = item.2) ∧
      (∀ row ∈ built.family.resource?, row.change_index = item.2) ∧
        ∀ row ∈ built.family.tableItem?, row.change_index = item.2 := by
  obtain ⟨change, family, hchange, hfamily, rfl⟩ := buildChange_eq_ok h
  obtain ⟨chtype, address, addr, stateKeyHash, -, -, -, -, rfl⟩ := changeColumns_eq_ok hchange
  refine ⟨rfl, fun row hrow => ?_, fun row hrow => ?_, fun row hrow => ?_⟩
  · obtain ⟨module, -, hok⟩ := moduleRow_of_buildFamily hfamily hrow
    obtain ⟨data, address, -, -, rfl⟩ := moduleRow_eq_ok hok
    rfl
  · obtain ⟨resource, -, hok⟩ := resourceRow_of_buildFamily hfamily hrow
    obtain ⟨address, changeType, structTag, -, -, -, rfl⟩ := resourceRow_eq_ok hok
    rfl
  · obtain ⟨tableitem, -, hok⟩ := tableItemRow_of_buildFamily hfamily hrow
    obtain ⟨address, changeType, -, -, rfl⟩ := tableItemRow_eq_ok hok
    rfl

end Family

end AptosEtl.Tables
