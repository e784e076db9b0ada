import AptosEtl.Tables.DetailRows

/-!
# The texts of a table item

The key and the value of a table item are published without the quotation marks around them.
`unquoted` is a text without them: it takes the two marks off together or not at all. `stripQuotes`
takes off one after the other, and where there is no mark to take off in the second step it goes
back to the whole text, so that an opening mark without a closing one stays. The first step goes
back to the whole text too, where the second still finds its mark: a closing mark without an
opening one is lost (`stripQuotes_unquotes_iff`).
-/

namespace AptosEtl.Tables

open Rust Input Reps

/-! ## Quotation marks -/

/-- A text without its first and last character where both are quotation marks, and the text
itself elsewhere. -/
def unquoted (text : String) : String :=
  let chars := text.toList
  if 2 ≤ chars.length ∧ chars.head? = some '"' ∧ chars.getLast? = some '"' then
    String.ofList chars.tail.dropLast
  else
    text

/-- The second text is the first without a quotation mark at one of its ends. -/
def LosesOneQuote (text result : String) : Prop :=
  text.toList = '"' :: result.toList ∨ text.toList = result.toList ++ ['"']

/-- The second text is the first without its pair of quotation marks, if it has one. -/
structure UnquotedTo (text result : String) : Prop where
  eq : result = unquoted text
  not_losesOneQuote : ¬ LosesOneQuote text result

/-- A text that ends with a quotation mark starts with one. -/
def OpensIfCloses (text : String) : Prop :=
  text.toList.getLast? = some '"' → text.toList.head? = some '"'

/-- A text that is a quotation mark, more text and a quotation mark loses both marks. -/
theorem stripQuotes_of_quoted {text : String} {inner : List Char}
    (h : text.toList = '"' :: (inner ++ ['"'])) : stripQuotes text = String.ofList inner := by
  simp [stripQuotes, stripPrefix?, stripSuffix?, h]

/-- A text that ends with a quotation mark and starts with another character loses the mark. -/
theorem stripQuotes_of_closed {text : String} {c : Char} {inner : List Char}
    (h : text.toList = c :: inner ++ ['"']) (hc : c ≠ '"') :
    stripQuotes text = String.ofList (c :: inner) := by
  have hopen : stripPrefix? ['"'] text = none := by
    rw [stripPrefix?, h]
    refine if_neg fun hprefix => hc ?_
    exact (beq_iff_eq.1 (Bool.and_eq_true_iff.1 hprefix).1).symm
  have hclose : stripSuffix? '"' text = some (String.ofList (c :: inner)) := by
    rw [stripSuffix?, h, List.getLast?_concat, if_pos rfl, List.dropLast_concat]
  simp only [stripQuotes, hopen, hclose, Option.getD_none, Option.getD_some]

/-- A quotation mark alone stays. -/
theorem stripQuotes_singleton {text : String} (h : text.toList = ['"']) :
    stripQuotes text = text := by
  simp [stripQuotes, stripPrefix?, stripSuffix?, h]

/-- A text that does not end with a quotation mark stays. -/
theorem stripQuotes_of_not_closed {text : String} (h : text.toList.getLast? ≠ some '"') :
    stripQuotes text = text := by
  have hnoprefix : ((stripPrefix? ['"'] text).getD text).toList.getLast? ≠ some '"' := by
    unfold stripPrefix?
    split_ifs
    · -- what is left after the opening mark ends as the text does, if anything is left
      rw [Option.getD_some, String.toList_ofList, List.getLast?_drop]
      split_ifs
      · exact nofun
      · exact h
    · exact h
  unfold stripQuotes stripSuffix?
  simp only [if_neg hnoprefix, Option.getD_none]

/-- A text that is a quotation mark, more text and a quotation mark is unquoted to the text between
them. -/
theorem unquoted_of_quoted {text : String} {inner : List Char}
    (h : text.toList = '"' :: (inner ++ ['"'])) : unquoted text = String.ofList inner := by
  have hlast : ('"' :: (inner ++ ['"'])).getLast? = some '"' :=
    List.getLast?_concat (l := '"' :: inner)
  have hlength : 2 ≤ ('"' :: (inner ++ ['"'])).length := by simp
  rw [unquoted, h]
  simp only [hlength, List.head?_cons, hlast, and_self, if_true, List.tail_cons,
    List.dropLast_concat]

/-- A text that does not end with a quotation mark is unquoted as it is. -/
theorem unquoted_of_not_closed {text : String} (h : text.toList.getLast? ≠ some '"') :
    unquoted text = text :=
  if_neg fun hquoted => h hquoted.2.2

/-- A text loses a mark at one end only by becoming shorter by one character. -/
theorem LosesOneQuote.length_eq {text result : String} (h : LosesOneQuote text result) :
    text.toList.length = result.toList.length + 1 := by
  rcases h with h | h
  · rw [h, List.length_cons]
  · rw [h, List.length_append, List.length_singleton]

/-- A text that stays has not lost a mark. -/
theorem not_losesOneQuote_self (text : String) : ¬ LosesOneQuote text text := fun h =>
  absurd h.length_eq (Nat.succ_ne_self _).symm

/-- Marks are stripped as a pair exactly from the texts that start with one if they end with one. -/
theorem stripQuotes_unquotes_iff (text : String) :
    UnquotedTo text (stripQuotes text) ↔ OpensIfCloses text := by
  by_cases hclosed : text.toList.getLast? = some '"'
  · obtain ⟨front, hfront⟩ := List.getLast?_eq_some_iff.1 hclosed
    cases front with
    | nil =>
      -- the one character that is both ends
      have hstrip : stripQuotes text = text := stripQuotes_singleton hfront
      have hunquoted : unquoted text = text := by
        rw [unquoted, hfront]
        exact if_neg fun hquoted => absurd hquoted.1 (by decide)
      rw [hstrip]
      exact iff_of_true ⟨hunquoted.symm, not_losesOneQuote_self text⟩
        fun _ => by rw [hfront]; rfl
    | cons c inner =>
      by_cases hc : c = '"'
      · subst hc
        have hstrip : stripQuotes text = String.ofList inner := stripQuotes_of_quoted hfront
        have hunquoted : unquoted text = String.ofList inner := unquoted_of_quoted hfront
        rw [hstrip]
        refine iff_of_true ⟨hunquoted.symm, fun hloses => ?_⟩ fun _ => by rw [hfront]; rfl
        -- both marks are gone
        have hlength := hloses.length_eq
        rw [hfront, String.toList_ofList] at hlength
        simp at hlength
      · have hstrip : stripQuotes text = String.ofList (c :: inner) :=
          stripQuotes_of_closed hfront hc
        have hloses : LosesOneQuote text (stripQuotes text) := by
          refine .inr ?_
          rw [hstrip, String.toList_ofList, hfront]
        refine iff_of_false (fun h => h.not_losesOneQuote hloses) fun hopen => hc ?_
        have hhead := hopen hclosed
        rw [hfront] at hhead
        exact Option.some.inj hhead
  · rw [stripQuotes_of_not_closed hclosed]
    exact iff_of_true ⟨(unquoted_of_not_closed hclosed).symm, not_losesOneQuote_self text⟩
      fun h => absurd h hclosed

/-! ## The texts of a change -/

/-- The texts of a change of a table item: of its key, and of its value where one is written. -/
structure TableTexts where
  key : String
  value : Option String

/-- The texts of a change with table data. -/
def tableTexts (change : WriteSetChange) : Option TableTexts :=
  match change.change with
  | some (.WriteTableItem data) => data.data.map fun data => ⟨data.key, some data.value⟩
  | some (.DeleteTableItem data) => data.data.map fun data => ⟨data.key, none⟩
  | _ => none

/-- The row has the texts without their pairs of quotation marks. -/
structure Unquotes (texts : TableTexts) (row : Rows.TableItem) : Prop where
  key : UnquotedTo texts.key row.key.name
  value : Option.Rel UnquotedTo texts.value (row.value.map Rows.TableValue.content)

/-- Each of the texts that ends with a quotation mark starts with one. -/
def TableTexts.OpenIfClosed (texts : TableTexts) : Prop :=
  OpensIfCloses texts.key ∧ ∀ text ∈ texts.value, OpensIfCloses text

/-- The row has the texts as they are stripped. -/
structure Strips (texts : TableTexts) (row : Rows.TableItem) : Prop where
  key : row.key.name = stripQuotes texts.key
  value : row.value.map Rows.TableValue.content = texts.value.map stripQuotes

/-- A row of stripped texts has them without their pairs of marks exactly when each text that ends
with a mark starts with one. -/
theorem Strips.unquotes_iff {texts : TableTexts} {row : Rows.TableItem} (h : Strips texts row) :
    Unquotes texts row ↔ texts.OpenIfClosed := by
  have hkey : UnquotedTo texts.key row.key.name ↔ OpensIfCloses texts.key := by
    rw [h.key]
    exact stripQuotes_unquotes_iff texts.key
  have hvalue : Option.Rel UnquotedTo texts.value (row.value.map Rows.TableValue.content) ↔
      ∀ text ∈ texts.value, OpensIfCloses text := by
    rw [h.value]
    cases texts.value with
    | none => exact iff_of_true .none fun _ => nofun
    | some text =>
      rw [Option.map_some, Option.rel_some_some, stripQuotes_unquotes_iff]
      simp
  exact ⟨fun hunquotes => ⟨hkey.1 hunquotes.key, hvalue.1 hunquotes.value⟩,
    fun hopen => ⟨hkey.2 hopen.1, hvalue.2 hopen.2⟩⟩

/-- A change with table data is converted to a table item with the stripped texts. -/
theorem exists_tableitem_of_tryFrom {change : WriteSetChange} {record : IncompleteChangeRecord}
    {texts : TableTexts} (htexts : tableTexts change = some texts)
    (h : IncompleteChangeRecord.tryFrom change = .ok record) :
    ∃ tableitem, record = .TableItem tableitem ∧
      tableitem.key.name = stripQuotes texts.key ∧
        tableitem.value.map Rows.TableValue.content = texts.value.map stripQuotes := by
  unfold tableTexts at htexts
  -- what is converted has data of one kind
  cases IncompleteChangeRecord.convertsTo_of_tryFrom h with
  | WriteTableItem _ hdata hrecord =>
    rw [hdata] at htexts
    obtain ⟨tabledata, htabledata, rfl⟩ := Option.map_eq_some_iff.1 htexts
    rw [IncompleteTableItemRecord.ofWrite, htabledata] at hrecord
    obtain rfl := Outcome.ok.inj hrecord
    exact ⟨_, rfl, rfl, rfl⟩
  | DeleteTableItem _ hdata hrecord =>
    rw [hdata] at htexts
    obtain ⟨tabledata, htabledata, rfl⟩ := Option.map_eq_some_iff.1 htexts
    rw [IncompleteTableItemRecord.ofDelete, htabledata] at hrecord
    obtain rfl := Outcome.ok.inj hrecord
    exact ⟨_, rfl, rfl, rfl⟩
  | DeleteModule _ hdata => rw [hdata] at htexts; cases htexts
  | WriteModule _ hdata => rw [hdata] at htexts; cases htexts
  | DeleteResource _ hdata => rw [hdata] at htexts; cases htexts
  | WriteResource _ hdata => rw [hdata] at htexts; cases htexts

/-! ## The row of a table item -/

/-- The row of `table_items` of a change with table data, which is at a place of a transaction whose
changes are built. -/
structure TableItemRowOf (crates : Crates) (texts : TableTexts) (row : Rows.TableItem) : Prop where
  exists_place : ∃ value tx records info change i, TransactionExtraction.tryFrom value = .ok tx ∧
    getChanges crates tx = .ok records ∧ value.info = some info ∧
      info.changes[i]? = some change ∧ tableTexts change = some texts ∧
        records.tableitems.filter (·.change_index = i) = [row]

section Place

variable {crates : Crates} {value : Input.Transaction} {tx : TransactionExtraction}
  {records : ChangeRecords} {info : Input.TransactionInfo} {change : WriteSetChange}
  {texts : TableTexts} {i : ℕ}

/-- A change with table data has one row, with the stripped texts. -/
theorem exists_strips (htx : TransactionExtraction.tryFrom value = .ok tx)
    (h : getChanges crates tx = .ok records) (hinfo : value.info = some info)
    (hchange : info.changes[i]? = some change) (htexts : tableTexts change = some texts) :
    ∃ row, records.tableitems.filter (·.change_index = i) = [row] ∧ Strips texts row := by
  obtain ⟨record, columns, shared, family, hrecord, hfamily, -, -, hrows⟩ :=
    exists_familyOf_at htx h hinfo hchange
  obtain ⟨tableitem, rfl, hkey, hvalue⟩ := exists_tableitem_of_tryFrom htexts hrecord
  cases hfamily with
  | @TableItem _ row hrow =>
    obtain ⟨address, changeType, -, -, rfl⟩ := tableItemRow_eq_ok hrow
    exact ⟨_, hrows, hkey, hvalue⟩

/-- The row of a change with table data has the stripped texts. -/
theorem TableItemRowOf.strips {row : Rows.TableItem} (h : TableItemRowOf crates texts row) :
    Strips texts row := by
  obtain ⟨value, tx, records, info, change, i, htx, hrecords, hinfo, hchange, htexts, hrow⟩ :=
    h.exists_place
  obtain ⟨row', hrow', hstrips⟩ := exists_strips htx hrecords hinfo hchange htexts
  obtain rfl := List.singleton_inj.1 (hrow'.symm.trans hrow)
  exact hstrips

/-- The one row of a change with table data has its texts without their pairs of quotation marks
exactly when each text that ends with a mark starts with one. Whether written or deleted, a key with
the same text has the same name. -/
theorem tableItemRow_unquotes_iff (htx : TransactionExtraction.tryFrom value = .ok tx)
    (h : getChanges crates tx = .ok records) (hinfo : value.info = some info)
    (hchange : info.changes[i]? = some change) (htexts : tableTexts change = some texts) :
    ∃ row, records.tableitems.filter (·.change_index = i) = [row] ∧
      (Unquotes texts row ↔ texts.OpenIfClosed) ∧
        ∀ texts' row', TableItemRowOf crates texts' row' → texts'.key = texts.key →
          row'.key.name = row.key.name := by
  obtain ⟨row, hrow, hstrips⟩ := exists_strips htx h hinfo hchange htexts
  refine ⟨row, hrow, hstrips.unquotes_iff, fun texts' row' hrow' hkey => ?_⟩
  rw [hrow'.strips.key, hstrips.key, hkey]

end Place

/-- A user transaction that writes a table item with this key. -/
def sampleTableItem (key : String) : Input.Transaction :=
  { sampleUser with
    info := some {
      hash := [1]
      state_change_hash := []
      event_root_hash := []
      state_checkpoint_hash := none
      gas_used := 1
      success := true
      vm_status := "Executed successfully"
      accumulator_root_hash := []
      changes := [⟨.known .WriteTableItem, some (.WriteTableItem
        ⟨[], "0x1", some ⟨key, "0x1::string::String", "\"1\"", "u64"⟩⟩)⟩] } }

/-- A key between quotation marks is unquoted. -/
theorem tableItemRow_unquotes_iff_quoted :
    ∃ tx records texts row,
      TransactionExtraction.tryFrom (sampleTableItem "\"abc\"") = .ok tx ∧
        getChanges sampleCrates tx = .ok records ∧
          records.tableitems.filter (·.change_index = 0) = [row] ∧
            (Unquotes texts row ↔ texts.OpenIfClosed) := by
  obtain ⟨tx, records, htx, h⟩ := @exists_changes_of_isSome sampleCrates
    (sampleTableItem "\"abc\"") (by decide +kernel)
  obtain ⟨row, hrow, hiff, -⟩ := tableItemRow_unquotes_iff (i := 0) htx h rfl rfl rfl
  exact ⟨tx, records, _, row, htx, h, hrow, hiff⟩

/-- A key with a closing quotation mark only loses it. -/
theorem not_unquotes_of_closing_quote :
    ¬ ∀ (crates : Crates) (value : Input.Transaction) (tx : TransactionExtraction)
      (records : ChangeRecords), TransactionExtraction.tryFrom value = .ok tx →
        getChanges crates tx = .ok records → ∀ info, value.info = some info →
          ∀ (i : ℕ) (change : WriteSetChange), info.changes[i]? = some change →
            ∀ texts, tableTexts change = some texts →
              ∃ row, records.tableitems.filter (·.change_index = i) = [row] ∧
                Unquotes texts row := by
  intro h
  obtain ⟨tx, records, htx, hrecords⟩ := @exists_changes_of_isSome sampleCrates
    (sampleTableItem "abc\"") (by decide +kernel)
  obtain ⟨row, hrow, hunquotes⟩ := h _ _ _ _ htx hrecords _ rfl 0 _ rfl _ rfl
  obtain ⟨row', hrow', hstrips⟩ := exists_strips (i := 0) htx hrecords rfl rfl rfl
  obtain rfl := List.singleton_inj.1 (hrow'.symm.trans hrow)
  have hopen := (hstrips.unquotes_iff.1 hunquotes).1 (by decide)
  exact absurd hopen (by decide)

end AptosEtl.Tables
