import Mathlib.Data.List.Dedup
import Mathlib.Order.Lattice

/-!
# Queries over rows

The parts of SQL that the queries of this development are made of, over lists of rows of any type.
A value that may be `NULL` is an `Option`, and a condition has a truth value that may be unknown: it
is `some true`, `some false` or `none`. `WHERE`, `ON` and `HAVING` keep the rows whose condition
holds, so an unknown condition drops a row as a false one does.
-/

universe u v w

namespace Sql

variable {α : Type u} {β : Type v} {γ : Type w} {κ : Type u}

/-! ## Conditions -/

/-- A truth value, `none` where it is unknown. -/
abbrev Truth := Option Bool

/-- The condition is known to be true. -/
def Truth.Holds (t : Truth) : Prop := t = some true

instance (t : Truth) : Decidable t.Holds := inferInstanceAs (Decidable (t = some true))

/-- A comparison of two values, unknown if one of them is `NULL`. -/
def compare (op : α → β → Bool) (x : Option α) (y : Option β) : Truth :=
  x.bind fun a => y.map (op a)

/-- `AND`: false if one side is, and otherwise unknown if one side is. -/
def Truth.and : Truth → Truth → Truth
  | some false, _ => some false
  | _, some false => some false
  | some true, some true => some true
  | _, _ => none

/-- `OR`: true if one side is, and otherwise unknown if one side is. -/
def Truth.or : Truth → Truth → Truth
  | some true, _ => some true
  | _, some true => some true
  | some false, some false => some false
  | _, _ => none

/-- `IS NULL`, which is never unknown. -/
def isNull (x : Option α) : Truth := some x.isNone

/-- `BETWEEN`, with both bounds included. -/
def between [LinearOrder α] (x : Option α) (lo hi : α) : Truth :=
  (compare (fun a b => decide (b ≤ a)) x (some lo)).and
    (compare (fun a b => decide (a ≤ b)) x (some hi))

@[simp] theorem holds_some (b : Bool) : Truth.Holds (some b) ↔ b = true := by
  simp [Truth.Holds]

@[simp] theorem not_holds_none : ¬ Truth.Holds none := nofun

/-- A comparison holds when both sides have a value and the values compare. -/
@[simp] theorem holds_compare {op : α → β → Bool} {x : Option α} {y : Option β} :
    (compare op x y).Holds ↔ ∃ a b, x = some a ∧ y = some b ∧ op a b = true := by
  cases x <;> cases y <;> simp [compare]

/-- A conjunction holds when both of its sides do. -/
@[simp] theorem holds_and {t t' : Truth} : (t.and t').Holds ↔ t.Holds ∧ t'.Holds := by
  rcases t with _ | _ | _ <;> rcases t' with _ | _ | _ <;> simp [Truth.and]

/-- A disjunction holds when one of its sides does. -/
@[simp] theorem holds_or {t t' : Truth} : (t.or t').Holds ↔ t.Holds ∨ t'.Holds := by
  rcases t with _ | _ | _ <;> rcases t' with _ | _ | _ <;> simp [Truth.or]

/-- `IS NULL` holds when there is no value. -/
@[simp] theorem holds_isNull {x : Option α} : (isNull x).Holds ↔ x = none := by
  simp [isNull]

/-- A value is between two bounds when there is one and it is. -/
@[simp] theorem holds_between [LinearOrder α] {x : Option α} {lo hi : α} :
    (between x lo hi).Holds ↔ ∃ a, x = some a ∧ lo ≤ a ∧ a ≤ hi := by
  cases x <;> simp [between]

/-! ## Rows -/

/-- `WHERE`. -/
def filter (condition : α → Truth) (rows : List α) : List α :=
  rows.filter fun row => (condition row).Holds

/-- `DELETE`: the rows whose condition does not hold are left. -/
def delete (condition : α → Truth) (rows : List α) : List α :=
  rows.filter fun row => ¬ (condition row).Holds

/-- The rows that a `LEFT JOIN` makes of one row: one for each match, and one with `NULL` if there
is none. -/
def joined (on : α → β → Truth) (right : List β) (row : α) : List (α × Option β) :=
  match filter (on row) right with
  | [] => [(row, none)]
  | found => found.map fun other => (row, some other)

/-- `LEFT JOIN`. -/
def leftJoin (on : α → β → Truth) (left : List α) (right : List β) : List (α × Option β) :=
  left.flatMap (joined on right)

/-- `INNER JOIN`. -/
def innerJoin (on : α → β → Truth) (left : List α) (right : List β) : List (α × β) :=
  left.flatMap fun row => (filter (on row) right).map fun other => (row, other)

/-- The condition on joined rows does not hold where the right side is `NULL`. -/
def NullRejecting (condition : α × Option β → Truth) : Prop :=
  ∀ row, ¬ (condition (row, none)).Holds

/-- `GROUP BY`: the keys, each with its rows. -/
def groupBy [DecidableEq κ] (key : α → κ) (rows : List α) : List (κ × List α) :=
  (rows.map key).dedup.map fun k => (k, rows.filter fun row => key row = k)

/-- `ARRAY_AGG(.. LIMIT 1)[OFFSET(0)]` of each group, with a function that picks the row. -/
def aggregateOne (pick : List α → Option α) (groups : List (κ × List α)) : List α :=
  groups.filterMap fun group => pick group.2

/-- A row is picked from each group that has one. -/
def Picks (pick : List α → Option α) : Prop :=
  ∀ group, group ≠ [] → ∃ row ∈ group, pick group = some row

/-- `MERGE .. ON FALSE` with `WHEN NOT MATCHED BY SOURCE AND .. THEN DELETE` and `WHEN NOT MATCHED
THEN INSERT ROW`: no row matches, so rows are deleted by the condition and the whole source is
inserted. -/
def mergeOnFalse (condition : α → Truth) (source dest : List α) : List α :=
  delete condition dest ++ source

/-- `COUNT` of an expression: the rows where it is not `NULL`. -/
def count (expression : α → Option β) (rows : List α) : ℕ := (rows.filterMap expression).length

@[simp] theorem mem_filter {condition : α → Truth} {rows : List α} {row : α} :
    row ∈ filter condition rows ↔ row ∈ rows ∧ (condition row).Holds := by
  simp [filter]

@[simp] theorem mem_delete {condition : α → Truth} {rows : List α} {row : α} :
    row ∈ delete condition rows ↔ row ∈ rows ∧ ¬ (condition row).Holds := by
  simp [delete]

theorem filter_append (condition : α → Truth) (rows rows' : List α) :
    filter condition (rows ++ rows') = filter condition rows ++ filter condition rows' :=
  List.filter_append _ _

/-- Rows that all meet the condition are kept. -/
theorem filter_eq_self {condition : α → Truth} {rows : List α}
    (h : ∀ row ∈ rows, (condition row).Holds) : filter condition rows = rows :=
  List.filter_eq_self.2 (by simpa using h)

/-- Rows none of which meets the condition are dropped. -/
theorem filter_eq_nil {condition : α → Truth} {rows : List α}
    (h : ∀ row ∈ rows, ¬ (condition row).Holds) : filter condition rows = [] :=
  List.filter_eq_nil_iff.2 (by simpa using h)

/-- Of rows that meet a condition and rows that do not, the former are kept. -/
theorem filter_append_eq_left {condition : α → Truth} {inside outside : List α}
    (hin : ∀ row ∈ inside, (condition row).Holds)
    (hout : ∀ row ∈ outside, ¬ (condition row).Holds) :
    filter condition (inside ++ outside) = inside := by
  rw [filter_append, filter_eq_self hin, filter_eq_nil hout, List.append_nil]

/-- Of rows that meet a condition and rows that do not, the former are deleted. -/
theorem delete_append_eq_right {condition : α → Truth} {inside outside : List α}
    (hin : ∀ row ∈ inside, (condition row).Holds)
    (hout : ∀ row ∈ outside, ¬ (condition row).Holds) :
    delete condition (inside ++ outside) = outside := by
  have hdropped : delete condition inside = [] :=
    List.filter_eq_nil_iff.2 (by simpa using hin)
  have hkept : delete condition outside = outside :=
    List.filter_eq_self.2 (by simpa using hout)
  rw [delete, List.filter_append, ← delete, ← delete, hdropped, hkept, List.nil_append]

/-- What is deleted is not there. -/
theorem filter_delete_self (condition : α → Truth) (rows : List α) :
    filter condition (delete condition rows) = [] :=
  filter_eq_nil fun _ hrow => (mem_delete.1 hrow).2

/-- Deleting under one condition leaves the rows of one that excludes it. -/
theorem filter_delete_of_disjoint {condition condition' : α → Truth} (rows : List α)
    (h : ∀ row, (condition row).Holds → ¬ (condition' row).Holds) :
    filter condition (delete condition' rows) = filter condition rows := by
  rw [filter, delete, List.filter_filter]
  refine List.filter_congr fun row _ => ?_
  by_cases hrow : (condition row).Holds
  · simp [hrow, h row hrow]
  · simp [hrow]

/-- A group is a key of some rows, with all of the rows that have it. -/
theorem mem_groupBy [DecidableEq κ] {key : α → κ} {rows : List α} {k : κ} {group : List α} :
    (k, group) ∈ groupBy key rows ↔
      (∃ row ∈ rows, key row = k) ∧ group = rows.filter fun row => key row = k := by
  simp only [groupBy, List.mem_map, List.mem_dedup, Prod.mk.injEq]
  constructor
  · rintro ⟨k', ⟨row, hrow, rfl⟩, rfl, rfl⟩
    exact ⟨⟨row, hrow, rfl⟩, rfl⟩
  · rintro ⟨⟨row, hrow, rfl⟩, rfl⟩
    exact ⟨_, ⟨row, hrow, rfl⟩, rfl, rfl⟩

/-- The rows that are picked have the keys of the rows, each once, and are among them. -/
theorem aggregateOne_spec [DecidableEq κ] {key : α → κ} {pick : List α → Option α}
    (hpick : Picks pick) (rows : List α) :
    (aggregateOne pick (groupBy key rows)).map key = (rows.map key).dedup ∧
      ∀ row ∈ aggregateOne pick (groupBy key rows), row ∈ rows := by
  have hgroup : ∀ k ∈ (rows.map key).dedup, ∃ row ∈ rows, key row = k ∧
      pick (rows.filter fun row => key row = k) = some row := by
    intro k hk
    obtain ⟨row, hrow, rfl⟩ := List.mem_map.1 (List.mem_dedup.1 hk)
    have hself : row ∈ rows.filter fun r => key r = key row :=
      List.mem_filter.2 ⟨hrow, decide_eq_true rfl⟩
    obtain ⟨picked, hpicked, hsome⟩ := hpick _ (List.ne_nil_of_mem hself)
    obtain ⟨hpicked, hkey⟩ := List.mem_filter.1 hpicked
    exact ⟨picked, hpicked, of_decide_eq_true hkey, hsome⟩
  have hpicked : aggregateOne pick (groupBy key rows) = (rows.map key).dedup.filterMap
      fun k => pick (rows.filter fun row => key row = k) := List.filterMap_map
  rw [hpicked]
  clear hpicked
  generalize (rows.map key).dedup = keys at hgroup
  induction keys with
  | nil => exact ⟨rfl, nofun⟩
  | cons k keys ih =>
    obtain ⟨row, hrow, hkey, hsome⟩ := hgroup k List.mem_cons_self
    obtain ⟨hkeys, hmem⟩ := ih fun k' hk' => hgroup k' (List.mem_cons_of_mem _ hk')
    simp only [List.filterMap_cons, hsome]
    rw [List.map_cons, hkeys, hkey]
    exact ⟨rfl, List.forall_mem_cons.2 ⟨hrow, hmem⟩⟩

/-- Picking one row for each key gives the distinct rows, where distinct rows have different
keys. -/
theorem aggregateOne_perm [DecidableEq κ] {key : α → κ} {pick : List α → Option α}
    (hpick : Picks pick) {rows distinct : List α} (hkeys : (distinct.map key).Nodup)
    (hmem : ∀ row, row ∈ rows ↔ row ∈ distinct) :
    (aggregateOne pick (groupBy key rows)).Perm distinct := by
  obtain ⟨hpicked, hrows⟩ :
      (aggregateOne pick (groupBy key rows)).map key = (rows.map key).dedup ∧
        ∀ row ∈ aggregateOne pick (groupBy key rows), row ∈ rows := aggregateOne_spec hpick rows
  have hnodup : ((aggregateOne pick (groupBy key rows)).map key).Nodup := by
    rw [hpicked]
    exact List.nodup_dedup _
  refine (List.perm_ext_iff_of_nodup hnodup.of_map hkeys.of_map).2 fun row => ?_
  constructor
  · intro hrow
    exact (hmem row).1 (hrows row hrow)
  · intro hrow
    have hkey : key row ∈ (aggregateOne pick (groupBy key rows)).map key := by
      rw [hpicked]
      exact List.mem_dedup.2 (List.mem_map_of_mem ((hmem row).2 hrow))
    obtain ⟨other, hother, heq⟩ := List.mem_map.1 hkey
    -- the row that is picked for the key is the row itself
    have hsame : other = row :=
      List.inj_on_of_nodup_map hkeys ((hmem other).1 (hrows other hother)) hrow heq
    rwa [← hsame]

/-- Replacing the rows of a window by one row for each key leaves the distinct rows, and the rows
outside the window. -/
theorem mergeOnFalse_perm [DecidableEq κ] {key : α → κ} {window : α → Truth}
    {pick : List α → Option α} (hpick : Picks pick) {rows duplicated distinct outside : List α}
    (hrows : rows.Perm (duplicated ++ outside)) (hkeys : (distinct.map key).Nodup)
    (hmem : ∀ row, row ∈ duplicated ↔ row ∈ distinct)
    (hin : ∀ row ∈ distinct, (window row).Holds) (hout : ∀ row ∈ outside, ¬ (window row).Holds) :
    (mergeOnFalse window (aggregateOne pick (groupBy key (filter window rows))) rows).Perm
      (distinct ++ outside) := by
  have hwindow : ∀ row, row ∈ filter window rows ↔ row ∈ distinct := by
    intro row
    rw [mem_filter, hrows.mem_iff, List.mem_append, hmem]
    constructor
    · rintro ⟨hrow | hrow, hholds⟩
      · exact hrow
      · exact absurd hholds (hout row hrow)
    · intro hrow
      exact ⟨.inl hrow, hin row hrow⟩
  have hleft : (delete window rows).Perm outside := by
    have hdelete : delete window (duplicated ++ outside) = outside :=
      delete_append_eq_right (fun row hrow => hin row ((hmem row).1 hrow)) hout
    rw [← hdelete]
    exact hrows.filter _
  have hsource := aggregateOne_perm hpick hkeys hwindow
  exact (hleft.append hsource).trans List.perm_append_comm

/-- Where the rows are those of a list of distinct ones, some of them more than once, replacing
those of a window leaves the distinct rows of the window, and the rows outside it. -/
theorem mergeOnFalse_perm_of_mem [DecidableEq κ] {key : α → κ} {pick : List α → Option α}
    (hpick : Picks pick) (window : α → Truth) {rows distinct : List α}
    (hkeys : (distinct.map key).Nodup) (hmem : ∀ row, row ∈ rows ↔ row ∈ distinct) :
    (mergeOnFalse window (aggregateOne pick (groupBy key (filter window rows))) rows).Perm
      (filter window distinct ++ delete window rows) := by
  have hsplit : rows.Perm (filter window rows ++ delete window rows) := by
    have hsplit := (List.filter_append_perm (fun row => decide (window row).Holds) rows).symm
    simpa only [filter, delete, decide_not] using hsplit
  have hwindow : ∀ row, row ∈ filter window rows ↔ row ∈ filter window distinct := by
    intro row
    rw [mem_filter, mem_filter, hmem]
  refine mergeOnFalse_perm hpick hsplit ?_ hwindow (fun row hrow => (mem_filter.1 hrow).2)
    fun row hrow => (mem_delete.1 hrow).2
  exact hkeys.sublist (List.filter_sublist.map key)

/-- Replacing the rows of one window after another, each by one row for each key. -/
def mergeWindows [DecidableEq κ] (key : α → κ) (jobs : List ((α → Truth) × (List α → Option α)))
    (rows : List α) : List α :=
  jobs.foldl (fun rows job =>
    mergeOnFalse job.1 (aggregateOne job.2 (groupBy key (filter job.1 rows))) rows) rows

/-- Replacing the rows of windows that together hold all of the distinct rows leaves these. The
windows may overlap. -/
theorem mergeWindows_perm [DecidableEq κ] {key : α → κ}
    {jobs : List ((α → Truth) × (List α → Option α))} (hpicks : ∀ job ∈ jobs, Picks job.2)
    {rows distinct : List α} (hkeys : (distinct.map key).Nodup)
    (hmem : ∀ row, row ∈ rows ↔ row ∈ distinct)
    (hin : ∀ row ∈ distinct, ∃ job ∈ jobs, (job.1 row).Holds) :
    (mergeWindows key jobs rows).Perm distinct := by
  classical
  -- outside all windows a row stays as often as it is, and inside it is there once
  have hcount : ∀ row, (mergeWindows key jobs rows).count row =
      if ∃ job ∈ jobs, (job.1 row).Holds then distinct.count row else rows.count row := by
    clear hin
    induction jobs generalizing rows with
    | nil => simp [mergeWindows]
    | cons job jobs ih =>
      intro row
      have hperm := mergeOnFalse_perm_of_mem (hpicks job List.mem_cons_self) job.1 hkeys hmem
      have hmem' : ∀ row, row ∈ mergeOnFalse job.1
          (aggregateOne job.2 (groupBy key (filter job.1 rows))) rows ↔ row ∈ distinct := by
        intro row
        rw [hperm.mem_iff, List.mem_append, mem_filter, mem_delete, hmem, ← and_or_left]
        exact and_iff_left (em _)
      have hrest := ih (fun job hjob => hpicks job (List.mem_cons_of_mem _ hjob)) hmem' row
      have hone : (filter job.1 distinct ++ delete job.1 rows).count row =
          if (job.1 row).Holds then distinct.count row else rows.count row := by
        rw [List.count_append]
        by_cases hholds : (job.1 row).Holds
        · have hout : row ∉ delete job.1 rows := fun hrow => (mem_delete.1 hrow).2 hholds
          rw [if_pos hholds, List.count_eq_zero.2 hout, filter, List.count_filter (by simpa)]
          rfl
        · have hout : row ∉ filter job.1 distinct := fun hrow => hholds (mem_filter.1 hrow).2
          rw [if_neg hholds, List.count_eq_zero.2 hout, delete, List.count_filter (by simpa),
            Nat.zero_add]
      rw [mergeWindows, List.foldl_cons, ← mergeWindows, hrest, hperm.count_eq, hone]
      by_cases hlater : ∃ job ∈ jobs, (job.1 row).Holds <;>
        by_cases hholds : (job.1 row).Holds <;> simp [hlater, hholds]
  refine List.perm_iff_count.2 fun row => ?_
  rw [hcount]
  by_cases hrow : row ∈ distinct
  · rw [if_pos (hin row hrow)]
  · have hnone : row ∉ rows := fun h => hrow ((hmem row).1 h)
    rw [List.count_eq_zero.2 hrow, List.count_eq_zero.2 hnone, ite_self]

/-- Under a condition that rejects `NULL`, the rows made of one row are its matches. -/
theorem filter_joined_of_nullRejecting {condition : α × Option β → Truth}
    (hreject : NullRejecting condition) (on : α → β → Truth) (right : List β) (row : α) :
    filter condition (joined on right row) =
      filter condition ((filter (on row) right).map fun other => (row, some other)) := by
  unfold joined
  split
  · next hnone =>
    have hdrop : filter condition [(row, none)] = [] :=
      filter_eq_nil fun r hr => by rw [List.mem_singleton.1 hr]; exact hreject row
    rw [hdrop, hnone]
    rfl
  · rfl

/-- A `LEFT JOIN` is an `INNER JOIN` under a condition that rejects `NULL`. -/
theorem filter_leftJoin_of_nullRejecting {condition : α × Option β → Truth}
    (hreject : NullRejecting condition) (on : α → β → Truth) (left : List α) (right : List β) :
    filter condition (leftJoin on left right) =
      filter condition ((innerJoin on left right).map fun r => (r.1, some r.2)) := by
  induction left with
  | nil => rfl
  | cons row left ih =>
    have hleft : leftJoin on (row :: left) right = joined on right row ++ leftJoin on left right :=
      List.flatMap_cons
    have hinner : innerJoin on (row :: left) right =
        (filter (on row) right).map (fun other => (row, other)) ++ innerJoin on left right :=
      List.flatMap_cons
    rw [hleft, hinner, filter_append, ih, filter_joined_of_nullRejecting hreject, List.map_append,
      filter_append, List.map_map]
    rfl

/-- The rows that a join makes have their left side from the row that they are made of. -/
theorem fst_of_mem_joined {on : α → β → Truth} {right : List β} {row : α} {r : α × Option β}
    (h : r ∈ joined on right row) : r.1 = row := by
  unfold joined at h
  split at h
  · rw [List.mem_singleton.1 h]
  · obtain ⟨other, -, rfl⟩ := List.mem_map.1 h
    rfl

/-- Where rows have different keys, the rows of a join with the key of one of them are made of
it. -/
theorem filter_leftJoin_of_key [DecidableEq κ] {on : α → β → Truth} {key : α → κ} {left : List α}
    {right : List β} (hkeys : (left.map key).Nodup) {row : α} (hrow : row ∈ left) :
    (leftJoin on left right).filter (fun r => key r.1 = key row) = joined on right row := by
  induction left with
  | nil => simp at hrow
  | cons other left ih =>
    obtain ⟨hnew, hkeys⟩ := List.nodup_cons.1 hkeys
    have hself : ∀ a : α, (joined on right a).filter (fun r => key r.1 = key row) =
        if key a = key row then joined on right a else [] := by
      intro a
      split_ifs with ha
      · refine List.filter_eq_self.2 fun r hr => ?_
        rw [fst_of_mem_joined hr, ha]
        simp
      · refine List.filter_eq_nil_iff.2 fun r hr => ?_
        rw [fst_of_mem_joined hr]
        simpa using ha
    rw [leftJoin, List.flatMap_cons, List.filter_append, ← leftJoin, hself]
    rcases List.mem_cons.1 hrow with rfl | hmem
    · -- the rows of the others have other keys
      have hothers : (leftJoin on left right).filter (fun r => key r.1 = key row) = [] := by
        refine List.filter_eq_nil_iff.2 fun r hr => ?_
        obtain ⟨a, ha, hr⟩ := List.mem_flatMap.1 hr
        rw [fst_of_mem_joined hr]
        have hne : key a ≠ key row := fun heq => hnew (heq ▸ List.mem_map_of_mem ha)
        simpa using hne
      rw [if_pos rfl, hothers, List.append_nil]
    · have hne : key other ≠ key row := fun heq => hnew (heq ▸ List.mem_map_of_mem hmem)
      rw [if_neg hne, List.nil_append, ih hkeys hmem]

/-- Where parents have different keys, and each child the key of its parent, the children with the
key of one of the parents are its own. -/
theorem filter_flatMap_of_key [DecidableEq κ] {key : α → κ} {keyOf : β → κ} {children : α → List β}
    {parents : List α} (hkeys : (parents.map key).Nodup)
    (hchild : ∀ a ∈ parents, ∀ b ∈ children a, keyOf b = key a) {a : α} (ha : a ∈ parents) :
    (parents.flatMap children).filter (fun b => keyOf b = key a) = children a := by
  induction parents with
  | nil => exact absurd ha List.not_mem_nil
  | cons other parents ih =>
    obtain ⟨hnew, hkeys⟩ := List.nodup_cons.1 hkeys
    have hrest : ∀ c ∈ parents, ∀ b ∈ children c, keyOf b = key c :=
      fun c hc => hchild c (List.mem_cons_of_mem other hc)
    rw [List.flatMap_cons, List.filter_append]
    rcases List.mem_cons.1 ha with rfl | hmem
    · -- the children of the others have other keys
      have hothers : (parents.flatMap children).filter (fun b => keyOf b = key a) = [] := by
        refine List.filter_eq_nil_iff.2 fun b hb => ?_
        obtain ⟨c, hc, hb⟩ := List.mem_flatMap.1 hb
        have hne : key c ≠ key a := fun heq => hnew (heq ▸ List.mem_map_of_mem hc)
        simpa [hrest c hc b hb] using hne
      have hown : (children a).filter (fun b => keyOf b = key a) = children a :=
        List.filter_eq_self.2 fun b hb => decide_eq_true (hchild a ha b hb)
      rw [hothers, hown, List.append_nil]
    · have hne : key other ≠ key a := fun heq => hnew (heq ▸ List.mem_map_of_mem hmem)
      have hfirst : (children other).filter (fun b => keyOf b = key a) = [] := by
        refine List.filter_eq_nil_iff.2 fun b hb => ?_
        simpa [hchild other List.mem_cons_self b hb] using hne
      rw [hfirst, List.nil_append, ih hkeys hrest hmem]

end Sql
