import AptosEtl.Airflow.Warehouse
import AptosEtl.Lib.Sql

/-!
# The check of the blocks table

The query of `row_counts.py` for the blocks table, which compares block heights instead of counts.

The `LEFT JOIN` gives the transactions without a block a row with `NULL`. The window then asks for
the timestamp of the block, so these rows are dropped, and of those that are left no height is
`NULL`: the query returns nothing (`bigqueryBlockMismatches_eq_nil`).
-/

namespace AptosEtl.Airflow

/-- A row of the transactions or of the blocks table, as far as the query reads it. -/
structure HeightRow where
  block_height : ℤ
  block_timestamp : ℤ
  deriving DecidableEq, Repr

/-- A row that the query selects. -/
structure HeightMismatchRow where
  transaction_block_height : Option ℤ
  block_block_height : Option ℤ
  deriving DecidableEq, Repr

/-- `ON t.block_height = b.block_height`. -/
def onHeight (t b : HeightRow) : Sql.Truth :=
  Sql.compare (fun a b => decide (a = b)) (some t.block_height) (some b.block_height)

/-- The `WHERE` of the query: the window on both sides of the join, and a height that is `NULL`. -/
def whereMismatch (yesterdate todate : ℤ) (r : HeightRow × Option HeightRow) : Sql.Truth :=
  (Sql.between (some r.1.block_timestamp) yesterdate todate).and
    ((Sql.between (r.2.map (·.block_timestamp)) yesterdate todate).and
      ((Sql.isNull (some r.1.block_height)).or (Sql.isNull (r.2.map (·.block_height)))))

/-- `_bigquery_row_count_mismatches`, of the blocks table. -/
def bigqueryBlockMismatches (transactions blocks : List HeightRow) (yesterdate todate : ℤ) :
    List (Option ℤ) :=
  let windowed := Sql.filter (whereMismatch yesterdate todate)
    (Sql.leftJoin onHeight transactions blocks)
  let result := windowed.map fun r =>
    HeightMismatchRow.mk (some r.1.block_height) (r.2.map (·.block_height))
  let missing_from_blocks_table :=
    if !result.isEmpty then result.map (·.transaction_block_height) else []
  let missing_from_transactions_table :=
    if !result.isEmpty then result.map (·.block_block_height) else []
  missing_from_blocks_table ++ missing_from_transactions_table

variable {transactions blocks : List HeightRow} {yesterdate todate : ℤ}

/-- Where there is no block, the window is unknown. -/
theorem nullRejecting_whereMismatch : Sql.NullRejecting (whereMismatch yesterdate todate) := by
  intro t hholds
  simp [whereMismatch] at hholds

/-- Where there is a block, no height is `NULL`. -/
theorem not_holds_whereMismatch (t b : HeightRow) :
    ¬ (whereMismatch yesterdate todate (t, some b)).Holds := by
  simp [whereMismatch]

/-- The query returns nothing, whatever the tables hold. -/
theorem bigqueryBlockMismatches_eq_nil (transactions blocks : List HeightRow)
    (yesterdate todate : ℤ) :
    bigqueryBlockMismatches transactions blocks yesterdate todate = [] := by
  have hnone : Sql.filter (whereMismatch yesterdate todate)
      (Sql.leftJoin onHeight transactions blocks) = [] := by
    rw [Sql.filter_leftJoin_of_nullRejecting nullRejecting_whereMismatch]
    refine Sql.filter_eq_nil fun r hr => ?_
    obtain ⟨⟨t, b⟩, -, rfl⟩ := List.mem_map.1 hr
    exact not_holds_whereMismatch t b
  simp only [bigqueryBlockMismatches, hnone]
  rfl

/-- The height occurs among the rows of the window. -/
def HeightInWindow (rows : List HeightRow) (yesterdate todate h : ℤ) : Prop :=
  ∃ row ∈ rows, row.block_height = h ∧ yesterdate ≤ row.block_timestamp ∧
    row.block_timestamp ≤ todate

/-- The query detects every height of the window that is in one table but not in the other, and
nothing else. -/
def DetectsHeights (transactions blocks : List HeightRow) (yesterdate todate : ℤ) : Prop :=
  bigqueryBlockMismatches transactions blocks yesterdate todate ≠ [] ↔
    ∃ h, HeightInWindow transactions yesterdate todate h ∧
        ¬ HeightInWindow blocks yesterdate todate h ∨
      HeightInWindow blocks yesterdate todate h ∧
        ¬ HeightInWindow transactions yesterdate todate h

/-- The query is right exactly when the heights of the window are the same in both tables. -/
theorem detectsHeights_iff : DetectsHeights transactions blocks yesterdate todate ↔
    ∀ h, HeightInWindow transactions yesterdate todate h ↔
      HeightInWindow blocks yesterdate todate h := by
  rw [DetectsHeights, bigqueryBlockMismatches_eq_nil]
  constructor
  · intro hdetects h
    by_contra hdiffer
    exact hdetects.2 ⟨h, by tauto⟩ rfl
  · intro hsame
    simp [hsame]

/-- A transaction of a block that is not in the blocks table. -/
theorem not_detectsHeights_of_missing_block :
    ¬ DetectsHeights [⟨5, 1000000⟩] [] 0 (midnight 1) := by
  intro h
  refine h.2 ⟨5, .inl ⟨⟨_, List.mem_cons_self, rfl, by decide⟩, ?_⟩⟩ (by decide)
  rintro ⟨row, hrow, -⟩
  exact absurd hrow List.not_mem_nil

end AptosEtl.Airflow
