import Mathlib.Data.Int.Order.Basic

/-!
# The rows of the warehouse

The columns of the BigQuery tables that the quality checks read. A timestamp is its number of
microseconds since the epoch.
-/

namespace AptosEtl.Airflow

/-- The column `num_changes` of the transactions table. -/
structure NumChanges where
  total : ℤ
  delete_module : ℤ
  delete_resource : ℤ
  delete_table_item : ℤ
  write_module : ℤ
  write_resource : ℤ
  write_table_item : ℤ
  deriving DecidableEq, Repr

/-- A row of the transactions table. -/
structure TransactionsRow where
  tx_version : ℤ
  block_timestamp : ℤ
  num_changes : NumChanges
  num_events : Option ℤ
  num_signatures : Option ℤ
  deriving DecidableEq, Repr

/-- A row of one of the tables with the rows of each transaction. -/
structure RecordRow where
  tx_version : ℤ
  block_timestamp : ℤ
  deriving DecidableEq, Repr

/-- The midnight that a day starts with, days being counted from the epoch. -/
def midnight (day : ℤ) : ℤ := day * 86400000000

end AptosEtl.Airflow
