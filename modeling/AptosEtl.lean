import AptosEtl.Lib.Outcome
import AptosEtl.Proto.Input
import AptosEtl.Proto.Rows
import AptosEtl.Reps.Crates
import AptosEtl.Reps.Address
import AptosEtl.Reps.MoveType
import AptosEtl.Reps.Module
import AptosEtl.Reps.Values
import AptosEtl.Reps.Payload
import AptosEtl.Reps.Changes
import AptosEtl.Reps.Signatures
import AptosEtl.Lib.Tally
import AptosEtl.Reps.Transaction
import AptosEtl.Tables.Changes
import AptosEtl.Tables.Events
import AptosEtl.Tables.Transactions
import AptosEtl.Tables.All
import AptosEtl.Lib.Batches
import AptosEtl.Worker.ExtractRange
import AptosEtl.Worker.Published
import AptosEtl.Output.Gcs
import AptosEtl.Coordinator.PublishRanges
import AptosEtl.Coordinator.Shutdown
import AptosEtl.Airflow.Backfill
import AptosEtl.Airflow.RowCounts
import AptosEtl.Reps.Signers
import AptosEtl.Tables.SignatureRows
import AptosEtl.Airflow.SignatureKey
import AptosEtl.Tables.ChangeRows
import AptosEtl.Tables.SharedColumns
import AptosEtl.Tables.Addresses
import AptosEtl.Tables.TaggedUnions
import AptosEtl.Output.Serialize
import AptosEtl.Loader.HourlyLoad
import AptosEtl.Airflow.Dedupe
import AptosEtl.Worker.Subscribe
import AptosEtl.Lib.Delimited
import AptosEtl.Reps.MoveTypeDomain
import AptosEtl.Reps.MoveTypeText
import AptosEtl.Lib.Slots
import AptosEtl.Reps.KeyedSignatures
import AptosEtl.Tables.DetailRows
import AptosEtl.Tables.Builders
import AptosEtl.Lib.Traced
import AptosEtl.Worker.Interrupted
import AptosEtl.Output.Objects
import AptosEtl.Airflow.Schemas
import AptosEtl.Worker.TransformTxs
import AptosEtl.Reps.Canonical
import AptosEtl.Reps.WriteSets
import AptosEtl.Worker.ExtractList
import AptosEtl.Airflow.BlockHeights
import AptosEtl.Airflow.Gaps
import AptosEtl.Lib.Retry
import AptosEtl.Output.Pubsub
import AptosEtl.Tables.ModuleRows
import AptosEtl.Lib.Json
import AptosEtl.Output.Deserialize
import AptosEtl.Coordinator.Partition
import AptosEtl.Tables.ChangeKinds
import AptosEtl.Tables.TableItems
import AptosEtl.Lib.Argmin
import AptosEtl.Tables.Earliest
import AptosEtl.Lib.Consumers
import AptosEtl.Worker.Served
import AptosEtl.Pipeline.Fleet
import AptosEtl.Coordinator.Continuity
import AptosEtl.Pipeline.Deployment
import AptosEtl.Airflow.Convergence
import AptosEtl.Lib.LastWrite
import AptosEtl.Pipeline.Storage
import AptosEtl.Airflow.Quality
import AptosEtl.Lib.Disk
import AptosEtl.Worker.TestData
import AptosEtl.Pipeline.Warehouse
import AptosEtl.Lib.Lines
import AptosEtl.Output.Jsonl
import AptosEtl.Worker.Publishers
