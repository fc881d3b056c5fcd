import TaskFlow.Main
import TaskFlow.Manager.Monitor
import TaskFlow.Proofs.Cache.Recency
import TaskFlow.Proofs.Client.Projections
import TaskFlow.Proofs.EditDistance
import TaskFlow.Proofs.Job.Decoders
import TaskFlow.Proofs.Job.Nesting
import TaskFlow.Proofs.Manager.AnyOrder
import TaskFlow.Proofs.Manager.Config
import TaskFlow.Proofs.Manager.Discards
import TaskFlow.Proofs.Manager.Isolation
import TaskFlow.Proofs.Manager.Monitor
import TaskFlow.Proofs.Manager.Readings
import TaskFlow.Proofs.Manager.Results
import TaskFlow.Proofs.Manager.Served
import TaskFlow.Proofs.Manager.Shutdown
import TaskFlow.Proofs.Manager.Spool
import TaskFlow.Proofs.Manager.Submissions
import TaskFlow.Proofs.Registry.Records
import TaskFlow.Proofs.Registry.Slots
import TaskFlow.Proofs.Registry.Sweeps
import TaskFlow.Proofs.Rows.Filter
import TaskFlow.Proofs.Rows.FuzzyJoin
import TaskFlow.Proofs.Rows.Merge
import TaskFlow.Proofs.Rows.Sums
import TaskFlow.Proofs.Table.Columns
import TaskFlow.Proofs.Table.Csv
import TaskFlow.Proofs.Worker.Cancellation
import TaskFlow.Proofs.Worker.Chunks
import TaskFlow.Proofs.Worker.Exits
import TaskFlow.Proofs.Worker.Framing
import TaskFlow.Proofs.Worker.Gather
import TaskFlow.Proofs.Worker.Process
import TaskFlow.Proofs.Worker.Reports
import TaskFlow.Proofs.Worker.Stops
import TaskFlow.Proofs.Worker.Stream
