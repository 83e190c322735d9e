import SuperScaler.Proto
import SuperScaler.Value
import SuperScaler.Graph
import SuperScaler.GraphUtil
import SuperScaler.Parallelization
import SuperScaler.TfAdapter
import SuperScaler.Runtime
import SuperScaler.Proofs.Attributes
import SuperScaler.Proofs.DataParallelism
import SuperScaler.Proofs.Dataflow
import SuperScaler.Proofs.DatasetPaths
import SuperScaler.Proofs.Devices
import SuperScaler.Proofs.Dtypes
import SuperScaler.Proofs.Export
import SuperScaler.Proofs.Import
import SuperScaler.Proofs.Parallelizer
import SuperScaler.Proofs.PartitionGraphs
import SuperScaler.Proofs.ReverseDFS
import SuperScaler.Proofs.RoundTrip
import SuperScaler.Proofs.VisitTermination
import SuperScaler.Proofs.Workers
