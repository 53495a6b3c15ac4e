import StackMutants.Text.Quoted
import StackMutants.Code.Pattern
import StackMutants.Code.Depth
import StackMutants.Json.Reader
import StackMutants.Json.Printer
import StackMutants.Number.Shortest
import StackMutants.Text.Painted
import StackMutants.Fault
import StackMutants.Journal
import StackMutants.Pass.Replay
import StackMutants.Operator.Selection
import StackMutants.Sequence.Chunks
import StackMutants.Outcome
import StackMutants.Program
import StackMutants.Plan.Build
import StackMutants.Run.Execution
import StackMutants.Run.Handover
import StackMutants.Report
import StackMutants.Yaml.Token
import StackMutants.Yaml.Node
import StackMutants.Json.View
import StackMutants.Yaml.View
import StackMutants.Datum.Project
import StackMutants.Files.Directory
import StackMutants.Command.Arguments
import StackMutants.Command.Run
import StackMutants.Main
import StackMutants.Proofs.Numbering
import StackMutants.Proofs.Splice
import StackMutants.Proofs.Sequence
import StackMutants.Proofs.Scan
import StackMutants.Proofs.Review
import StackMutants.Proofs.Grouping
import StackMutants.Proofs.Walk
import StackMutants.Proofs.Structure
import StackMutants.Proofs.Trace
import StackMutants.Proofs.Independence
import StackMutants.Proofs.Conservation
import StackMutants.Proofs.Handover
import StackMutants.Proofs.Courses
import StackMutants.Proofs.Lifecycle
import StackMutants.Proofs.Paths
import StackMutants.Proofs.Closure
import StackMutants.Proofs.SideExits
import StackMutants.Proofs.Provenance
import StackMutants.Proofs.Scheduling
import StackMutants.Proofs.Convergence
import StackMutants.Proofs.Retention
import StackMutants.Proofs.Isolation
import StackMutants.Proofs.TestScope
import StackMutants.Proofs.JsonText
import StackMutants.Proofs.Archives
import StackMutants.Proofs.Arrangement
import StackMutants.Proofs.DeadEnds
import StackMutants.Proofs.Points
import StackMutants.Proofs.Completion
import StackMutants.Proofs.Partition
import StackMutants.Proofs.Rejection
import StackMutants.Proofs.Targets
import StackMutants.Proofs.Distinctness
import StackMutants.Proofs.Brackets
import StackMutants.Proofs.Signatures
import StackMutants.Proofs.Recall
import StackMutants.Proofs.Verdicts
import StackMutants.Proofs.Involution
import StackMutants.Proofs.Composition
import StackMutants.Proofs.Selection
import StackMutants.Proofs.ByteOrder
import StackMutants.Proofs.Coverage
import StackMutants.Proofs.Planning
