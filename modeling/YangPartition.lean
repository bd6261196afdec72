import YangPartition.Path.Parser
import YangPartition.Path.Expression
import YangPartition.Json.Parser
import YangPartition.Schema.Reading
import YangPartition.Compile.Reference
import YangPartition.Graph
import YangPartition.Generation
import YangPartition.Command.Outcome
import YangPartition.Main
import YangPartition.Proofs.Resource.Ownership
import YangPartition.Proofs.Resource.Scope
import YangPartition.Proofs.Compile.History
import YangPartition.Proofs.Compile.Placement
import YangPartition.Proofs.Compile.Attachment
import YangPartition.Proofs.Compile.Separation
import YangPartition.Proofs.Compile.Modes
import YangPartition.Proofs.Compile.Stateful
import YangPartition.Proofs.Compile.Overrides
import YangPartition.Proofs.Compile.Records
import YangPartition.Proofs.Compile.Restart
import YangPartition.Proofs.Compile.Boundaries
import YangPartition.Proofs.Manifest.FileNames
import YangPartition.Proofs.Compile.Keys
import YangPartition.Proofs.Compile.Failure
import YangPartition.Proofs.Resource.Declarations
import YangPartition.Proofs.Compile.LeafLists
import YangPartition.Proofs.Graph.Order
import YangPartition.Proofs.Graph.Drawing
import YangPartition.Proofs.Path.Brackets
import YangPartition.Proofs.Schema.Inheritance
import YangPartition.Proofs.Path.Reading
import YangPartition.Proofs.Path.Segments
import YangPartition.Proofs.Path.Printed
import YangPartition.Proofs.Path.Image
import YangPartition.Proofs.Path.Dropped
import YangPartition.Proofs.Container.Levels
import YangPartition.Proofs.Path.Denotation
import YangPartition.Proofs.Schema.Loading
import YangPartition.Proofs.Compile.Stated
import YangPartition.Proofs.Path.Spine
