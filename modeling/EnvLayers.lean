import EnvLayers.Main
import EnvLayers.Proofs.Environment.Failing
import EnvLayers.Proofs.Environment.Influence
import EnvLayers.Proofs.Environment.Isolation
import EnvLayers.Proofs.Environment.Locality
import EnvLayers.Proofs.Environment.Names
import EnvLayers.Proofs.Environment.Once
import EnvLayers.Proofs.Environment.OwnParts
import EnvLayers.Proofs.Environment.Rebuild
import EnvLayers.Proofs.Script.Injection
import EnvLayers.Variable.Codec
import EnvLayers.Proofs.Op.Codec
import EnvLayers.Proofs.Environment.Grouping
import EnvLayers.Proofs.Environment.Shadowing
import EnvLayers.Proofs.Profile.Groups
import EnvLayers.Proofs.Environment.Precedence
import EnvLayers.Proofs.Profile.Sections
import EnvLayers.Proofs.Profile.Includes
import EnvLayers.Proofs.Script.Deactivation
import EnvLayers.Proofs.Variable.ClosedForm
import EnvLayers.Proofs.Graph.CycleReport
import EnvLayers.Proofs.Graph.Repeated
import EnvLayers.Proofs.Environment.NormalForm
import EnvLayers.Proofs.Environment.Outranking
import EnvLayers.Proofs.Environment.SearchPaths
import EnvLayers.Proofs.Profile.Concatenation
import EnvLayers.Proofs.Profile.Refusal
import EnvLayers.Proofs.Text.Replace
import EnvLayers.Proofs.Profile.Directory
import EnvLayers.Proofs.Batch.Percent
import EnvLayers.Proofs.Script.Bat
import EnvLayers.Proofs.Batch.Output
import EnvLayers.Proofs.Shell.Output
import EnvLayers.Proofs.Script.Output
import EnvLayers.Proofs.Variable.Splitting
import EnvLayers.Proofs.Graph.Acceptance
import EnvLayers.Proofs.Command.Generate
import EnvLayers.Proofs.Graph.Template
import EnvLayers.Proofs.Environment.Layout
import EnvLayers.Proofs.Graph.Counting
