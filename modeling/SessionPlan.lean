import SessionPlan.Run.Freeze
import SessionPlan.Proofs.Document.Invariant
import SessionPlan.Proofs.Document.LongForm
import SessionPlan.Proofs.Document.RoundTrip
import SessionPlan.Proofs.Plan.Built
import SessionPlan.Proofs.Plan.Calls
import SessionPlan.Proofs.Run.Source
import SessionPlan.Proofs.Snapshot.Recompiled
import SessionPlan.Proofs.Variables.Cut
import SessionPlan.Proofs.Plan.Filling
import SessionPlan.Proofs.Snapshot.Listed
import SessionPlan.Proofs.Json.Leaves
import SessionPlan.Proofs.Json.Tree
import SessionPlan.Proofs.Json.RoundTrip
import SessionPlan.Proofs.Document.Serialized
import SessionPlan.Proofs.Tree.Alike
import SessionPlan.Proofs.Document.Ranked
import SessionPlan.Proofs.Document.FieldOrder
import SessionPlan.Proofs.Document.AnyOrder
import SessionPlan.Proofs.Settings.Checked
import SessionPlan.Proofs.Settings.Loaded
import SessionPlan.Proofs.Run.Texts
import SessionPlan.Proofs.Document.YamlText
import SessionPlan.Proofs.Plan.SplitTree
import SessionPlan.Proofs.Document.Precedence
import SessionPlan.Proofs.Document.UnknownFields
import SessionPlan.Proofs.Run.Homes
import SessionPlan.Proofs.Snapshot.Directories
import SessionPlan.Proofs.Variables.Expanded
import SessionPlan.Proofs.Plan.Arguments
import SessionPlan.Proofs.Plan.Startup
import SessionPlan.Proofs.Settings.Overlaid
import SessionPlan.Proofs.Settings.Pointed
import SessionPlan.Proofs.Snapshot.Accepted
import SessionPlan.Proofs.Run.Appended
