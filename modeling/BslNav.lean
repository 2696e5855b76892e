import BslNav.Text.Range
import BslNav.Text.LineIndex
import BslNav.Text.LowerCase
import BslNav.Workspace.Definition
import BslNav.Expr.Lowering
import BslNav.Settings.Choice
import BslNav.Settings.Store
import BslNav.Project.Root
import BslNav.Proofs.Expr.Reading
import BslNav.Proofs.Expr.Rendering
import BslNav.Proofs.Expr.Account
import BslNav.Proofs.Expr.Linking
import BslNav.Proofs.Expr.Extent
import BslNav.Proofs.Expr.Variation
import BslNav.Proofs.Expr.Typing
import BslNav.Proofs.Text.Lines
import BslNav.Proofs.Reference.Lookup
import BslNav.Proofs.Reference.Order
import BslNav.Proofs.Document.Analysis
import BslNav.Proofs.Workspace.Run
import BslNav.Proofs.Workspace.Listing
import BslNav.Proofs.Workspace.Lifetime
import BslNav.Proofs.Workspace.Newest
import BslNav.Proofs.Workspace.Navigation
import BslNav.Proofs.Json.Keys
import BslNav.Proofs.Settings.Record
import BslNav.Proofs.Settings.Meaning
import BslNav.Proofs.Settings.Listening
import BslNav.Proofs.Settings.Run
import BslNav.Proofs.Settings.Sequence
import BslNav.Proofs.Settings.Drift
import BslNav.Proofs.Project.Following
import BslNav.Proofs.Project.Containment
import BslNav.Proofs.Workspace.Identity
import BslNav.Proofs.Workspace.Frame
import BslNav.Proofs.Settings.Delivery
import BslNav.Proofs.Settings.Nesting
import BslNav.Proofs.Expr.Slots
import BslNav.Proofs.Reference.Overlap
import BslNav.Proofs.Settings.Agreement
import BslNav.Proofs.Text.Bytes
import BslNav.Proofs.Project.Discovery
import BslNav.Proofs.Text.Newlines
import BslNav.Proofs.Symbol.Filling
import BslNav.Proofs.Text.Positions
import BslNav.Proofs.Expr.TypeNames
import BslNav.Proofs.Symbol.Spelling
import BslNav.Proofs.Settings.RoundTrip
