import Ambient.Main
import Ambient.Proofs.Decoding.Shapes
import Ambient.Proofs.Description.Lua
import Ambient.Proofs.Description.TypeScript
import Ambient.Proofs.Layout.Namespace
import Ambient.Proofs.Location.Spans
import Ambient.Proofs.Numbering
import Ambient.Proofs.Outcomes
import Ambient.Proofs.Validation
import Ambient.Workspace.Command
import Ambient.Proofs.Decoding.Formats
import Ambient.Proofs.Decoding.Keys
import Ambient.Proofs.Decoding.Fields
import Ambient.Proofs.Decoding.Integers
import Ambient.Proofs.Globals
import Ambient.Proofs.Sharing.Reordering
import Ambient.Proofs.CommandLine
import Ambient.Proofs.Layout.Verbatim
import Ambient.Proofs.Numbering.Runs
import Ambient.Proofs.Location.Selection
import Ambient.Proofs.Layout.Growth
import Ambient.Proofs.MemberKeys
import Ambient.Proofs.Sharing.Faults
import Ambient.Proofs.Layout.Indentation
import Ambient.Proofs.Location.Positions
import Ambient.Proofs.Layout.Sections
import Ambient.Proofs.Description.NormalForm
