import Mailshot.Main
import Mailshot.Config.Session
import Mailshot.Proofs.Keys
import Mailshot.Proofs.Fields
import Mailshot.Proofs.Merge
import Mailshot.Proofs.Paths
import Mailshot.Proofs.Outcome
import Mailshot.Proofs.Resolve
import Mailshot.Proofs.Display
import Mailshot.Proofs.Escape
import Mailshot.Proofs.Likeness.Basic
import Mailshot.Proofs.Likeness.Product
import Mailshot.Proofs.Likeness.Document
import Mailshot.Proofs.Decoding
import Mailshot.Proofs.Delimiters
import Mailshot.Proofs.Suppressed.Basic
import Mailshot.Proofs.Suppressed.Renderings
import Mailshot.Proofs.Images.Product
import Mailshot.Proofs.Images.Document
import Mailshot.Proofs.Cuts
import Mailshot.Proofs.Hereditary
import Mailshot.Proofs.Commuting
import Mailshot.Proofs.Editing
import Mailshot.Proofs.Completion
import Mailshot.Proofs.Rounding
import Mailshot.Proofs.Widths
import Mailshot.Proofs.Nearest
import Mailshot.Proofs.Pixels
import Mailshot.Proofs.Proportions
import Mailshot.Proofs.Growth
import Mailshot.Proofs.Compiling
import Mailshot.Proofs.Reachable
import Mailshot.Proofs.WellTyped
import Mailshot.Proofs.Files
import Mailshot.Proofs.Working
import Mailshot.Proofs.Loading
import Mailshot.Proofs.Delivery
import Mailshot.Proofs.Running
import Mailshot.Proofs.Arrangement
import Mailshot.Proofs.Holding
import Mailshot.Proofs.PlainText
import Mailshot.Proofs.Isolation
import Mailshot.Proofs.Outline
import Mailshot.Proofs.Accordance
import Mailshot.Proofs.Trimming
import Mailshot.Proofs.Containment
import Mailshot.Proofs.Nesting.Markup
import Mailshot.Proofs.Nesting.Product
import Mailshot.Proofs.Nesting.Document
import Mailshot.Proofs.Obstacles
import Mailshot.Proofs.Shifting
import Mailshot.Proofs.Fallbacks
import Mailshot.Proofs.Markers.Basic
import Mailshot.Proofs.Markers.Product
import Mailshot.Proofs.Markers.Rows
import Mailshot.Proofs.Markers.Document
import Mailshot.Proofs.Unescape
import Mailshot.Proofs.Lossless
import Mailshot.Proofs.Lineage.Basic
import Mailshot.Proofs.Lineage.Session
