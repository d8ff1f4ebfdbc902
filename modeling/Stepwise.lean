import Stepwise.Assembly.Decode
import Stepwise.Assembly.Diagnostic
import Stepwise.Assembly.Listing
import Stepwise.Cli.Run
import Stepwise.Cli.Serve
import Stepwise.Machine.Run
import Stepwise.Main
import Stepwise.Protocol.Frame
import Stepwise.Server.Basic
import Stepwise.Server.Options
import Stepwise.Session.Conversation
import Stepwise.Proofs.Machine.Mirror
import Stepwise.Proofs.Machine.Play
import Stepwise.Proofs.Session.History
import Stepwise.Proofs.Session.Delivery
import Stepwise.Proofs.Session.Refinement
import Stepwise.Proofs.Session.Timing
import Stepwise.Proofs.Machine.Preservation
import Stepwise.Proofs.Machine.Bounds
import Stepwise.Proofs.Assembly.Decoding
import Stepwise.Proofs.Machine.Failure
import Stepwise.Proofs.Machine.Values
import Stepwise.Proofs.Session.Accounting
import Stepwise.Proofs.Assembly.Opening
import Stepwise.Proofs.Session.Submission
import Stepwise.Proofs.Assembly.Layout
import Stepwise.Proofs.Assembly.Shape
import Stepwise.Proofs.Machine.Raised
import Stepwise.Proofs.Session.Faults
import Stepwise.Proofs.Assembly.NormalForm
import Stepwise.Proofs.Assembly.Expanding
import Stepwise.Proofs.Text.Numeral
import Stepwise.Proofs.Assembly.RoundTrip
import Stepwise.Proofs.Assembly.Shown
import Stepwise.Proofs.Assembly.Sugar
import Stepwise.Proofs.Assembly.Macros
import Stepwise.Proofs.Assembly.Joining
import Stepwise.Proofs.Assembly.LocalLabels
import Stepwise.Proofs.Assembly.Hygiene
import Stepwise.Proofs.Session.Punctual
import Stepwise.Proofs.Session.Budgets
import Stepwise.Proofs.Session.Pacing
import Stepwise.Proofs.Session.Settling
import Stepwise.Proofs.Session.Overdue
import Stepwise.Proofs.Protocol.Lines
import Stepwise.Proofs.Protocol.Framing
import Stepwise.Proofs.Session.Naming
import Stepwise.Proofs.Session.Telling
import Stepwise.Proofs.Server.Clients
import Stepwise.Proofs.Server.Requests
import Stepwise.Proofs.Server.Registry
import Stepwise.Proofs.Server.Numbers
import Stepwise.Proofs.Server.Names
import Stepwise.Proofs.Server.Lifetime
import Stepwise.Proofs.Server.Resting
import Stepwise.Proofs.Server.Alike
import Stepwise.Proofs.Server.Isolation
import Stepwise.Proofs.Machine.Limits
import Stepwise.Proofs.Protocol.Truncation
import Stepwise.Proofs.Assembly.Declarations
import Stepwise.Proofs.Session.SingleLines
import Stepwise.Proofs.Machine.Postfix
import Stepwise.Proofs.Machine.Ending
import Stepwise.Proofs.Session.Ceiling
import Stepwise.Proofs.Session.Waking
import Stepwise.Proofs.Server.Starting
import Stepwise.Proofs.Machine.Literal
import Stepwise.Proofs.Number.Rounding
import Stepwise.Proofs.Number.Spelling
import Stepwise.Proofs.Number.Nearest
import Stepwise.Proofs.Server.Seconds
import Stepwise.Proofs.Server.CommandLine
import Stepwise.Proofs.Server.Clock
import Stepwise.Proofs.Assembly.Grammar
import Stepwise.Proofs.Text.Recasing
import Stepwise.Proofs.Assembly.Retouching
import Stepwise.Proofs.Assembly.Quotation
import Stepwise.Proofs.Assembly.Provenance
import Stepwise.Proofs.Assembly.Carets
import Stepwise.Proofs.Assembly.Operands
