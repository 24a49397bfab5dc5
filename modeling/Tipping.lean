import Tipping.Background
import Tipping.Binary64.Basic
import Tipping.Binary64.Scaled
import Tipping.Binary64.Shortest
import Tipping.Browser.Adapter
import Tipping.Browser.Callback
import Tipping.Browser.Calls
import Tipping.Browser.Value
import Tipping.Config
import Tipping.Decimal.Digits
import Tipping.Decimal.Numeral
import Tipping.Host
import Tipping.IntIn
import Tipping.Json.Basic
import Tipping.Json.Codec.Basic
import Tipping.Json.Codec.Tree
import Tipping.Json.Codec.Value
import Tipping.Json.Fault
import Tipping.Json.Lexer
import Tipping.Json.ParseTree
import Tipping.Json.Token
import Tipping.Keyed
import Tipping.Log
import Tipping.Main
import Tipping.Message
import Tipping.Notification.Bench
import Tipping.Notification.Memory
import Tipping.Notification.Operation
import Tipping.Notification.Session
import Tipping.Payments.Desk
import Tipping.Payments.Memory
import Tipping.Payments.State
import Tipping.PaymentsPage
import Tipping.Tasks.Plan
import Tipping.Tasks.Workspace
import Tipping.Text.Blank
import Tipping.Text.Quoted
import Tipping.Proofs.Prefix
import Tipping.Proofs.Notification.Badge
import Tipping.Proofs.Notification.Dismissal
import Tipping.Proofs.Payments.Latest
import Tipping.Proofs.Notification.Restart
import Tipping.Proofs.Json.Sorted
import Tipping.Proofs.Json.Members
import Tipping.Proofs.Message
import Tipping.Proofs.Notification.Flights
import Tipping.Proofs.Notification.Routing
import Tipping.Proofs.Decimal.Numeral
import Tipping.Proofs.Json.Lexing
import Tipping.Proofs.Json.Printing
import Tipping.Proofs.Json.RoundTrip
import Tipping.Proofs.RoundTrip
import Tipping.Proofs.Payments.Item
import Tipping.Proofs.Payments.Reload
import Tipping.Proofs.Json.Agreement
import Tipping.Proofs.Notification.Abreast
import Tipping.Proofs.Notification.Secondary
import Tipping.Proofs.Background.Page
import Tipping.Proofs.Background.Replies
import Tipping.Proofs.Background.Ledger
import Tipping.Proofs.Background.Chrome
import Tipping.Proofs.Background.Refinement
import Tipping.Proofs.Notification.Doings
import Tipping.Proofs.Notification.Storage
import Tipping.Proofs.Payments.Alone
import Tipping.Proofs.Payments.Separate
import Tipping.Proofs.Payments.Spacing
import Tipping.Proofs.Binary64.Rounding
import Tipping.Proofs.Binary64.Scaling
import Tipping.Proofs.Decimal.Leading
import Tipping.Proofs.Binary64.Shortest
import Tipping.Proofs.Json.Numbers
import Tipping.Proofs.Keyed
import Tipping.Proofs.Json.Reread
import Tipping.Proofs.Browser.Stringify
import Tipping.Proofs.Background.Stringified
import Tipping.Proofs.Notification.Ending
import Tipping.Proofs.Notification.Silence
import Tipping.Proofs.Notification.Confluence
import Tipping.Proofs.Json.Cropping
import Tipping.Proofs.Json.CutShort
import Tipping.Proofs.Json.Unfinished
import Tipping.Proofs.Truncation
import Tipping.Proofs.Json.Completeness
import Tipping.Proofs.Json.Soundness
import Tipping.Proofs.Json.Told
import Tipping.Proofs.Json.Retelling
import Tipping.Proofs.Retelling
import Tipping.Proofs.Browser.Storage
import Tipping.Proofs.Browser.Settlement
import Tipping.Proofs.Payments.Spared
import Tipping.Proofs.Payments.Course
import Tipping.Proofs.Payments.Window
import Tipping.Proofs.Tasks.Workspace
