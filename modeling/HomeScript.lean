import HomeScript.Automation.Basic
import HomeScript.Automation.Builtin
import HomeScript.Automation.Operator
import HomeScript.Automation.Registry
import HomeScript.Automation.Slot
import HomeScript.Automation.TimeOfDay
import HomeScript.Automation.Wire
import HomeScript.Device.Basic
import HomeScript.Device.Event
import HomeScript.Device.Handle
import HomeScript.Device.Wire
import HomeScript.Json.Fault
import HomeScript.Json.Reader
import HomeScript.Json.Record
import HomeScript.Json.Value
import HomeScript.Json.Writer
import HomeScript.Net.DomainName
import HomeScript.Net.Host
import HomeScript.Net.Ip
import HomeScript.Net.Percent
import HomeScript.Net.Punycode
import HomeScript.Net.SocketAddress
import HomeScript.Net.Url
import HomeScript.Notice
import HomeScript.Number.Decimal
import HomeScript.Number.Double
import HomeScript.Number.Literal
import HomeScript.Number.Nearest
import HomeScript.Number.Shortest
import HomeScript.Number.Word
import HomeScript.Proofs.Automation.Clock
import HomeScript.Proofs.Automation.Duplicates
import HomeScript.Proofs.Automation.Layout
import HomeScript.Proofs.Automation.Registry
import HomeScript.Proofs.Automation.Reordering
import HomeScript.Proofs.Automation.RoundTrip
import HomeScript.Proofs.Automation.TimeOfDay
import HomeScript.Proofs.Automation.Wire
import HomeScript.Proofs.Device.Event
import HomeScript.Proofs.Device.Order
import HomeScript.Proofs.Device.RoundTrip
import HomeScript.Proofs.Device.Wire
import HomeScript.Proofs.Json.Depth
import HomeScript.Proofs.Json.Matching
import HomeScript.Proofs.Json.Numeral
import HomeScript.Proofs.Json.Reading
import HomeScript.Proofs.Json.Record
import HomeScript.Proofs.Net.Authority
import HomeScript.Proofs.Net.DomainName
import HomeScript.Proofs.Net.Host
import HomeScript.Proofs.Net.Ip
import HomeScript.Proofs.Net.Path
import HomeScript.Proofs.Net.Percent
import HomeScript.Proofs.Net.Url
import HomeScript.Proofs.Number.Rounding
import HomeScript.Proofs.Number.Shortest
import HomeScript.Proofs.Number.Word
import HomeScript.Proofs.Script.Closure
import HomeScript.Proofs.Script.LineCount
import HomeScript.Proofs.Script.Lines
import HomeScript.Proofs.Script.Literal
import HomeScript.Proofs.Script.Policies
import HomeScript.Proofs.Script.Readability
import HomeScript.Proofs.Script.Reading
import HomeScript.Proofs.Script.Scan
import HomeScript.Proofs.Script.Strength
import HomeScript.Proofs.Script.Term
import HomeScript.Proofs.Script.Unquoting
import HomeScript.Proofs.Studio.Deploy
import HomeScript.Proofs.Studio.Endpoints
import HomeScript.Proofs.Studio.Events
import HomeScript.Proofs.Studio.Generate
import HomeScript.Proofs.Studio.LineCount
import HomeScript.Proofs.Text.Pieces
import HomeScript.Proofs.Workspace.Chains
import HomeScript.Proofs.Workspace.Decode
import HomeScript.Proofs.Workspace.Devices
import HomeScript.Proofs.Workspace.Editor
import HomeScript.Proofs.Workspace.Edits
import HomeScript.Proofs.Workspace.Log
import HomeScript.Proofs.Workspace.Notices
import HomeScript.Proofs.Workspace.Saved
import HomeScript.Proofs.Workspace.Shadows
import HomeScript.Proofs.Workspace.Shape
import HomeScript.Proofs.Workspace.Shorthand
import HomeScript.Proofs.Workspace.Value
import HomeScript.Proofs.Workspace.Wire
import HomeScript.Script.Emit
import HomeScript.Script.Expr
import HomeScript.Script.Fragment
import HomeScript.Script.Number
import HomeScript.Script.Program
import HomeScript.Script.Quoting
import HomeScript.Script.Settings
import HomeScript.Studio.Config
import HomeScript.Studio.HomeRuntime
import HomeScript.Studio.Http
import HomeScript.Studio.MediaType
import HomeScript.Studio.Service
import HomeScript.Text.Blank
import HomeScript.Text.Hex
import HomeScript.Text.Shown
import HomeScript.Text.Unprintable
import HomeScript.Transpile
import HomeScript.Workspace.Block
import HomeScript.Workspace.BlockType
import HomeScript.Workspace.Decode
import HomeScript.Workspace.Wire
