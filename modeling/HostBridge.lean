import HostBridge.Bridge.Assign
import HostBridge.Bridge.Exchange
import HostBridge.Bridge.Text
import HostBridge.Config.Parse
import HostBridge.Function.Stock
import HostBridge.Value.Diagnostic
import HostBridge.Proofs.Session.Basic
import HostBridge.Proofs.Typing.World
import HostBridge.Proofs.Typing.Store
import HostBridge.Proofs.Typing.Safe
import HostBridge.Proofs.Typing.Storage
import HostBridge.Proofs.Typing.Host
import HostBridge.Proofs.Typing.Bridge
import HostBridge.Proofs.Typing.Call
import HostBridge.Proofs.Typing.Session
import HostBridge.Proofs.Conversion.RoundTrip
import HostBridge.Proofs.Assignment.Frame
import HostBridge.Proofs.Assignment.Atomic
import HostBridge.Proofs.Channel.History
import HostBridge.Proofs.Channel.Safety
import HostBridge.Proofs.Number.Exact
import HostBridge.Proofs.Number.Precision
import HostBridge.Proofs.Conversion.Recovery
import HostBridge.Proofs.Map.Entries
import HostBridge.Proofs.Map.Key
import HostBridge.Proofs.Map.Keyable
import HostBridge.Proofs.Slice.Growth
import HostBridge.Proofs.Slice.Window
import HostBridge.Proofs.Map.History
import HostBridge.Proofs.Channel.Wakeup
import HostBridge.Proofs.Conversion.Form
import HostBridge.Proofs.Channel.Delivery
import HostBridge.Proofs.Channel.Direction
import HostBridge.Proofs.Map.Iteration
import HostBridge.Proofs.Function.Native
import HostBridge.Proofs.Struct.Visibility
import HostBridge.Proofs.Pointer.Delegation
import HostBridge.Proofs.Ty.Notation
import HostBridge.Proofs.Script.Equality
import HostBridge.Proofs.Script.Registry
import HostBridge.Proofs.Script.Constructor
import HostBridge.Proofs.Slice.Alias
import HostBridge.Proofs.Slice.Append
import HostBridge.Proofs.Pointer.Classification
import HostBridge.Proofs.Value.Text
import HostBridge.Proofs.Value.Order
import HostBridge.Proofs.Table.History
import HostBridge.Proofs.Slice.Access
import HostBridge.Proofs.Conversion.Coercion
import HostBridge.Proofs.Conversion.Hint
import HostBridge.Proofs.Function.Failure
