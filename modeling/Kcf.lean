import Kcf.Ipc.Channel.Accounting
import Kcf.Ipc.Channel.Contention
import Kcf.Ipc.Freshness
import Kcf.Ipc.Layout
import Kcf.Ipc.Parameter.Transaction
import Kcf.Service.Network
import Kcf.Action.Decisions
import Kcf.Action.Status
import Kcf.Process.Contract
import Kcf.Supervisor.Sessions
import Kcf.Network.Transport
import Kcf.Network.Discovery.Requests
import Kcf.Network.Discovery.Transfer
import Kcf.Gateway.Options
import Kcf.Network.Control.Snapshots
import Kcf.Network.Control.Table
import Kcf.Network.Topic.Export
import Kcf.Network.Topic.Schedule
import Kcf.Introspection.ServiceSnapshots
import Kcf.Ipc.Names
import Kcf.Network.Pairing
import Kcf.Network.Results
import Kcf.Network.Topic.ProxyRecord
import Kcf.Network.Control.Delivery
import Kcf.Network.Topic.Sequence
