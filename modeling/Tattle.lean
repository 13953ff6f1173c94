import Tattle.State.NodeManager
import Tattle.State.Handlers
import Tattle.State.Records
import Tattle.State.Table
import Tattle.State.Members
import Tattle.State.Refinement
import Tattle.State.Invariants
import Tattle.State.Cases
import Tattle.State.Order
import Tattle.State.LocalNode
import Tattle.State.Outputs
import Tattle.State.Gossip
import Tattle.State.Reorder
import Tattle.State.Snapshot
import Tattle.State.BroadcastQueue
import Tattle.State.Announce
import Tattle.Cluster.Probe
import Tattle.Cluster.ProbeSafety
import Tattle.Cluster.ProbeResult
import Tattle.Cluster.Selection
import Tattle.Cluster.ProbeCursor
import Tattle.Cluster.ProbeTable
import Tattle.Cluster.Sync
import Tattle.Network.Framing
import Tattle.Network.Datagram
import Tattle.Network.Listener
import Tattle.Network.Connection
import Tattle.Cluster.Session
