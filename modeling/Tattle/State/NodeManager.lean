import Mathlib.Logic.Function.Basic

/-!
# The membership state of a node

`state.NodeManager` holds the membership records of the cluster as Python objects: `_nodes` and
`_nodes_map` refer to `Node` objects, and a handler that changes a record writes through the
reference. The heap of `Node` objects is modelled as a map from references to records with an
allocation pointer; `current_node is self.local_node` compares references. The suspicion timers
of `_suspect_nodes` live in a second heap, with the part of the event loop they drive: whether a
timer's `call_later` handle is still scheduled, and the tasks its callback has spawned.

A handler runs to completion under `_nodes_lock` without suspending, so it is one function of
the state. It ends normally or by raising, and Python rolls nothing back, so both ends carry the
state as the handler left it (`Ret`).

## Main definitions

* `Status`, `Node`, `Message`: the records and the gossip messages `NodeManager` queues
* `NodeManager`: the state of `state.NodeManager` and of its suspicion timers
* `Ret`: how a call ends, with the state it leaves
* `NodeManager.refute`, `createSuspectNode`, `cancelSuspectNode`, `broadcastAlive`,
  `broadcastSuspect`, `broadcastDead`: the helpers the three handlers share
-/

namespace Tattle

/-- `NODE_STATUS_ALIVE`, `NODE_STATUS_SUSPECT`, `NODE_STATUS_DEAD`. -/
inductive Status
  | alive
  | suspect
  | dead
  deriving DecidableEq, Repr

/-- The order in which a record may move at one incarnation: ALIVE, then SUSPECT, then DEAD. -/
def Status.rank : Status → Nat
  | .alive => 0
  | .suspect => 1
  | .dead => 2

/-- A node's metadata: a dict from string keys to opaque values. -/
abbrev Metadata := String → Option String

/-- `current_node.metadata | metadata`: the keys of `new` win. -/
def Metadata.merge (old new : Metadata) : Metadata := fun k => (new k).or (old k)

/-- A `state.Node` record, with the fields the membership logic reads. The sync stream handles
and the status-change timestamp are not part of it. -/
structure Node where
  name : String
  host : String
  port : Nat
  incarnation : Nat
  metadata : Metadata
  status : Status

/-- `Node(name, host, port)`: incarnation 0, status DEAD, no metadata. -/
def Node.new (name host : String) (port : Nat) : Node :=
  ⟨name, host, port, 0, fun _ => none, .dead⟩

/-- `messages.InternetAddress`. -/
structure Addr where
  address : String
  port : Nat
  deriving DecidableEq, Repr

/-- The gossip messages `NodeManager` hands to the broadcast queue. -/
inductive Message
  | alive (node : String) (addr : Addr) (incarnation : Nat) (metadata : Metadata)
  | suspect (node : String) (incarnation : Nat) (sender : String)
  | dead (node : String) (incarnation : Nat) (sender : String)

/-- The incarnation a gossip message carries. -/
def Message.incarnation : Message → Nat
  | .alive _ _ i _ => i
  | .suspect _ i _ => i
  | .dead _ i _ => i

/-- The node a gossip message is about. -/
def Message.node : Message → String
  | .alive n _ _ _ => n
  | .suspect n _ _ => n
  | .dead n _ _ => n

/-- The Python exceptions the modelled code can raise. -/
inductive PyError
  | keyError
  | attributeError
  | assertionError
  | typeError
  | notImplementedError
  | structError
  | invalidStateError
  | valueError
  deriving DecidableEq, Repr

/-- How a call ends: normally, or by raising `e`. Python undoes nothing on a raise, so both ends
carry the state the call left. -/
inductive Ret (σ : Type)
  | ok (s : σ)
  | raised (e : PyError) (s : σ)

namespace Ret

variable {σ : Type}

/-- The state a call leaves, however it ended. -/
def state : Ret σ → σ
  | .ok s => s
  | .raised _ s => s

/-- `a; b` in Python: `b` runs on `a`'s state unless `a` raised. -/
def andThen : Ret σ → (σ → Ret σ) → Ret σ
  | .ok s, f => f s
  | .raised e s, _ => .raised e s

@[simp] theorem state_ok (s : σ) : (Ret.ok s).state = s := rfl

@[simp] theorem state_raised (e : PyError) (s : σ) : (Ret.raised e s).state = s := rfl

@[simp] theorem ok_andThen (s : σ) (f : σ → Ret σ) : (Ret.ok s).andThen f = f s := rfl

@[simp] theorem raised_andThen (e : PyError) (s : σ) (f : σ → Ret σ) :
    (Ret.raised e s).andThen f = .raised e s := rfl

end Ret

/-- An event emitted on the event bus: `node.<status>` about a node, recorded by the node's name,
which never changes. -/
structure Event where
  status : Status
  node : String
  deriving DecidableEq, Repr

/-- A suspicion `timer.Timer`: the node its callback's closure captured, and whether its
`call_later` handle is still scheduled, that is started and neither run nor cancelled. -/
structure Timer where
  node : Nat
  pending : Bool

/-- The state of a `state.NodeManager`, with the heap of `Node` objects it refers to and the
suspicion timers with the tasks their callbacks spawned. -/
structure NodeManager where
  /-- The `Node` objects, by reference. -/
  heap : Nat → Node
  /-- The next fresh reference. -/
  next : Nat
  /-- `_nodes`. -/
  nodes : List Nat
  /-- `_nodes_map`. -/
  nodesMap : String → Option Nat
  /-- `_suspect_nodes`, each `SuspectNode` by its timer. -/
  suspectNodes : String → Option Nat
  /-- The `Timer` objects, by reference. -/
  timers : Nat → Timer
  /-- The next fresh timer reference. -/
  nextTimer : Nat
  /-- The tasks `Timer._run` created from a timer's callback that have not run yet. -/
  tasks : List Nat
  /-- `_local_node_name`. -/
  localNodeName : Option String
  /-- The last value `_local_node_seq` returned. -/
  localNodeSeq : Nat
  /-- `_leaving`. -/
  leaving : Bool
  /-- Every push to the broadcast queue, `(subject, message)`, in order: what the handlers hand to
  `BroadcastQueue.push`, not what the queue holds, which `BroadcastQueue.run` computes from it. -/
  queue : List (String × Message)
  /-- The events emitted, in order. -/
  events : List Event

namespace NodeManager

/-- `NodeManager.__init__`: no records, no suspects, no local node. -/
def init : NodeManager where
  heap := fun _ => Node.new "" "" 0
  next := 0
  nodes := []
  nodesMap := fun _ => none
  suspectNodes := fun _ => none
  timers := fun _ => ⟨0, false⟩
  nextTimer := 0
  tasks := []
  localNodeName := none
  localNodeSeq := 0
  leaving := false
  queue := []
  events := []

variable (s : NodeManager)

/-- `local_node`: `_nodes_map.get(_local_node_name)`. -/
def localNode : Option Nat := s.localNodeName.bind s.nodesMap

/-- A write through the reference `r`. -/
def setNode (r : Nat) (f : Node → Node) : NodeManager :=
  { s with heap := Function.update s.heap r (f (s.heap r)) }

/-- `_swap_random_nodes` on `_nodes`, with `random.randint`'s draw `i`, which is always an
index: the node at `i` and the last node change places. -/
def swapRandomNodes (nodes : List Nat) (i : Nat) : List Nat :=
  let j := i % nodes.length
  let last := nodes.length - 1
  (nodes.set j (nodes.getD last 0)).set last (nodes.getD j 0)

/-- The discovery branch of `on_node_alive`: a fresh `Node(name, host, port)` is saved in
`_nodes_map`, appended to `_nodes`, and swapped with the node at the draw `i`. -/
def addNode (name host : String) (port : Nat) (i : Nat) : NodeManager :=
  { s with heap := Function.update s.heap s.next (Node.new name host port)
           next := s.next + 1
           nodesMap := Function.update s.nodesMap name (some s.next)
           nodes := swapRandomNodes (s.nodes ++ [s.next]) i }

/-- `_send_broadcast`: push the message to the queue under the node's name. -/
def sendBroadcast (r : Nat) (msg : Message) : NodeManager :=
  { s with queue := s.queue ++ [((s.heap r).name, msg)] }

/-- `_broadcast_alive`. -/
def broadcastAlive (r : Nat) : NodeManager :=
  let n := s.heap r
  s.sendBroadcast r (.alive n.name ⟨n.host, n.port⟩ n.incarnation n.metadata)

/-- `_broadcast_suspect`: the sender is `self.local_node.name`, an `AttributeError` while there
is no local node. -/
def broadcastSuspect (r : Nat) : Ret NodeManager :=
  match s.localNode with
  | none => .raised .attributeError s
  | some l => .ok (s.sendBroadcast r (.suspect (s.heap r).name (s.heap r).incarnation (s.heap l).name))

/-- `_broadcast_dead`. -/
def broadcastDead (r : Nat) : Ret NodeManager :=
  match s.localNode with
  | none => .raised .attributeError s
  | some l => .ok (s.sendBroadcast r (.dead (s.heap r).name (s.heap r).incarnation (s.heap l).name))

/-- `self._events.emit('node.<status>', node)`. -/
def emit (st : Status) (r : Nat) : NodeManager :=
  { s with events := s.events ++ [⟨st, (s.heap r).name⟩] }

/-- `_refute`: `self.local_node.incarnation = self._local_node_seq.increment()` evaluates the
increment first, then `self.local_node`; then an ALIVE about the local node is queued. -/
def refute : Ret NodeManager :=
  let s := { s with localNodeSeq := s.localNodeSeq + 1 }
  match s.localNode with
  | none => .raised .attributeError s
  | some l => .ok ((s.setNode l fun n => { n with incarnation := s.localNodeSeq }).broadcastAlive l)

/-- `_create_suspect_node`: unless a suspect record exists, a new timer for the node is saved in
`_suspect_nodes` and started. The timeout it is started with is not modelled: a timer may fire at
any point of a run. -/
def createSuspectNode (r : Nat) : NodeManager :=
  match s.suspectNodes (s.heap r).name with
  | some _ => s
  | none =>
    { s with timers := Function.update s.timers s.nextTimer ⟨r, true⟩
             nextTimer := s.nextTimer + 1
             suspectNodes := Function.update s.suspectNodes (s.heap r).name (some s.nextTimer) }

/-- `_cancel_suspect_node`: `self._suspect_nodes[node.name]` (a `KeyError` when absent), stop its
timer, delete the entry. Stopping a timer whose handle has already run changes nothing more. -/
def cancelSuspectNode (r : Nat) : Ret NodeManager :=
  match s.suspectNodes (s.heap r).name with
  | none => .raised .keyError s
  | some t =>
    .ok { s with timers := Function.update s.timers t { s.timers t with pending := false }
                 suspectNodes := Function.update s.suspectNodes (s.heap r).name none }

end NodeManager

end Tattle
