import Tattle.State.Outputs

/-!
# Probing across a cluster

A cluster is a set of nodes `ι`, each with its name and the address its UDP listener is bound to,
both fixed by the configuration. Each node runs a `Cluster`: a `NodeManager` and the probe state of
`cluster.Cluster`, `_probe_seq` and `_probe_status`. The network is the list of every datagram
sent; a datagram is delivered to the node at its destination any number of times, in any order,
or never.

The probe code of `Cluster` is cut at its suspension points, and each piece is one step:

* `_probe_node(T)` allocates a sequence number, sends the PING and registers its waiter: the
  send does not suspend, and the waiter is registered when `_wait_for_probe` first runs;
* `_probe_node_indirect_via(T, R)` does the same with a PING-REQ to `R`;
* a datagram is handled: a PING naming this node is answered with an ACK, a PING-REQ makes this
  node a relay with a waiter and a PING of its own, an ACK or NACK resolves the waiter of its
  sequence number while one is registered;
* a waiter times out, or the task awaiting a resolved waiter resumes; either way the `finally` of
  `_wait_for_probe` deletes the waiter, and the task goes on with what the source does next.

On Python 3.10 and later, which the annotation `state.Node | str` of `Cluster.send` needs,
`asyncio.gather(*probes, loop=self._loop)` in `_probe_node_indirect` raises `TypeError`, which it
catches, so the coroutines of `_probe_node_indirect_via` never run. The model still lets a node
start one at any time: that only adds runs.

Two fields of a node are ghost: what each sequence number was allocated for (`Purpose`), and
which waiters an ACK resolved. The world also logs the PINGs a node handled.

A run is one lifetime of each node: no step restarts a node. A restarted `Cluster` would start
`_probe_seq` over and could reuse a sequence number whose ACK is still on the network, so the
results about sequence numbers are about runs without restarts.

## Main definitions

* `Ping`, `PingReq`, `Datagram`: the probe messages
* `Peer`, `World`: a node's state, and the cluster's
* `Act`, `Act.run`, `Cluster.Reachable`: the steps and the runs of a cluster

## Main results

* `Cluster.Reachable.nodes`: each node's `NodeManager` is in a reachable state
-/

namespace Tattle

/-- `messages.PingMessage`. -/
structure Ping where
  seq : Nat
  target : String
  sender : String
  senderAddr : Addr
  deriving DecidableEq, Repr

/-- `messages.PingRequestMessage`. -/
structure PingReq where
  seq : Nat
  target : String
  targetAddr : Addr
  sender : String
  senderAddr : Addr
  deriving DecidableEq, Repr

/-- The probe messages on the wire. No code sends a NACK: `_forward_indirect_probe_timeout` is
never called. -/
inductive Datagram
  | ping (p : Ping)
  | pingReq (q : PingReq)
  | ack (seq : Nat) (sender : String)
  | nack (seq : Nat) (sender : String)
  deriving DecidableEq, Repr

/-- The future a waiter of `_probe_status` holds: pending, or resolved with a result. -/
inductive Waiter
  | pending
  | resolved (result : Bool)
  deriving DecidableEq, Repr

/-- What a node allocated a probe sequence number for. -/
inductive Purpose
  /-- `_probe_node` of the named target. -/
  | direct (target : String)
  /-- `_probe_node_indirect_via` of the named target, through the relay at the address. -/
  | indirect (target : String) (relay : Addr)
  /-- `_handle_ping_request_message` of the PING-REQ. -/
  | relay (q : PingReq)
  deriving DecidableEq, Repr

/-- The names and addresses of the nodes of a cluster: pairwise distinct. -/
structure Config (ι : Type) where
  name : ι → String
  addr : ι → Addr
  name_injective : Function.Injective name
  addr_injective : Function.Injective addr

/-- Two nodes, `a` at `h:1` and `b` at `h:2`: the cluster of the runs below. -/
def Config.pair : Config Bool where
  name k := if k then "b" else "a"
  addr k := ⟨"h", if k then 2 else 1⟩
  name_injective a b h := by cases a <;> cases b <;> simp_all
  addr_injective a b h := by cases a <;> cases b <;> simp_all

/-- The state of one node of the cluster. -/
structure Peer where
  nodes : NodeManager
  /-- The last value `_probe_seq` returned. -/
  probeSeq : Nat
  /-- `_probe_status`. -/
  probeStatus : Nat → Option Waiter
  /-- Ghost: what each sequence number was allocated for. -/
  purpose : Nat → Option Purpose
  /-- Ghost: the waiters an ACK resolved. -/
  acked : Nat → Bool

namespace Peer

variable (p : Peer)

/-- A node before `Cluster.start`. -/
def init : Peer := ⟨.init, 0, fun _ => none, fun _ => none, fun _ => false⟩

/-- `self._probe_seq.increment()`, and the waiter `_wait_for_probe` registers for it. -/
def alloc (pu : Purpose) : Peer :=
  { p with probeSeq := p.probeSeq + 1
           probeStatus := Function.update p.probeStatus (p.probeSeq + 1) (some .pending)
           purpose := Function.update p.purpose (p.probeSeq + 1) (some pu) }

/-- The `finally` of `_wait_for_probe`: `del self._probe_status[seq]`. -/
def release (seq : Nat) : Peer := { p with probeStatus := Function.update p.probeStatus seq none }

variable {p} {pu : Purpose} {seq : Nat}

@[simp] theorem alloc_nodes : (p.alloc pu).nodes = p.nodes := rfl
@[simp] theorem alloc_probeSeq : (p.alloc pu).probeSeq = p.probeSeq + 1 := rfl
@[simp] theorem alloc_acked : (p.alloc pu).acked = p.acked := rfl
@[simp] theorem release_nodes : (p.release seq).nodes = p.nodes := rfl
@[simp] theorem release_probeSeq : (p.release seq).probeSeq = p.probeSeq := rfl
@[simp] theorem release_purpose : (p.release seq).purpose = p.purpose := rfl
@[simp] theorem release_acked : (p.release seq).acked = p.acked := rfl

end Peer

/-- The state of the cluster. -/
structure World (ι : Type) where
  peers : ι → Peer
  /-- Every datagram sent, with its destination. -/
  sent : List (Addr × Datagram)
  /-- Ghost: the PINGs each node handled, those that named it. -/
  handled : List (ι × Ping)

namespace World

variable {ι : Type} [DecidableEq ι] (cfg : Config ι) (w : World ι)

/-- Every node before `Cluster.start`, and nothing sent. -/
def init : World ι := ⟨fun _ => .init, [], []⟩

/-- The state with node `i`'s replaced. -/
def setPeer (i : ι) (p : Peer) : World ι := { w with peers := Function.update w.peers i p }

/-- `_send_udp_message`: the datagram goes to `dst`. Gossip it carries is not modelled here. -/
def send (dst : Addr) (d : Datagram) : World ι := { w with sent := w.sent ++ [(dst, d)] }

section Fields

variable {w} {i : ι} {p : Peer} {dst : Addr} {d : Datagram}

@[simp] theorem setPeer_peers : (w.setPeer i p).peers = Function.update w.peers i p := rfl
@[simp] theorem setPeer_sent : (w.setPeer i p).sent = w.sent := rfl
@[simp] theorem setPeer_handled : (w.setPeer i p).handled = w.handled := rfl

omit [DecidableEq ι]

@[simp] theorem send_peers : (w.send dst d).peers = w.peers := rfl
@[simp] theorem send_sent : (w.send dst d).sent = w.sent ++ [(dst, d)] := rfl
@[simp] theorem send_handled : (w.send dst d).handled = w.handled := rfl

end Fields

/-- `_probe_node(T)` up to its wait: a PING to `T`'s recorded address. -/
def probeNode (i : ι) (target : String) (targetAddr : Addr) : World ι :=
  (w.setPeer i ((w.peers i).alloc (.direct target))).send targetAddr
    (.ping ⟨(w.peers i).probeSeq + 1, target, cfg.name i, cfg.addr i⟩)

/-- `_probe_node_indirect_via(T, R)` up to its wait: a PING-REQ to `R`. -/
def probeNodeIndirectVia (i : ι) (target : String) (targetAddr relayAddr : Addr) : World ι :=
  (w.setPeer i ((w.peers i).alloc (.indirect target relayAddr))).send relayAddr
    (.pingReq ⟨(w.peers i).probeSeq + 1, target, targetAddr, cfg.name i, cfg.addr i⟩)

/-- `_handle_ping_message` at node `j`: a PING for another node is dropped; one for `j` is
answered with an ACK of its sequence number to its sender's address. -/
def handlePingMessage (j : ι) (p : Ping) : World ι :=
  if p.target ≠ cfg.name j then w
  else { w.send p.senderAddr (.ack p.seq (cfg.name j)) with handled := w.handled ++ [(j, p)] }

/-- `_handle_ping_request_message` at node `j` up to its wait: a PING of `j`'s own to the
target's address. -/
def handlePingRequestMessage (j : ι) (q : PingReq) : World ι :=
  (w.setPeer j ((w.peers j).alloc (.relay q))).send q.targetAddr
    (.ping ⟨(w.peers j).probeSeq + 1, q.target, cfg.name j, cfg.addr j⟩)

/-- `_handle_ack_message` and `_handle_nack_message` at node `j`: resolve the waiter of `seq`;
`set_result` on a resolved future raises `InvalidStateError`; an unknown `seq` is ignored. -/
def resolveProbe (j : ι) (seq : Nat) (result : Bool) : Ret (World ι) :=
  match (w.peers j).probeStatus seq with
  | some .pending =>
    .ok (w.setPeer j { w.peers j with
      probeStatus := Function.update (w.peers j).probeStatus seq (some (.resolved result))
      acked := Function.update (w.peers j).acked seq ((w.peers j).acked seq || result) })
  | some (.resolved _) => .raised .invalidStateError w
  | none => .ok w

/-- A datagram handled at node `j`. -/
def handleDatagram (j : ι) : Datagram → Ret (World ι)
  | .ping p => .ok (w.handlePingMessage cfg j p)
  | .pingReq q => .ok (w.handlePingRequestMessage cfg j q)
  | .ack seq _ => w.resolveProbe j seq true
  | .nack seq _ => w.resolveProbe j seq false

/-- `_handle_probe_timeout(T)`: `on_node_suspect(node.name, node.incarnation)` leaves out the
`metadata` argument, and the call raises `TypeError`. -/
def handleProbeTimeout : Ret (World ι) := .raised .typeError w

/-- `_handle_probe_result(T, result)` at node `i`. A success about a SUSPECT node calls
`on_node_alive(node.name, node.incarnation, node.host, node.port)`, which leaves out `metadata`
and raises `TypeError`; a NACK raises `NotImplementedError`. -/
def handleProbeResult (i : ι) (target : String) (result : Bool) : Ret (World ι) :=
  if result then
    if ((w.peers i).nodes.record target).map Node.status = some .suspect then .raised .typeError w
    else .ok w
  else .raised .notImplementedError w

/-- `_forward_indirect_probe_result` at relay `j`: an ACK of the PING-REQ's sequence number to
its sender. -/
def forwardIndirectProbeResult (j : ι) (q : PingReq) : World ι :=
  w.send q.senderAddr (.ack q.seq (cfg.name j))

/-- The rest of a task whose waiter timed out, by what the waiter was for. A relay's task ends:
its NACK is left as a TODO. -/
def afterTimeout : Option Purpose → Ret (World ι)
  | some (.direct _) | some (.indirect _ _) => w.handleProbeTimeout
  | some (.relay _) | none => .ok w

/-- `_probe_node_indirect(T, k)`: its `gather(*probes, loop=self._loop)` raises `TypeError`,
which it catches and logs; none of the probes runs. -/
def probeNodeIndirect : Ret (World ι) := .ok w

/-- The rest of a task whose waiter was resolved with `result`, by what the waiter was for.
After `_handle_probe_result`, `_probe_node` returns on a success and probes indirectly
otherwise. -/
def afterResult (i : ι) (result : Bool) : Option Purpose → Ret (World ι)
  | some (.direct t) => (w.handleProbeResult i t result).andThen fun w =>
      if result then .ok w else w.probeNodeIndirect
  | some (.indirect t _) => w.handleProbeResult i t result
  | some (.relay q) => .ok (w.forwardIndirectProbeResult cfg i q)
  | none => .ok w

/-! ## What the rest of a task leaves -/

omit [DecidableEq ι] in
/-- A timed-out task changes nothing more: `_handle_probe_timeout` raises, and a relay's task
ends. -/
@[simp] theorem afterTimeout_state (pu : Option Purpose) : (w.afterTimeout pu).state = w := by
  rcases pu with _ | ⟨_⟩ | ⟨_, _⟩ | ⟨_⟩ <;> rfl

omit [DecidableEq ι] in
theorem handleProbeResult_state (i : ι) (t : String) (b : Bool) :
    (w.handleProbeResult i t b).state = w := by
  unfold handleProbeResult; split_ifs <;> rfl

omit [DecidableEq ι] in
/-- A resumed task changes the world only by a relay's ACK to the sender of its PING-REQ. -/
theorem afterResult_state (i : ι) (b : Bool) (pu : Option Purpose) :
    (w.afterResult cfg i b pu).state = w ∨
      ∃ q, pu = some (.relay q) ∧
        (w.afterResult cfg i b pu).state = w.forwardIndirectProbeResult cfg i q := by
  rcases pu with _ | ⟨t⟩ | ⟨t, _⟩ | ⟨q⟩
  · exact .inl rfl
  · refine .inl ?_
    show ((w.handleProbeResult i t b).andThen _).state = w
    cases b <;> unfold handleProbeResult probeNodeIndirect <;> split_ifs <;> rfl
  · exact .inl (w.handleProbeResult_state i t b)
  · exact .inr ⟨q, rfl, rfl⟩

end World

/-- A step of a cluster. -/
inductive Act (ι : Type)
  /-- A `NodeManager` call at a node: gossip, a sync, its start or leave, its timers. -/
  | gossip (i : ι) (c : Call)
  | probe (i : ι) (target : String) (targetAddr : Addr)
  | probeVia (i : ι) (target : String) (targetAddr relayAddr : Addr)
  /-- A datagram sent to `j`'s address is delivered to `j`. -/
  | deliver (j : ι) (d : Datagram)
  | timeout (i : ι) (seq : Nat)
  | resume (i : ι) (seq : Nat)

namespace Act

variable {ι : Type} [DecidableEq ι] (cfg : Config ι) (w : World ι)

/-- What a step does. -/
def run : Act ι → Ret (World ι)
  | gossip i c => ((c.run (cfg.name i) (w.peers i).nodes).map fun s =>
      w.setPeer i { w.peers i with nodes := s })
  | probe i t ta => .ok (w.probeNode cfg i t ta)
  | probeVia i t ta ra => .ok (w.probeNodeIndirectVia cfg i t ta ra)
  | deliver j d => w.handleDatagram cfg j d
  | timeout i seq =>
    (w.setPeer i ((w.peers i).release seq)).afterTimeout ((w.peers i).purpose seq)
  | resume i seq =>
    match (w.peers i).probeStatus seq with
    | some (.resolved b) =>
      (w.setPeer i ((w.peers i).release seq)).afterResult cfg i b ((w.peers i).purpose seq)
    | _ => .ok w

/-- A datagram is delivered only where it was sent; a waiter times out while pending, and its
task resumes once it is resolved. -/
def Enabled : Act ι → Prop
  | gossip i c => c.Enabled (w.peers i).nodes
  | deliver j d => (cfg.addr j, d) ∈ w.sent
  | timeout i seq => (w.peers i).probeStatus seq = some .pending
  | resume i seq => ∃ b, (w.peers i).probeStatus seq = some (.resolved b)
  | _ => True

instance (a : Act ι) : Decidable (a.Enabled cfg w) := by
  cases a <;> unfold Enabled <;> infer_instance

variable {cfg w} {i : ι} {seq : Nat}

@[simp] theorem state_run_gossip (c : Call) : ((gossip i c).run cfg w).state =
    w.setPeer i { w.peers i with nodes := (c.run (cfg.name i) (w.peers i).nodes).state } :=
  Ret.state_map _ _

/-- A timed-out waiter is deleted, and the rest of its task changes nothing. -/
@[simp] theorem state_run_timeout :
    ((timeout i seq).run cfg w).state = w.setPeer i ((w.peers i).release seq) :=
  World.afterTimeout_state _ _

theorem run_resume {b : Bool} (hb : (w.peers i).probeStatus seq = some (.resolved b)) :
    (resume i seq).run cfg w =
      (w.setPeer i ((w.peers i).release seq)).afterResult cfg i b ((w.peers i).purpose seq) := by
  simp only [run, hb]

end Act

namespace Cluster

variable {ι : Type} [DecidableEq ι]

/-- The states of the runs of a cluster. -/
inductive Reachable (cfg : Config ι) : World ι → Prop
  | init : Reachable cfg .init
  | step {w : World ι} (a : Act ι) : Reachable cfg w → a.Enabled cfg w →
      Reachable cfg (a.run cfg w).state

end Cluster

namespace World

variable {ι : Type} [DecidableEq ι] {cfg : Config ι} {w : World ι}

/-- `w'` holds the `NodeManager` of every node of `w`. -/
def SameNodes (w w' : World ι) : Prop := ∀ k, (w'.peers k).nodes = (w.peers k).nodes

theorem sameNodes_setPeer {i : ι} {p : Peer} (h : p.nodes = (w.peers i).nodes) :
    SameNodes w (w.setPeer i p) := fun k => by
  by_cases hk : k = i
  · subst hk; simp [h]
  · simp [Function.update_noteq hk]

omit [DecidableEq ι] in
theorem SameNodes.send {w' : World ι} (h : SameNodes w w') (dst : Addr) (d : Datagram) :
    SameNodes w (w'.send dst d) := h

theorem sameNodes_handleDatagram (j : ι) (d : Datagram) :
    SameNodes w (w.handleDatagram cfg j d).state := by
  cases d with
  | ping p =>
    show SameNodes w (w.handlePingMessage cfg j p)
    unfold handlePingMessage; split
    · exact fun _ => rfl
    · exact fun _ => rfl
  | pingReq q => exact (sameNodes_setPeer (i := j) (by rfl)).send _ _
  | ack seq _ | nack seq _ =>
    show SameNodes w (w.resolveProbe j seq _).state
    unfold resolveProbe; split
    · exact sameNodes_setPeer (by rfl)
    · exact fun _ => rfl
    · exact fun _ => rfl

omit [DecidableEq ι] in
theorem sameNodes_afterResult (i : ι) (b : Bool) (pu : Option Purpose) :
    SameNodes w (w.afterResult cfg i b pu).state := by
  rcases w.afterResult_state cfg i b pu with h | ⟨q, -, h⟩ <;> rw [h] <;> exact fun _ => rfl

end World

/-- A step changes node `k`'s `NodeManager` only as a call of a gossip step at `k`. -/
theorem Act.nodes_run {ι : Type} [DecidableEq ι] {cfg : Config ι} {w : World ι} (a : Act ι)
    (k : ι) : ((a.run cfg w).state.peers k).nodes = (w.peers k).nodes ∨
      ∃ c, a = .gossip k c ∧
        ((a.run cfg w).state.peers k).nodes = (c.run (cfg.name k) (w.peers k).nodes).state := by
  cases a with
  | gossip j c =>
    rw [Act.state_run_gossip]
    by_cases hkj : k = j
    · subst hkj; exact .inr ⟨c, rfl, by simp⟩
    · exact .inl (by simp [Function.update_noteq hkj])
  | probe => exact .inl ((World.sameNodes_setPeer (by rfl)).send _ _ k)
  | probeVia => exact .inl ((World.sameNodes_setPeer (by rfl)).send _ _ k)
  | deliver j d => exact .inl (World.sameNodes_handleDatagram j d k)
  | timeout => exact .inl (by rw [Act.state_run_timeout]; exact World.sameNodes_setPeer (by rfl) k)
  | resume i seq =>
    refine .inl ?_
    show ((match (w.peers i).probeStatus seq with
      | some (.resolved b) =>
        (w.setPeer i ((w.peers i).release seq)).afterResult cfg i b ((w.peers i).purpose seq)
      | _ => .ok w).state.peers k).nodes = _
    split
    · exact (World.sameNodes_afterResult _ _ _ k).trans (World.sameNodes_setPeer (by rfl) k)
    · rfl

/-- **Every node's `NodeManager` runs as a `NodeManager` runs**: in every reachable state of the
cluster, node `i`'s membership is a reachable state of a node named `i`'s name. -/
theorem Cluster.Reachable.nodes {ι : Type} [DecidableEq ι] {cfg : Config ι} {w : World ι}
    (hw : Cluster.Reachable cfg w) (i : ι) : Tattle.Reachable (cfg.name i) (w.peers i).nodes := by
  induction hw generalizing i with
  | init => exact .init
  | @step w a _ he ih =>
    rcases @Act.nodes_run _ _ cfg w a i with h | ⟨c, rfl, h⟩
    · exact h ▸ ih i
    · exact h ▸ (ih i).step c he

end Tattle
