import Tattle.State.NodeManager

/-!
# The handlers of `NodeManager`, and its runs

`on_node_alive`, `on_node_suspect` and `on_node_dead` arbitrate the updates about one node by
its incarnation; `set_local_node` and `leave_local_node` are the calls `Cluster.start` and
`Cluster.leave` make; a suspicion timer's handle runs `Timer._run`, which only creates a task,
and that task calls `on_node_dead` when it first runs.

`Cluster.start` starts the UDP listener before it calls `set_local_node`, and every handler
can be reached from a datagram, a sync snapshot or a probe, so a run is any sequence of these
calls, with any arguments, from the state `NodeManager.__init__` builds. `L` is the configured
node name, the one `set_local_node` is called with.

## Main definitions

* `NodeManager.onNodeAlive`, `onNodeSuspect`, `onNodeDead`: the three handlers
* `NodeManager.setLocalNode`, `leaveLocalNode`, `fireTimer`, `handleSuspectTimer`
* `Call`, `Call.run`, `Call.Enabled`: the steps of a run
* `Reachable L`, `Run L`: the states of the runs, and the runs themselves
-/

namespace Tattle

namespace NodeManager

variable (s : NodeManager)

/-- The body of `on_node_alive` once `current_node` is the node at `r`. -/
def aliveKnown (r : Nat) (incarnation : Nat) (host : String) (port : Nat)
    (metadata : Metadata) : Ret NodeManager :=
  let node := s.heap r
  -- return if conflicting node address
  if node.host ≠ host ∨ node.port ≠ port then .ok s
  -- if this is not about us, return if the incarnation number is older or the same
  else if s.localNode ≠ some r ∧ incarnation ≤ node.incarnation then .ok s
  -- if this is about us, return if the incarnation number is older
  else if s.localNode = some r ∧ incarnation < node.incarnation then .ok s
  else
    (if node.status = .suspect then s.cancelSuspectNode r else .ok s).andThen fun s =>
      let s := (s.setNode r fun n =>
        { n with incarnation, status := .alive, metadata := n.metadata.merge metadata }).broadcastAlive r
      .ok (if node.status ≠ .alive then s.emit .alive r else s)

/-- `on_node_alive(name, incarnation, host, port, metadata)`; `i` is the draw of the discovery
swap. The leaving guard of the source is commented out, and `bootstrap` is never read. -/
def onNodeAlive (name : String) (incarnation : Nat) (host : String) (port : Nat)
    (metadata : Metadata) (i : Nat) : Ret NodeManager :=
  match s.nodesMap name with
  | some r => s.aliveKnown r incarnation host port metadata
  | none => (s.addNode name host port i).aliveKnown s.next incarnation host port metadata

/-- `on_node_dead(name, incarnation)`. -/
def onNodeDead (name : String) (incarnation : Nat) : Ret NodeManager :=
  match s.nodesMap name with
  | none => .ok s
  | some r =>
    let node := s.heap r
    if node.status = .dead then .ok s
    else if incarnation < node.incarnation then .ok s
    -- if this is about the local node, we need to refute
    else if s.localNode = some r ∧ s.leaving = false then s.refute
    else
      (if node.status = .suspect then s.cancelSuspectNode r else .ok s).andThen fun s =>
        ((s.setNode r fun n => { n with incarnation, status := .dead }).broadcastDead r).andThen
          fun s => .ok (if node.status ≠ .dead then s.emit .dead r else s)

/-- `on_node_suspect(name, incarnation, metadata)`. -/
def onNodeSuspect (name : String) (incarnation : Nat) (metadata : Metadata) : Ret NodeManager :=
  match s.nodesMap name with
  | none => .ok s
  | some r =>
    let node := s.heap r
    if node.status = .dead then .ok s
    else if incarnation < node.incarnation then .ok s
    -- if this is about the local node, we need to refute
    else if s.localNode = some r then s.refute
    else
      let s := ((s.setNode r fun n => { n with incarnation, status := .suspect }).createSuspectNode
        r).setNode r fun n => { n with metadata := n.metadata.merge metadata }
      (s.broadcastSuspect r).andThen fun s =>
        .ok (if node.status ≠ .suspect then s.emit .suspect r else s)

/-- `set_local_node(name, host, port, metadata)`: the name is set, the local sequence gives the
incarnation, and `on_node_alive` signals the node alive. -/
def setLocalNode (name host : String) (port : Nat) (metadata : Metadata) (i : Nat) :
    Ret NodeManager :=
  let s := { s with localNodeName := some name, localNodeSeq := s.localNodeSeq + 1 }
  s.onNodeAlive name s.localNodeSeq host port metadata i

/-- `leave_local_node`: the assertion on the name, the `_leaving` flag, then `on_node_dead` with
the local node's name and incarnation. -/
def leaveLocalNode : Ret NodeManager :=
  match s.localNodeName with
  | none => .raised .assertionError s
  | some _ =>
    let s := { s with leaving := true }
    match s.localNode with
    | none => .raised .attributeError s
    | some l => s.onNodeDead (s.heap l).name (s.heap l).incarnation

/-- The event loop runs the timer's `call_later` handle: `Timer._run` calls the callback, which
only returns the `_handle_suspect_timer` coroutine, and `create_task` schedules it. -/
def fireTimer (t : Nat) : NodeManager :=
  { s with timers := Function.update s.timers t { s.timers t with pending := false }
           tasks := s.tasks ++ [t] }

/-- The task of timer `t` runs `_handle_suspect_timer`: it reads `node.name` and
`node.incarnation` now, not when the timer fired, and calls `on_node_dead` with them. -/
def handleSuspectTimer (t : Nat) : Ret NodeManager :=
  let s := { s with tasks := s.tasks.erase t }
  s.onNodeDead (s.heap (s.timers t).node).name (s.heap (s.timers t).node).incarnation

end NodeManager

/-- A step of a run: a handler call with its arguments, `set_local_node` (with the configured
name), `leave_local_node`, a timer's handle running, or a timer's task running. -/
inductive Call
  | alive (name : String) (incarnation : Nat) (host : String) (port : Nat) (metadata : Metadata)
      (i : Nat)
  | suspect (name : String) (incarnation : Nat) (metadata : Metadata)
  | dead (name : String) (incarnation : Nat)
  | setLocalNode (host : String) (port : Nat) (metadata : Metadata) (i : Nat)
  | leaveLocalNode
  | fire (t : Nat)
  | task (t : Nat)

namespace Call

/-- What a step does on a node named `L`. -/
def run (L : String) (s : NodeManager) : Call → Ret NodeManager
  | alive name inc host port md i => s.onNodeAlive name inc host port md i
  | suspect name inc md => s.onNodeSuspect name inc md
  | dead name inc => s.onNodeDead name inc
  | setLocalNode host port md i => s.setLocalNode L host port md i
  | leaveLocalNode => s.leaveLocalNode
  | fire t => .ok (s.fireTimer t)
  | task t => s.handleSuspectTimer t

/-- A timer's handle runs only while it is scheduled, and a task only while it is pending; the
calls can always be made. -/
def Enabled (s : NodeManager) : Call → Prop
  | fire t => (s.timers t).pending = true
  | task t => t ∈ s.tasks
  | _ => True

instance (s : NodeManager) (c : Call) : Decidable (c.Enabled s) := by
  cases c <;> unfold Enabled <;> infer_instance

end Call

/-- The states of the runs of a node named `L`. -/
inductive Reachable (L : String) : NodeManager → Prop
  | init : Reachable L .init
  | step {s : NodeManager} (c : Call) : Reachable L s → c.Enabled s → Reachable L (c.run L s).state

/-- `Run L s cs s'`: the calls `cs`, each enabled when it is made, lead from `s` to `s'`. -/
inductive Run (L : String) : NodeManager → List Call → NodeManager → Prop
  | nil (s : NodeManager) : Run L s [] s
  | cons {s s' : NodeManager} {c : Call} {cs : List Call} :
      c.Enabled s → Run L (c.run L s).state cs s' → Run L s (c :: cs) s'

theorem Run.reachable {L : String} {s s' : NodeManager} {cs : List Call} (hr : Run L s cs s')
    (hs : Reachable L s) : Reachable L s' := by
  induction hr with
  | nil => exact hs
  | cons he _ ih => exact ih (hs.step _ he)

end Tattle
