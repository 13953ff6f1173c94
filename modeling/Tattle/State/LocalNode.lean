import Tattle.State.Order

/-!
# The local node's record

The local node's record is the one record the manager writes about itself: `set_local_node`
announces it ALIVE through `on_node_alive`, `_refute` answers a SUSPECT or DEAD about it, and
`leave_local_node` marks it DEAD through `on_node_dead` with `_leaving` set.

## After `leave_local_node`

Once `_leaving` is set and the record is DEAD at incarnation `i`, SUSPECT and DEAD about it are
ignored (the record is DEAD), and so are the tasks of its suspicion timers. So the record stays as
`leave_local_node` left it until an ALIVE with the recorded address and an incarnation `≥ i`
arrives, which revives it; an ALIVE with a lower incarnation is ignored whole
(`local_dead_until_alive`).

The guard at the top of `on_node_alive` that would ignore an ALIVE during a leave, "so we don't
rejoin the cluster", is commented out, and `on_node_alive` accepts for the local node an
incarnation equal to the current one. So the node's own last ALIVE, re-gossiped by a peer,
revives it after the leave: ALIVE again, re-broadcast, with `node.alive` emitted
(`alive_revives_after_leave`).

## `_refute`

`_refute` takes the new incarnation from `_local_node_seq`, a counter of its own that knows
nothing of the incarnations the manager has accepted about the local node. And before
`set_local_node` the local name is unset, so the record filed under it takes SUSPECT like any
other, and the ALIVE `set_local_node` sends afterwards is stale against it. The last two
theorems of the module run these cases.

## Main results

* `local_dead_until_alive`: after leaving, the local record is kept until an ALIVE at an
  incarnation no lower revives it
* `alive_revives_after_leave`: after leaving, an ALIVE at the incarnation the leave left revives
  the local node
* `refute_below_accusation`, `local_suspect_after_start`: runs of `_refute` and of the start
-/

namespace Tattle

namespace Members

variable {v : Members} {n : String} {x : Node}

theorem onNodeDead_of_dead (hx : v.record n = some x) (hd : x.status = .dead) (incarnation : Nat) :
    v.onNodeDead n incarnation = .ok v := by
  simp [Members.onNodeDead, hx, hd]

theorem onNodeSuspect_of_dead (hx : v.record n = some x) (hd : x.status = .dead)
    (incarnation : Nat) (metadata : Metadata) : v.onNodeSuspect n incarnation metadata = .ok v := by
  simp [Members.onNodeSuspect, hx, hd]

/-- An ALIVE about the local node below its incarnation is ignored. -/
theorem onNodeAlive_local_stale (hL : v.localNodeName = some n) (hx : v.record n = some x)
    {incarnation : Nat} (h : incarnation < x.incarnation) (host : String) (port : Nat)
    (metadata : Metadata) : v.onNodeAlive n incarnation host port metadata = .ok v := by
  simp only [Members.onNodeAlive, hx, Members.aliveKnown, hL, h, and_true, ne_eq, not_true_eq_false,
    false_and, if_false, if_true]
  split <;> rfl

/-- An ALIVE about another node, not newer than its record, is ignored. -/
theorem onNodeAlive_not_newer (hL : v.localNodeName ≠ some n) (hx : v.record n = some x)
    {incarnation : Nat} (h : incarnation ≤ x.incarnation) (host : String) (port : Nat)
    (metadata : Metadata) : v.onNodeAlive n incarnation host port metadata = .ok v := by
  simp only [Members.onNodeAlive, hx, Members.aliveKnown, ne_eq, hL, not_false_eq_true, h, and_self,
    if_true]
  split <;> rfl

/-- An ALIVE about the local node, DEAD, from its recorded address and at an incarnation no lower,
is accepted: the record is written ALIVE, queued and emitted. -/
theorem onNodeAlive_local_dead (hL : v.localNodeName = some n) (hx : v.record n = some x)
    (hd : x.status = .dead) {incarnation : Nat} (h : x.incarnation ≤ incarnation) (metadata : Metadata) :
    v.onNodeAlive n incarnation x.host x.port metadata =
      .ok (((v.setRecord n (x.aliveWrite incarnation metadata)).broadcastAlive n
        (x.aliveWrite incarnation metadata)).emit .alive n) := by
  simp [Members.onNodeAlive, Members.aliveKnown, hx, hL, hd, Nat.not_lt.mpr h, Node.aliveWrite, Ret.andThen]

section Inv

variable (hi : v.SuspectInv)
include hi

/-- A DEAD record is kept by every `on_node_dead`, whatever its name. -/
theorem record_onNodeDead_of_dead (hx : v.record n = some x) (hd : x.status = .dead)
    (name : String) (incarnation : Nat) : (v.onNodeDead name incarnation).state.record n = some x := by
  by_cases hm : name = n
  · subst hm; rw [onNodeDead_of_dead hx hd]; exact hx
  · exact ((frame_onNodeDead hi name incarnation).record n (Ne.symm hm)).trans hx

/-- An ALIVE about the local node keeps its record, or is accepted: it has the recorded address
and an incarnation no lower, and the record becomes ALIVE at it. -/
theorem onNodeAlive_local (hL : v.localNodeName = some n) (hx : v.record n = some x)
    (incarnation : Nat) (host : String) (port : Nat) (metadata : Metadata) :
    (v.onNodeAlive n incarnation host port metadata).state.record n = some x ∨
    host = x.host ∧ port = x.port ∧ x.incarnation ≤ incarnation ∧
      (v.onNodeAlive n incarnation host port metadata).state.record n =
        some (x.aliveWrite incarnation metadata) := by
  have he : v.onNodeAlive n incarnation host port metadata =
      v.aliveKnown n x incarnation host port metadata := by simp [Members.onNodeAlive, hx]
  rw [he]
  rcases aliveKnown_cases hi hx incarnation host port metadata with h | ⟨hh, hp, hinc, h⟩
  · exact .inl (by rw [h]; exact hx)
  · refine .inr ⟨hh.symm, hp.symm, ?_, ?_⟩
    · rcases hinc with ⟨-, h⟩ | ⟨h', -⟩
      · exact h
      · exact absurd hL h'
    · rw [h, Ret.state_ok]
      split <;> exact Function.update_same _ _ _

end Inv

end Members

namespace Call

variable {L : String} {s : NodeManager} {v : Members} {x : Node}

open Members

theorem leaving_onMembers (hi : v.SuspectInv) (hl : v.leaving = true) (c : Call) :
    (c.onMembers L s v).state.leaving = true := by
  cases c with
  | alive => exact (frame_onNodeAlive hi _ _ _ _ _).leaving.trans hl
  | suspect => exact (frame_onNodeSuspect _ _ _).leaving.trans hl
  | dead => exact (frame_onNodeDead hi _ _).leaving.trans hl
  | setLocalNode =>
    exact (frame_onNodeAlive (v := { v with localNodeName := some L, localNodeSeq := v.localNodeSeq + 1 })
      (hi.congr rfl rfl) _ _ _ _ _).leaving.trans hl
  | leaveLocalNode =>
    show v.leaveLocalNode.state.leaving = true
    rcases leaveLocalNode_cases (v := v) with ⟨-, h'⟩ | ⟨L', -, ⟨-, h'⟩ | ⟨x, -, h'⟩⟩ <;> rw [h']
    · exact hl
    · rfl
    · exact (frame_onNodeDead (v := { v with leaving := true }) (hi.congr rfl rfl) _ _).leaving
  | fire => exact hl
  | task => exact (frame_onNodeDead hi _ _).leaving.trans hl

/-- One call, once `_leaving` is set and the local record `x` is DEAD: the record is kept, or the
call is an ALIVE about the local node (direct or from `set_local_node`) with the recorded address
and an incarnation no lower, and the record becomes ALIVE at it. -/
theorem localDead_onMembers (hi : v.SuspectInv) (hL : v.localNodeName = some L)
    (hx : v.record L = some x) (hn : x.name = L) (hd : x.status = .dead) (c : Call) :
    (c.onMembers L s v).state.record L = some x ∨
    ∃ inc md j, x.incarnation ≤ inc ∧
      (c = .alive L inc x.host x.port md j ∨
        c = .setLocalNode x.host x.port md j ∧ inc = v.localNodeSeq + 1) ∧
      (c.onMembers L s v).state.record L = some (x.aliveWrite inc md) := by
  cases c with
  | alive name inc host port md j =>
    by_cases hm : name = L
    · subst hm
      rcases onNodeAlive_local hi hL hx inc host port md with h | ⟨rfl, rfl, hinc, h⟩
      · exact .inl h
      · exact .inr ⟨inc, md, j, hinc, .inl rfl, h⟩
    · exact .inl (((frame_onNodeAlive hi _ _ _ _ _).record L (Ne.symm hm)).trans hx)
  | suspect name inc md =>
    left
    by_cases hm : name = L
    · subst hm; show (v.onNodeSuspect name inc md).state.record name = some x
      rw [onNodeSuspect_of_dead hx hd]; exact hx
    · exact ((frame_onNodeSuspect _ _ _).record L (Ne.symm hm)).trans hx
  | dead => exact .inl (record_onNodeDead_of_dead hi hx hd _ _)
  | setLocalNode host port md j =>
    rcases onNodeAlive_local (v := { v with localNodeName := some L, localNodeSeq := v.localNodeSeq + 1 })
      (hi.congr rfl rfl) rfl hx (v.localNodeSeq + 1) host port md with h | ⟨rfl, rfl, hinc, h⟩
    · exact .inl h
    · exact .inr ⟨_, md, j, hinc, .inr ⟨rfl, rfl⟩, h⟩
  | leaveLocalNode =>
    left
    show v.leaveLocalNode.state.record L = some x
    rcases leaveLocalNode_cases (v := v) with ⟨h, -⟩ | ⟨L', hL', ⟨h, -⟩ | ⟨y, hy, h'⟩⟩
    · simp [hL] at h
    · cases hL.symm.trans hL'; simp [hx] at h
    · cases hL.symm.trans hL'
      cases hx.symm.trans hy
      rw [h', hn]
      exact record_onNodeDead_of_dead (v := { v with leaving := true }) (hi.congr rfl rfl) hx hd _ _
  | fire => exact .inl hx
  | task => exact .inl (record_onNodeDead_of_dead hi hx hd _ _)

end Call

/-- **After `leave_local_node` the local record stays DEAD until an ALIVE revives it.** From a
reachable state with `_leaving` set and the local record `x` DEAD at incarnation `i`: an ALIVE
about the local node below `i` ends normally and changes nothing, outputs included; and along
every run the record stays `x`, or some step, made while it still was `x`, is an ALIVE about the
local node (direct, or the one `set_local_node` sends) with the recorded host and port and an
incarnation `≥ i`, after which the record is ALIVE at that incarnation. -/
theorem local_dead_until_alive {L : String} {s : NodeManager} (hs : Reachable L s)
    (hl : s.leaving = true) {x : Node} (hx : s.record L = some x) (hd : x.status = .dead) :
    (∀ inc host port md j, inc < x.incarnation →
      ((Call.alive L inc host port md j).run L s).map NodeManager.members = .ok s.members) ∧
    ∀ cs s', Run L s cs s' → s'.record L = some x ∨
      ∃ cs₁ c cs₂ w inc md j, cs = cs₁ ++ c :: cs₂ ∧ Run L s cs₁ w ∧ w.record L = some x ∧
        x.incarnation ≤ inc ∧
        (c = .alive L inc x.host x.port md j ∨
          c = .setLocalNode x.host x.port md j ∧ inc = w.localNodeSeq + 1) ∧
        (c.run L w).state.record L = some (x.aliveWrite inc md) := by
  refine ⟨fun inc host port md j h => ?_, fun cs s' hr => ?_⟩
  · rw [Call.map_run hs.wf]
    exact Members.onNodeAlive_local_stale (hs.localInv.leaving hl) hx h _ _ _
  · induction hr with
    | nil => exact .inl hx
    | @cons s _ c cs he _ ih =>
      have hL := hs.localInv.leaving hl
      have hstep := Call.localDead_onMembers (s := s) (c := c) hs.suspectInv hL hx
        (hs.wf.record_name hx) hd
      rw [← Call.members_run hs.wf] at hstep
      rcases hstep with h | ⟨inc, md, j, hinc, hc, h⟩
      · have hl₁ : (c.run L s).state.leaving = true := by
          have := Call.leaving_onMembers (L := L) (s := s) hs.suspectInv hl c
          rwa [← Call.members_run hs.wf] at this
        rcases ih (hs.step c he) hl₁ h with h' | ⟨cs₁, c', cs₂, w, inc, md, j, rfl, hr₁, hw⟩
        · exact .inl h'
        · exact .inr ⟨c :: cs₁, c', cs₂, w, inc, md, j, rfl, .cons he hr₁, hw⟩
      · exact .inr ⟨[], c, cs, s, inc, md, j, rfl, .nil s, hx, hinc, hc, h⟩

/-- After node `a` starts and leaves, DEAD at 1, an ALIVE about it at 0 changes nothing. -/
theorem local_dead_after_leave :
    let s : NodeManager := (Call.leaveLocalNode.run "a"
      ((Call.setLocalNode "h" 1 (fun _ => none) 0).run "a" .init).state).state
    let x : Node := ((Node.new "a" "h" 1).aliveWrite 1 fun _ => none).deadWrite 1
    Reachable "a" s ∧ s.leaving = true ∧ s.record "a" = some x ∧ x.status = .dead ∧
    ((Call.alive "a" 0 "h" 1 (fun _ => none) 0).run "a" s).map NodeManager.members = .ok s.members :=
  let hs : Reachable "a" _ :=
    .step .leaveLocalNode (.step (.setLocalNode "h" 1 (fun _ => none) 0) .init trivial) trivial
  ⟨hs, by decide, rfl, rfl, (local_dead_until_alive hs (by decide) rfl rfl).1 0 "h" 1 _ 0 (by decide)⟩

/-- **After `leave_local_node`, the node's own last ALIVE revives it.** From every reachable state
with `_leaving` set and the local record `x` DEAD, an ALIVE about the local node at `x`'s
incarnation, from the recorded address, such as a peer re-gossiping the node's last ALIVE, ends
normally: the record is ALIVE again at that incarnation, an ALIVE of it is queued, and
`node.alive` is emitted. -/
theorem alive_revives_after_leave {L : String} {s : NodeManager} (hs : Reachable L s)
    (hl : s.leaving = true) {x : Node} (hx : s.record L = some x) (hd : x.status = .dead)
    (md : Metadata) (j : Nat) :
    ∃ s', (Call.alive L x.incarnation x.host x.port md j).run L s = .ok s' ∧
      s'.record L = some (x.aliveWrite x.incarnation md) ∧
      s'.queue = s.queue ++ [(L, .alive L ⟨x.host, x.port⟩ x.incarnation (x.metadata.merge md))] ∧
      s'.events = s.events ++ [⟨.alive, L⟩] := by
  obtain ⟨s', h, hm⟩ := Ret.exists_of_map_eq_ok ((Call.map_run hs.wf (.alive L x.incarnation x.host x.port md j)).trans
    (Members.onNodeAlive_local_dead (v := s.members) (hs.localInv.leaving hl) hx hd le_rfl md))
  refine ⟨s', h, ?_⟩
  simp only [← NodeManager.members_record, ← NodeManager.members_queue, ← NodeManager.members_events, hm]
  simp [Members.broadcastAlive, Node.aliveWrite]

/-- Node `a` started and left, DEAD at 1; an ALIVE about `a` at 1 from its own address revives
it. -/
theorem started_node_revived :
    let s : NodeManager := (Call.leaveLocalNode.run "a"
      ((Call.setLocalNode "h" 1 (fun _ => none) 0).run "a" .init).state).state
    let x : Node := ((Node.new "a" "h" 1).aliveWrite 1 fun _ => none).deadWrite 1
    Reachable "a" s ∧ s.leaving = true ∧ s.record "a" = some x ∧ x.status = .dead ∧
    ∃ s', (Call.alive "a" x.incarnation x.host x.port (fun _ => none) 0).run "a" s = .ok s' ∧
      s'.record "a" = some (x.aliveWrite x.incarnation fun _ => none) ∧
      s'.queue = s.queue ++ [("a", .alive "a" ⟨x.host, x.port⟩ x.incarnation (x.metadata.merge fun _ => none))] ∧
      s'.events = s.events ++ [⟨.alive, "a"⟩] :=
  let hs : Reachable "a" _ :=
    .step .leaveLocalNode (.step (.setLocalNode "h" 1 (fun _ => none) 0) .init trivial) trivial
  ⟨hs, by decide, rfl, rfl, alive_revives_after_leave hs (by decide) rfl rfl _ 0⟩

/-- `_refute` can answer an accusation with a lower incarnation. Node `a` starts (incarnation 1)
and accepts an ALIVE about itself at 5; a SUSPECT about `a` at 5 is refuted with incarnation 2,
the next value of `_local_node_seq`, which the record takes and the queued ALIVE carries. -/
theorem refute_below_accusation :
    let s : NodeManager := ((Call.alive "a" 5 "h" 1 (fun _ => none) 0).run "a"
      ((Call.setLocalNode "h" 1 (fun _ => none) 0).run "a" .init).state).state
    let s' : NodeManager := ((Call.suspect "a" 5 fun _ => none).run "a" s).state
    Reachable "a" s ∧ s.localNodeName = some "a" ∧ s.leaving = false ∧
    (s.record "a").map Node.incarnation = some 5 ∧
    (s'.record "a").map Node.incarnation = some 2 ∧
    s'.queue.getLast?.map (fun m => (m.1, m.2.incarnation)) = some ("a", 2) :=
  ⟨.step (.alive "a" 5 "h" 1 (fun _ => none) 0)
      (.step (.setLocalNode "h" 1 (fun _ => none) 0) .init trivial) trivial,
    by decide, by decide, by decide, by decide, by decide⟩

/-- A SUSPECT that arrives before `set_local_node` sticks to the local node. `a` is known ALIVE
at 3 and suspected at 3 while the local name is unset, which writes SUSPECT and then raises in
`_broadcast_suspect`; `set_local_node` then sends ALIVE at 1, stale against 3, and `a` is SUSPECT
after the start. -/
theorem local_suspect_after_start :
    let s : NodeManager := ((Call.setLocalNode "h" 1 (fun _ => none) 0).run "a"
      ((Call.suspect "a" 3 fun _ => none).run "a"
      ((Call.alive "a" 3 "h" 1 (fun _ => none) 0).run "a" .init).state).state).state
    Reachable "a" s ∧ s.localNodeName = some "a" ∧ s.leaving = false ∧
    (s.record "a").map Node.status = some .suspect :=
  ⟨.step (.setLocalNode "h" 1 (fun _ => none) 0) (.step (.suspect "a" 3 fun _ => none)
      (.step (.alive "a" 3 "h" 1 (fun _ => none) 0) .init trivial) trivial) trivial,
    by decide, by decide, by decide⟩

end Tattle
