import Tattle.State.Snapshot
import Tattle.State.BroadcastQueue

/-!
# Every node held ALIVE is gossiped as it is

A record becomes ALIVE only when `on_node_alive` accepts it, and `_refute` raises the local
node's incarnation. Both then push `_broadcast_alive` of the record they wrote. A SUSPECT or DEAD
is pushed under a name only once its record has been written SUSPECT or DEAD, and no other write
leaves a record ALIVE. So in every reachable state, the last push under each name held ALIVE is
the ALIVE message of its record as it is now: its name, address, incarnation and metadata
(`Members.Fresh`). The broadcast queue, modelled from the spec, keeps each name's last push until
a fetch returns it, and replaces it on the next push under that name. So, whatever fetches ran
between the pushes, the queue holds nothing else under a name held ALIVE, and it holds that
message or a fetch has returned it (`alive_records_queued`).

A node that handles the gossip messages the queue has returned and those it still holds therefore
learns every node the other holds ALIVE. This holds in whatever order it handles them and
whatever else it runs in between (`gossip_spreads_alive`). Handling a message is what
`_handle_alive_message`, `_handle_suspect_message` and `_handle_dead_message` do with it
(`Message.call`). The hypothesis is the delivery: each fetch piggybacks its batch on one datagram
to one peer, and UDP may drop it. The theorem says what delivery buys, not that delivery
happens.

## Main definitions

* `Message.call`: the handler call a received gossip message makes
* `Members.Fresh`: the last push under every name held ALIVE is its ALIVE message as it is now

## Main results

* `Call.fresh_onMembers`: one call keeps `Members.Fresh`
* `alive_records_queued`: the queue holds the ALIVE message of every node held ALIVE until a
  fetch returns it, and nothing else under its name
* `gossip_spreads_alive`: handling what another node's queue hands out teaches every node it holds
  ALIVE
-/

namespace Tattle

/-- What `_handle_udp_message` does with a received gossip message:
`_handle_alive_message` calls `on_node_alive` with the message's node, incarnation, address
and metadata; `_handle_suspect_message` calls `on_node_suspect` with empty metadata; and
`_handle_dead_message` calls `on_node_dead`. `i` is the draw of a discovery's swap. -/
def Message.call (m : Message) (i : Nat) : Call :=
  match m with
  | .alive n addr inc md => .alive n inc addr.address addr.port md i
  | .suspect n inc _ => .suspect n inc fun _ => none
  | .dead n inc _ => .dead n inc

theorem Message.call_enabled (m : Message) (i : Nat) (s : NodeManager) : (m.call i).Enabled s := by
  cases m <;> trivial

namespace Members

variable {v w : Members} {n : String}

/-- The last push under every name `v` holds ALIVE is the ALIVE message of its record as it is:
its name, address, incarnation and metadata. -/
def Fresh (v : Members) : Prop :=
  ∀ n x, v.record n = some x → x.status = .alive →
    lastPush v.queue n = some (.alive n ⟨x.host, x.port⟩ x.incarnation x.metadata)

/-- After a write of a record that is not ALIVE, the name's record is not ALIVE. -/
theorem not_alive_setRecord {y : Node} (hy : y.status ≠ .alive) :
    ∀ z, (v.setRecord n y).record n = some z → z.status ≠ .alive := fun z hz => by
  simp only [setRecord_record, Function.update_same, Option.some.injEq] at hz
  exact hz ▸ hy

namespace Fresh

/-- A step that changes neither the records nor the queue. -/
theorem same (h : v.Fresh) (hr : w.record = v.record) (hq : w.queue = v.queue) : w.Fresh :=
  fun m x hx ha => hq ▸ h m x (hr ▸ hx) ha

/-- A push under a name whose record is not ALIVE. -/
theorem push (h : v.Fresh) (hn : ∀ x, v.record n = some x → x.status ≠ .alive) (m : Message) :
    (v.push n m).Fresh := by
  intro k x hx ha
  rw [push_queue, lastPush_append_singleton, if_neg]
  · exact h k x hx ha
  · rintro rfl; exact hn x hx ha

theorem createSuspect (h : v.Fresh) (n : String) : (v.createSuspect n).Fresh := h.same rfl rfl

theorem emit_if (h : v.Fresh) (c : Prop) [Decidable c] (st : Status) (n : String) :
    (if c then v.emit st n else v).Fresh := by
  split
  · exact h.same rfl rfl
  · exact h

/-- A write of a record that is not ALIVE. -/
theorem setRecord (h : v.Fresh) (n : String) (y : Node) (hy : y.status ≠ .alive) :
    (v.setRecord n y).Fresh := by
  intro m x hx ha
  by_cases hm : m = n
  · subst hm; exact absurd ha (not_alive_setRecord hy x hx)
  · exact h m x (by simpa [Function.update_noteq hm] using hx) ha

/-- A write followed by `_broadcast_alive` of what was written. -/
theorem write (h : v.Fresh) (n : String) (y : Node) : ((v.setRecord n y).broadcastAlive n y).Fresh := by
  intro m x hx ha
  simp only [broadcastAlive, push_queue, setRecord_queue, push_record, setRecord_record] at hx ⊢
  rw [lastPush_append_singleton]
  by_cases hm : m = n
  · subst hm
    cases (Function.update_same m _ v.record).symm.trans hx
    exact if_pos rfl
  · rw [Function.update_noteq hm] at hx
    rw [if_neg (Ne.symm hm)]
    exact h m x hx ha

theorem broadcastSuspect (h : v.Fresh) (hn : ∀ x, v.record n = some x → x.status ≠ .alive) (x : Node) :
    (v.broadcastSuspect n x).state.Fresh := by
  unfold Members.broadcastSuspect; split
  · exact h
  · exact h.push hn _

theorem broadcastDead (h : v.Fresh) (hn : ∀ x, v.record n = some x → x.status ≠ .alive) (x : Node) :
    (v.broadcastDead n x).state.Fresh := by
  unfold Members.broadcastDead; split
  · exact h
  · exact h.push hn _

/-- What follows a broadcast that may raise: the event, if any. -/
theorem andThen_emit {a : Ret Members} (h : a.state.Fresh) (c : Prop) [Decidable c] (st : Status)
    (n : String) : (a.andThen fun w => .ok (if c then w.emit st n else w)).state.Fresh :=
  Ret.state_andThen h fun w hw => by subst hw; exact h.emit_if c st n

theorem refute (h : v.Fresh) : v.refute.state.Fresh := by
  rcases refute_cases (v := v) with ⟨-, h'⟩ | ⟨L, x, -, -, h'⟩ <;> rw [h']
  · exact h.same rfl rfl
  · exact (h.same (w := { v with localNodeSeq := v.localNodeSeq + 1 }) rfl rfl).write _ _

theorem aliveKnown (h : v.Fresh) (hi : v.SuspectInv) {name : String} {x : Node}
    (hx : v.record name = some x) (incarnation : Nat) (host : String) (port : Nat) (metadata : Metadata) :
    (v.aliveKnown name x incarnation host port metadata).state.Fresh := by
  rcases aliveKnown_cases hi hx incarnation host port metadata with h' | ⟨-, -, -, h'⟩ <;> rw [h']
  · exact h
  · exact ((h.same (w := { v with suspects := Function.update v.suspects name false }) rfl rfl).write
      _ _).emit_if _ _ _

theorem onNodeAlive (h : v.Fresh) (hi : v.SuspectInv) (name : String) (incarnation : Nat)
    (host : String) (port : Nat) (metadata : Metadata) :
    (v.onNodeAlive name incarnation host port metadata).state.Fresh := by
  unfold Members.onNodeAlive
  cases hx : v.record name with
  | some x => exact h.aliveKnown hi hx _ _ _ _
  | none =>
    exact (h.setRecord name _ (by simp [Node.new])).aliveKnown (hi.setRecord_new hx host port) (by simp) _ _ _ _

theorem onNodeSuspect (h : v.Fresh) (name : String) (incarnation : Nat) (metadata : Metadata) :
    (v.onNodeSuspect name incarnation metadata).state.Fresh := by
  rcases onNodeSuspect_cases (v := v) name incarnation metadata with h' | ⟨-, h', -⟩ |
    ⟨x, -, -, -, -, h'⟩ <;> rw [h']
  · exact h
  · exact h.refute
  · have hy : (x.suspectWrite incarnation metadata).status ≠ .alive := by simp [Node.suspectWrite]
    exact andThen_emit (((h.setRecord _ _ hy).createSuspect _).broadcastSuspect
      (not_alive_setRecord hy) _) _ _ _

theorem onNodeDead (h : v.Fresh) (hi : v.SuspectInv) (name : String) (incarnation : Nat) :
    (v.onNodeDead name incarnation).state.Fresh := by
  rcases onNodeDead_cases hi name incarnation with h' | ⟨-, -, h', -⟩ |
    ⟨x, -, -, -, -, h'⟩ <;> rw [h']
  · exact h
  · exact h.refute
  · have hy : (x.deadWrite incarnation).status ≠ .alive := by simp [Node.deadWrite]
    exact andThen_emit (((h.same (w := { v with suspects := Function.update v.suspects name false })
      rfl rfl).setRecord _ _ hy).broadcastDead (not_alive_setRecord hy) _) _ _ _

end Fresh

end Members

namespace Call

variable {L : String} {s : NodeManager} {v : Members}

open Members in
/-- One call keeps the last push under every name held ALIVE its ALIVE message, on names. -/
theorem fresh_onMembers (hi : v.SuspectInv) (h : v.Fresh) (c : Call) :
    (c.onMembers L s v).state.Fresh := by
  cases c with
  | alive => exact h.onNodeAlive hi _ _ _ _ _
  | suspect => exact h.onNodeSuspect _ _ _
  | dead => exact h.onNodeDead hi _ _
  | setLocalNode =>
    exact (h.same (w := { v with localNodeName := some L, localNodeSeq := v.localNodeSeq + 1 }) rfl rfl).onNodeAlive
      (hi.congr rfl rfl) _ _ _ _ _
  | leaveLocalNode =>
    show v.leaveLocalNode.state.Fresh
    rcases leaveLocalNode_cases (v := v) with ⟨-, h'⟩ | ⟨L', -, ⟨-, h'⟩ | ⟨x, -, h'⟩⟩ <;> rw [h']
    · exact h
    · exact h.same rfl rfl
    · exact (h.same (w := { v with leaving := true }) rfl rfl).onNodeDead (hi.congr rfl rfl) _ _
  | fire => exact h
  | task => exact h.onNodeDead hi _ _

end Call

theorem Reachable.fresh {L : String} {s : NodeManager} (hs : Reachable L s) : s.members.Fresh := by
  induction hs with
  | init => intro n x hx; cases hx
  | step c hr _ ih => rw [Call.members_run hr.wf]; exact Call.fresh_onMembers hr.suspectInv ih c

/-- A run that handles an ALIVE message about `n` ends with a record for `n`. -/
theorem Run.record_of_alive {L : String} {s s' : NodeManager} {cs : List Call} (hr : Run L s cs s')
    {n host : String} {incarnation port i : Nat} {metadata : Metadata}
    (hc : Call.alive n incarnation host port metadata i ∈ cs) : s'.record n ≠ none := by
  induction hr with
  | nil => cases hc
  | @cons s s' c cs _ hr' ih =>
    rcases List.mem_cons.mp hc with rfl | hc
    · obtain ⟨r, hr0⟩ := Option.ne_none_iff_exists'.mp (NodeManager.nodesMap_onNodeAlive (s := s) n incarnation
        host port metadata i)
      simp [NodeManager.record, (Run.keeps_records hr').2 n r hr0]
    · exact ih hc

/-- The calls of a list of gossip messages, made one after the other, are a run. -/
theorem Run.of_messages (L : String) (ms : List Message) (i : Nat) (s : NodeManager) :
    Run L s (ms.map (Message.call · i)) ((ms.map (Message.call · i)).foldl (fun s c => (c.run L s).state) s) := by
  induction ms generalizing s with
  | nil => exact .nil s
  | cons m ms ih => exact .cons (m.call_enabled i s) (ih _)

/-- **Every node held ALIVE is in the queue as it is, until a fetch returns it.** Let a node be in
any reachable state, and let its broadcast queue have run the node's pushes, in order, with any
fetches in between. For every record the node holds ALIVE, the last push under its name is the
ALIVE message of the record as it is now, with its address, incarnation and metadata; the queue
holds no other message under that name; and it holds that one, or a fetch has returned it. -/
theorem alive_records_queued {L : String} {s : NodeManager} (hs : Reachable L s) {es : List QueueEvent}
    (hes : es.filterMap QueueEvent.pushed = s.queue) {n : String} {x : Node} (hx : s.record n = some x)
    (ha : x.status = .alive) :
    let m : Message := .alive n ⟨x.host, x.port⟩ x.incarnation x.metadata
    lastPush s.queue n = some m ∧
      (∀ it ∈ (BroadcastQueue.run es).1.items, it.subject = n → it.payload = m) ∧
      ((∃ t, (⟨n, m, t⟩ : QueueItem) ∈ (BroadcastQueue.run es).1.items) ∨ m ∈ (BroadcastQueue.run es).2) := by
  intro m
  have hl : lastPush s.queue n = some m := hs.fresh n x hx ha
  have hq := BroadcastQueue.run_holds es
  rw [hes] at hq
  exact ⟨hl, fun it hit hn => Option.some.inj ((hn ▸ hq.fresh it hit).symm.trans hl), hq.kept n m hl⟩

/-- Node `a`, started, has discovered `c`; its queue runs its pushes and then a fetch of `c`'s item
with `max_transmits` 0, which returns `c`'s ALIVE and evicts it: only `a`'s item is left, and the
fetch has returned `c`'s ALIVE as it is. -/
theorem discovered_node_fetched :
    let s : NodeManager := ((Call.alive "c" 1 "h3" 3 (fun _ => none) 0).run "a"
      ((Call.setLocalNode "h1" 1 (fun _ => none) 0).run "a" .init).state).state
    let es : List QueueEvent := s.queue.map (fun p => .push p.1 p.2) ++ [.fetch 0 ["c"]]
    ∃ x, s.record "c" = some x ∧ x.status = .alive ∧
      (BroadcastQueue.run es).1.items.map QueueItem.subject = ["a"] ∧
      .alive "c" ⟨x.host, x.port⟩ x.incarnation x.metadata ∈ (BroadcastQueue.run es).2 := by
  intro s es
  have hs : Reachable "a" s := .step _ (.step _ .init trivial) trivial
  have hes : es.filterMap QueueEvent.pushed = s.queue := by simp [es, QueueEvent.pushed, Function.comp_def]
  have hsub : (BroadcastQueue.run es).1.items.map QueueItem.subject = ["a"] := rfl
  obtain ⟨x, hx, hal⟩ : ∃ x, s.record "c" = some x ∧ x.status = .alive := ⟨_, rfl, rfl⟩
  refine ⟨x, hx, hal, hsub, (alive_records_queued hs hes hx hal).2.2.resolve_left ?_⟩
  rintro ⟨t, ht⟩
  simpa [hsub] using List.mem_map_of_mem QueueItem.subject ht

/-- **Gossip spreads every node held ALIVE.** Let node `a` be in any reachable state, with its
queue run as in `alive_records_queued`. Let another node, from any state, run calls that include
the handling of every message the fetches returned and every message still in the queue, in any
order, with any draws, and with any other calls in between. Then it ends with a record for every
node that `a` holds ALIVE. -/
theorem gossip_spreads_alive {LA LB : String} {a b b' : NodeManager} (ha : Reachable LA a)
    {es : List QueueEvent} (hes : es.filterMap QueueEvent.pushed = a.queue) {cs : List Call}
    (hr : Run LB b cs b')
    (hcs : ∀ m ∈ (BroadcastQueue.run es).2 ++ (BroadcastQueue.run es).1.items.map QueueItem.payload,
      ∃ i, m.call i ∈ cs)
    {n : String} {x : Node} (hx : a.record n = some x) (hal : x.status = .alive) : b'.record n ≠ none := by
  have hq := BroadcastQueue.run_holds es
  rw [hes] at hq
  obtain ⟨i, hi⟩ := hcs (.alive n ⟨x.host, x.port⟩ x.incarnation x.metadata) <| by
    rcases hq.kept n _ (ha.fresh n x hx hal) with ⟨t, ht⟩ | hm
    · exact List.mem_append_right _ (List.mem_map_of_mem QueueItem.payload ht)
    · exact List.mem_append_left _ hm
  exact hr.record_of_alive hi

/-- Node `b`, started, handles what node `a`'s queue hands out after `a` has discovered `c` and a
fetch has returned and evicted `c`'s item: `b` learns `c`. -/
theorem gossip_teaches_discovery :
    let a : NodeManager := ((Call.alive "c" 1 "h3" 3 (fun _ => none) 0).run "a"
      ((Call.setLocalNode "h1" 1 (fun _ => none) 0).run "a" .init).state).state
    let b : NodeManager := ((Call.setLocalNode "h2" 2 (fun _ => none) 0).run "b" .init).state
    let es : List QueueEvent := a.queue.map (fun p => .push p.1 p.2) ++ [.fetch 0 ["c"]]
    let cs : List Call := ((BroadcastQueue.run es).2 ++
      (BroadcastQueue.run es).1.items.map QueueItem.payload).map (Message.call · 0)
    Reachable "a" a ∧ a.record "c" ≠ none ∧ (cs.foldl (fun s c => (c.run "b" s).state) b).record "c" ≠ none := by
  intro a b es cs
  have ha : Reachable "a" a := .step _ (.step _ .init trivial) trivial
  have hes : es.filterMap QueueEvent.pushed = a.queue := by simp [es, QueueEvent.pushed, Function.comp_def]
  obtain ⟨x, hx, hal⟩ : ∃ x, a.record "c" = some x ∧ x.status = .alive := ⟨_, rfl, rfl⟩
  exact ⟨ha, by simp [hx], gossip_spreads_alive ha hes (Run.of_messages "b" _ 0 b)
    (fun _ hm => ⟨0, List.mem_map_of_mem _ hm⟩) hx hal⟩

end Tattle
