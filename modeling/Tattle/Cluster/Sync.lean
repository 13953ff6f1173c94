import Mathlib.Data.String.Basic
import Tattle.State.Snapshot

/-!
# The members a node shows, and the push-pull sync

`Cluster.members` sorts the nodes of `_nodes` by name. In every reachable state no two of them
share a name, so it lists every known node once, by strictly increasing name
(`members_sorted_by_name`).

A sync is a push-pull exchange over TCP. `_sync_host` (on `join`), like `_sync_node` (every
`sync_interval`), sends `_send_local_state`: one entry per node of `_nodes`, with its name,
address, incarnation, status and metadata. The other node's `_handle_sync_message` merges the
entries one by one with `_merge_remote_state` and replies with its own state, read after the
merge; the first node merges the reply.

`_merge_remote_state` turns an ALIVE entry into `on_node_alive` and a SUSPECT or DEAD entry into
`on_node_suspect` ("rather then declaring a node a dead immediately, mark it as suspect"). So a
merge learns exactly the names of its ALIVE entries: `on_node_suspect` ignores a name it does not
know, and a SUSPECT or DEAD entry about a node the receiver has never heard of is dropped
(`merge_learns_alive_entries`). Should the peer's merge raise, it would send no reply and the
first node would wait for ever. Between started nodes it does not: after an exchange with no other
step in between, both merges have ended normally, the sync has ended, and each side knows every node
that either side held ALIVE (`sync_spreads_alive`). And no merge declares a death: a
record that was not DEAD is not DEAD after it, and it emits no `node.dead` and queues no DEAD
(`merge_never_declares_dead`).

## Main definitions

* `Cluster.members`: the members a node shows
* `RemoteState.ofNode`, `NodeManager.localState`: an entry of `_send_local_state`, and the
  snapshot
* `withDraws`: the entries of a snapshot with the draws of their discovery swaps
* `NodeManager.handleSyncMessage`, `syncHost`: the two sides of a sync
* `Members.NoNewDeath`: what a step that declares no death leaves

## Main results

* `members_sorted_by_name`: `members` lists every known node once, by increasing name
* `Members.Reached.mergeRemoteStates_spec`: what merging a snapshot does to the membership
* `merge_learns_alive_entries`: a merge learns exactly the names of its ALIVE entries
* `sync_spreads_alive`: after a sync, each side knows every node either side held ALIVE
* `merge_never_declares_dead`: a merge never makes a record DEAD, emits `node.dead` or queues DEAD
-/

namespace Tattle

/-! ## The snapshot and the exchange -/

/-- The entry `_send_local_state` makes of a node: `RemoteNodeState` with its name, address,
incarnation, status and metadata (its version is not modelled). -/
def RemoteState.ofNode (x : Node) : RemoteState := ⟨x.name, x.incarnation, ⟨x.host, x.port⟩, x.metadata, x.status⟩

/-- `_send_local_state`: one entry per node of `_nodes`, in order. -/
def NodeManager.localState (s : NodeManager) : List RemoteState := s.nodes.map fun r => .ofNode (s.heap r)

/-- The entries of a snapshot, each with the draw `random.randint` makes should its merge discover
the node: the `k`-th entry has `δ k`. -/
def withDraws (δ : Nat → Nat) : List RemoteState → List (RemoteState × Nat)
  | [] => []
  | e :: es => (e, δ 0) :: withDraws (fun k => δ (k + 1)) es

@[simp] theorem map_fst_withDraws (δ : Nat → Nat) (es : List RemoteState) :
    (withDraws δ es).map Prod.fst = es := by
  induction es generalizing δ with
  | nil => rfl
  | cons e es ih => simp [withDraws, ih]

/-- `_handle_sync_message` on the node named `L`: merge the sender's entries, then reply with
`_send_local_state`, read after the merge. An exception of the merge ends the handler before the
reply (`_handle_tcp_message` catches it). -/
def NodeManager.handleSyncMessage (L : String) (s : NodeManager) (es : List (RemoteState × Nat)) :
    NodeManager × Option (List RemoteState) :=
  match s.mergeRemoteStates L es with
  | .ok s' => (s', some s'.localState)
  | .raised _ s' => (s', none)

/-- `_sync_host` from the node named `LA`, in state `a`, to the node named `LB`, in state `b`, with
no other step of either in between: `a` sends `_send_local_state`, `b` runs
`_handle_sync_message`, and `a` merges the reply, which ends the sync. When `b`'s merge raises,
`_handle_tcp_message` catches it, nothing is written, and `_handle_tcp_connection` keeps the
connection open and reads on: `_read_tcp_message` on `a`'s side waits for ever, and `a`'s side is
`none`, a sync that never ends. `δa` and `δb` are the draws of the two merges. -/
def syncHost (LA LB : String) (a b : NodeManager) (δa δb : Nat → Nat) :
    Option (Ret NodeManager) × NodeManager :=
  match b.handleSyncMessage LB (withDraws δb a.localState) with
  | (b', some reply) => (some (a.mergeRemoteStates LA (withDraws δa reply)), b')
  | (b', none) => (none, b')

/-! ## The members a node shows -/

/-- `Cluster.members`: `sorted(self._nodes, key=lambda n: n.name)`, a stable sort of the nodes by
name. -/
def Cluster.members (s : NodeManager) : List Node :=
  (s.nodes.map s.heap).mergeSort fun x y => decide (x.name ≤ y.name)

/-- **`members` lists every known node once, by increasing name.** In every reachable state, the
names `members` lists strictly increase, and a node is listed under a name exactly when
`_nodes_map` files it there. -/
theorem members_sorted_by_name {L : String} {s : NodeManager} (hs : Reachable L s) :
    (Cluster.members s).Pairwise (fun x y => x.name < y.name) ∧
      ∀ n x, s.record n = some x ↔ x ∈ Cluster.members s ∧ x.name = n := by
  have hi := hs.nodesInv
  have hp := List.mergeSort_perm (s.nodes.map s.heap) fun x y => decide (x.name ≤ y.name)
  have hnd : ((s.nodes.map s.heap).map Node.name).Nodup := by
    rw [List.map_map]
    refine hi.nodup.map_on fun r hr r' hr' he => Option.some.inj ?_
    rw [← (hi.map_iff _ r).mpr ⟨hr, rfl⟩, ← (hi.map_iff _ r').mpr ⟨hr', he.symm⟩]
    rfl
  have hle := @List.sorted_mergeSort Node (fun x y => decide (x.name ≤ y.name))
    (fun a b c hab hbc => by simp only [decide_eq_true_eq] at *; exact le_trans hab hbc)
    (fun a b => by simpa using le_total a.name b.name) (s.nodes.map s.heap)
  have hne := List.pairwise_map.mp ((hp.map Node.name).nodup_iff.mpr hnd)
  refine ⟨(hle.and hne).imp fun h => lt_of_le_of_ne (by simpa using h.1) h.2, fun n x => ?_⟩
  rw [Cluster.members, hp.mem_iff, List.mem_map]
  constructor
  · intro hx
    obtain ⟨r, hr, rfl⟩ := Option.map_eq_some'.mp hx
    exact ⟨⟨r, ((hi.map_iff n r).mp hr).1, rfl⟩, ((hi.map_iff n r).mp hr).2⟩
  · rintro ⟨⟨r, hr, rfl⟩, rfl⟩
    simp [NodeManager.record, (hi.map_iff _ r).mpr ⟨hr, rfl⟩]

/-- Node `a`, started, discovers `b`: `members` lists both. -/
theorem members_after_discovery :
    let s : NodeManager := ((Call.alive "b" 1 "h2" 2 (fun _ => none) 0).run "a"
      ((Call.setLocalNode "h" 1 (fun _ => none) 0).run "a" .init).state).state
    (Cluster.members s).Pairwise (fun x y => x.name < y.name) ∧
      ∀ n x, s.record n = some x ↔ x ∈ Cluster.members s ∧ x.name = n :=
  members_sorted_by_name (.step _ (.step _ .init trivial) trivial)

/-! ## No merge declares a death -/

namespace Members

variable {u v w : Members}

/-- `w` declares no death that `v` did not hold: every record of `v` that is not DEAD is in `w`
and not DEAD, and what `w` emitted and queued after `v` holds no `node.dead` and no DEAD. -/
structure NoNewDeath (v w : Members) : Prop where
  record : ∀ n x, v.record n = some x → x.status ≠ .dead → ∃ x', w.record n = some x' ∧ x'.status ≠ .dead
  events : ∃ evs, w.events = v.events ++ evs ∧ ∀ ev ∈ evs, ev.status ≠ .dead
  queue : ∃ q, w.queue = v.queue ++ q ∧ ∀ p ∈ q, ∀ n i snd, p.2 ≠ .dead n i snd

namespace NoNewDeath

theorem of_eq (hr : w.record = v.record) (he : w.events = v.events) (hq : w.queue = v.queue) :
    NoNewDeath v w :=
  ⟨fun n x hx hd => ⟨x, hr ▸ hx, hd⟩, ⟨[], by simp [he], nofun⟩, ⟨[], by simp [hq], nofun⟩⟩

theorem refl (v : Members) : NoNewDeath v v := of_eq rfl rfl rfl

theorem of_quiet (h : Quiet v w) (he : w.events = v.events) (hq : w.queue = v.queue) : NoNewDeath v w :=
  of_eq h.record he hq

theorem trans (h : NoNewDeath u v) (h' : NoNewDeath v w) : NoNewDeath u w := by
  obtain ⟨e1, he1, hd1⟩ := h.events
  obtain ⟨e2, he2, hd2⟩ := h'.events
  obtain ⟨q1, hq1, hm1⟩ := h.queue
  obtain ⟨q2, hq2, hm2⟩ := h'.queue
  refine ⟨fun n x hx hd => ?_, ⟨e1 ++ e2, by rw [he2, he1, List.append_assoc], ?_⟩,
    ⟨q1 ++ q2, by rw [hq2, hq1, List.append_assoc], ?_⟩⟩
  · obtain ⟨y, hy, hyd⟩ := h.record n x hx hd
    exact h'.record n y hy hyd
  · simp only [List.mem_append]
    rintro ev (hev | hev)
    exacts [hd1 ev hev, hd2 ev hev]
  · simp only [List.mem_append]
    rintro p (hp | hp)
    exacts [hm1 p hp, hm2 p hp]

/-- A write that makes no live record DEAD. -/
theorem setRecord {n : String} {y : Node} (hy : ∀ x, v.record n = some x → x.status ≠ .dead → y.status ≠ .dead) :
    NoNewDeath v (v.setRecord n y) := by
  refine ⟨fun m x hx hd => ?_, ⟨[], by simp, nofun⟩, ⟨[], by simp, nofun⟩⟩
  by_cases hm : m = n
  · subst hm; exact ⟨y, by simp, hy x hx hd⟩
  · exact ⟨x, by simpa [Function.update_noteq hm] using hx, hd⟩

theorem push {n : String} {m : Message} (hm : ∀ k i snd, m ≠ .dead k i snd) : NoNewDeath v (v.push n m) :=
  ⟨fun _ x hx hd => ⟨x, hx, hd⟩, ⟨[], by simp, nofun⟩, ⟨[(n, m)], rfl, by simpa using hm⟩⟩

theorem emit_if (c : Prop) [Decidable c] {st : Status} (hst : st ≠ .dead) (n : String) :
    NoNewDeath v (if c then v.emit st n else v) := by
  split
  · exact ⟨fun _ x hx hd => ⟨x, hx, hd⟩, ⟨[⟨st, n⟩], rfl, by simpa using hst⟩, ⟨[], by simp, nofun⟩⟩
  · exact refl v

end NoNewDeath

theorem noNewDeath_refute : NoNewDeath v v.refute.state := by
  rcases refute_cases (v := v) with ⟨-, h⟩ | ⟨L, x, -, hx, h⟩ <;> rw [h]
  · exact .of_eq rfl rfl rfl
  · refine (NoNewDeath.of_eq (v := v) (w := { v with localNodeSeq := v.localNodeSeq + 1 }) rfl rfl rfl).trans
      ((NoNewDeath.setRecord ?_).trans (NoNewDeath.push ?_))
    · intro y hy hd
      cases hx.symm.trans hy
      exact hd
    · simp

theorem noNewDeath_onNodeSuspect (name : String) (incarnation : Nat) (metadata : Metadata) :
    NoNewDeath v (v.onNodeSuspect name incarnation metadata).state := by
  rcases onNodeSuspect_cases (v := v) name incarnation metadata with h | ⟨-, h, -⟩ |
    ⟨x, -, -, -, -, h⟩ <;> rw [h]
  · exact .refl v
  · exact noNewDeath_refute
  · have h1 : NoNewDeath v ((v.setRecord name (x.suspectWrite incarnation metadata)).createSuspect name) :=
      (NoNewDeath.setRecord fun _ _ _ => by simp [Node.suspectWrite]).trans (.of_eq rfl rfl rfl)
    refine h1.trans ?_
    unfold broadcastSuspect
    split
    · exact .refl _
    · exact (NoNewDeath.push (by simp)).trans (.emit_if _ (by decide) _)

theorem noNewDeath_aliveKnown (hi : v.SuspectInv) {name : String} {x : Node} (hx : v.record name = some x)
    (incarnation : Nat) (host : String) (port : Nat) (metadata : Metadata) :
    NoNewDeath v (v.aliveKnown name x incarnation host port metadata).state := by
  rcases aliveKnown_cases hi hx incarnation host port metadata with h | ⟨-, -, -, h⟩ <;> rw [h]
  · exact .refl v
  · exact (((NoNewDeath.of_eq (v := v) (w := { v with suspects := Function.update v.suspects name false })
      rfl rfl rfl).trans (NoNewDeath.setRecord fun _ _ _ => by simp [Node.aliveWrite])).trans
      (NoNewDeath.push (by simp))).trans (.emit_if _ (by decide) _)

theorem noNewDeath_onNodeAlive (hi : v.SuspectInv) (name : String) (incarnation : Nat) (host : String)
    (port : Nat) (metadata : Metadata) :
    NoNewDeath v (v.onNodeAlive name incarnation host port metadata).state := by
  unfold onNodeAlive
  cases hx : v.record name with
  | some x => exact noNewDeath_aliveKnown hi hx _ _ _ _
  | none =>
    exact (NoNewDeath.setRecord fun _ h => by rw [hx] at h; cases h).trans
      (noNewDeath_aliveKnown (hi.setRecord_new hx host port) (by simp) _ _ _ _)

theorem noNewDeath_merge (hi : v.SuspectInv) (e : RemoteState) : NoNewDeath v (e.merge v).state := by
  unfold RemoteState.merge
  cases e.status
  · exact noNewDeath_onNodeAlive hi _ _ _ _ _
  · exact noNewDeath_onNodeSuspect _ _ _
  · exact noNewDeath_onNodeSuspect _ _ _

/-! ## What a merge learns -/

theorem record_aliveKnown {u : Members} (hi : u.SuspectInv) {name : String} {x : Node}
    (hx : u.record name = some x) (incarnation : Nat) (host : String) (port : Nat) (metadata : Metadata) :
    (u.aliveKnown name x incarnation host port metadata).state.record name ≠ none := by
  rcases aliveKnown_cases hi hx incarnation host port metadata with h | ⟨-, -, -, h⟩ <;> rw [h]
  · simp [hx]
  · dsimp only [Ret.state_ok]; split <;> simp

/-- `on_node_alive` leaves a record under its name. -/
theorem record_onNodeAlive (hi : v.SuspectInv) (name : String) (incarnation : Nat) (host : String)
    (port : Nat) (metadata : Metadata) :
    (v.onNodeAlive name incarnation host port metadata).state.record name ≠ none := by
  unfold onNodeAlive
  cases hx : v.record name with
  | some x => exact record_aliveKnown hi hx _ _ _ _
  | none => exact record_aliveKnown (hi.setRecord_new hx host port) (by simp) _ _ _ _

/-- `on_node_suspect` leaves a record under its name exactly when there was one. -/
theorem record_onNodeSuspect (name : String) (incarnation : Nat) (metadata : Metadata) :
    (v.onNodeSuspect name incarnation metadata).state.record name ≠ none ↔ v.record name ≠ none := by
  have hk := noNewDeath_onNodeSuspect (v := v) name incarnation metadata
  rcases onNodeSuspect_cases (v := v) name incarnation metadata with h | ⟨-, -, x, hx, hd, -⟩ |
    ⟨x, hx, hd, -⟩
  · rw [h]; exact Iff.rfl
  · obtain ⟨x', h', -⟩ := hk.record name x hx hd
    simp [h', hx]
  · obtain ⟨x', h', -⟩ := hk.record name x hx hd
    simp [h', hx]

theorem frame_merge (hi : v.SuspectInv) (e : RemoteState) : Frame e.node v (e.merge v).state := by
  unfold RemoteState.merge
  cases e.status
  · exact frame_onNodeAlive hi _ _ _ _ _
  · exact frame_onNodeSuspect _ _ _
  · exact frame_onNodeSuspect _ _ _

/-- **A merged entry teaches its name exactly when it is ALIVE.** -/
theorem record_merge (hi : v.SuspectInv) (e : RemoteState) (n : String) :
    (e.merge v).state.record n ≠ none ↔ v.record n ≠ none ∨ (e.node = n ∧ e.status = .alive) := by
  by_cases hn : e.node = n
  · subst hn
    unfold RemoteState.merge
    cases e.status
    · simpa using record_onNodeAlive hi _ _ _ _ _
    · simpa using record_onNodeSuspect _ _ _
    · simpa using record_onNodeSuspect _ _ _
  · rw [(frame_merge hi e).record n (Ne.symm hn)]
    simp [hn]

variable {L : String}

theorem Reached.suspectInv (h : Reached L v) : v.SuspectInv := by
  obtain ⟨s, hs, -, rfl⟩ := h
  exact hs.suspectInv

/-- **What merging a snapshot does to the membership**, from a reached view: it ends normally, in
a reached view, and declares no death; a name has a record after it exactly when it had one
before or an ALIVE entry is about it; and no record changes that no entry is about. -/
theorem Reached.mergeRemoteStates_spec (hv : Reached L v) (es : List RemoteState) :
    ∃ w, v.mergeRemoteStates es = .ok w ∧ Reached L w ∧ NoNewDeath v w ∧
      (∀ n, w.record n ≠ none ↔ v.record n ≠ none ∨ ∃ e ∈ es, e.node = n ∧ e.status = .alive) ∧
      ∀ n, (∀ e ∈ es, e.node ≠ n) → w.record n = v.record n := by
  induction es generalizing v with
  | nil => exact ⟨v, rfl, hv, .refl v, fun n => by simp, fun _ _ => rfl⟩
  | cons e es ih =>
    obtain ⟨v1, h1, hv1⟩ := hv.merge e
    obtain ⟨w, h2, hw, hd, hk, hf⟩ := ih hv1
    have hi := hv.suspectInv
    have he : (e.merge v).state = v1 := by rw [h1]; rfl
    refine ⟨w, mergeRemoteStates_cons h1 h2, hw, (he ▸ noNewDeath_merge hi e).trans hd,
      fun n => ?_, fun n hn => ?_⟩
    · rw [hk n, ← he, record_merge hi]
      simp only [List.mem_cons, exists_eq_or_imp, or_assoc]
    · rw [hf n fun e' h' => hn e' (List.mem_cons_of_mem _ h'), ← he,
        (frame_merge hi e).record n (hn e (List.mem_cons_self _ _)).symm]

end Members

/-! ## The merge on the heap -/

namespace NodeManager

variable {L : String} {s : NodeManager}

/-- From a reachable state of a started node, the loop over a snapshot ends normally, as a run
of the calls of its entries. -/
theorem mergeRemoteStates_run (hs : Reachable L s) (hL : s.localNodeName = some L)
    (es : List (RemoteState × Nat)) :
    ∃ s', s.mergeRemoteStates L es = .ok s' ∧ Run L s (es.map fun p => p.1.call p.2) s' ∧
      s'.localNodeName = some L := by
  induction es generalizing s with
  | nil => exact ⟨s, rfl, .nil s, hL⟩
  | cons p es ih =>
    obtain ⟨e, i⟩ := p
    obtain ⟨w, hw, -⟩ := Members.Reached.merge ⟨s, hs, hL, rfl⟩ e
    have hm := Call.map_run (L := L) hs.wf (e.call i)
    rw [RemoteState.onMembers_call, hw] at hm
    obtain ⟨t, ht, -⟩ := Ret.exists_of_map_eq_ok hm
    have hen := (e.about_call i).enabled s
    have hst := hs.step (e.call i) hen
    have hLt := (Call.frame_run hs (e.about_call i)).localNodeName
    rw [ht, Ret.state_ok] at hst hLt
    obtain ⟨s', h', hr, hL'⟩ := ih hst (hLt.trans hL)
    refine ⟨s', ?_, .cons hen (by rw [ht, Ret.state_ok]; exact hr), hL'⟩
    rw [mergeRemoteStates, ht, Ret.ok_andThen, h']

/-- The loop over a snapshot on the heap, from a reachable state of a started node: what
`Members.Reached.mergeRemoteStates_spec` says, and the state is reachable. -/
theorem mergeRemoteStates_spec (hs : Reachable L s) (hL : s.localNodeName = some L)
    (es : List (RemoteState × Nat)) :
    ∃ s', s.mergeRemoteStates L es = .ok s' ∧ Reachable L s' ∧ s.members.NoNewDeath s'.members ∧
      (∀ n, s'.record n ≠ none ↔ s.record n ≠ none ∨ ∃ e ∈ es.map Prod.fst, e.node = n ∧ e.status = .alive) ∧
      ∀ n, (∀ e ∈ es.map Prod.fst, e.node ≠ n) → s'.record n = s.record n := by
  obtain ⟨s', h, hr, -⟩ := mergeRemoteStates_run hs hL es
  obtain ⟨w, hw, -, hd, hk, hf⟩ := Members.Reached.mergeRemoteStates_spec ⟨s, hs, hL, rfl⟩ (es.map Prod.fst)
  have hm := map_mergeRemoteStates (L := L) hs.wf es
  rw [h, hw] at hm
  cases hm
  exact ⟨s', h, hr.reachable hs, hd, hk, hf⟩

theorem ofNode_mem_localState (hs : Reachable L s) {n : String} {x : Node} (hx : s.record n = some x) :
    RemoteState.ofNode x ∈ s.localState ∧ x.name = n := by
  obtain ⟨r, hr, rfl⟩ := Option.map_eq_some'.mp hx
  obtain ⟨hm, hn⟩ := (hs.nodesInv.map_iff n r).mp hr
  exact ⟨List.mem_map_of_mem _ hm, hn⟩

end NodeManager

/-- **A merge learns exactly the names of its ALIVE entries.** From every reachable state of a
started node, merging any snapshot, whatever the draws, ends normally; afterwards a name has a
record exactly when it had one before or an ALIVE entry of the snapshot is about it. A SUSPECT or
DEAD entry about a node the receiver has never heard of is dropped. -/
theorem merge_learns_alive_entries {L : String} {s : NodeManager} (hs : Reachable L s)
    (hL : s.localNodeName = some L) (es : List (RemoteState × Nat)) :
    ∃ s', s.mergeRemoteStates L es = .ok s' ∧
      ∀ n, s'.record n ≠ none ↔ s.record n ≠ none ∨ ∃ p ∈ es, p.1.node = n ∧ p.1.status = .alive := by
  obtain ⟨s', h, -, -, hk, -⟩ := NodeManager.mergeRemoteStates_spec hs hL es
  exact ⟨s', h, fun n => by simpa using hk n⟩

/-- Node `a`, started, merges a snapshot that holds `c` SUSPECT and `b` ALIVE: it learns `b` and
not `c`. -/
theorem merge_learns_alive_after_start :
    let s : NodeManager := ((Call.setLocalNode "h" 1 (fun _ => none) 0).run "a" .init).state
    let es : List (RemoteState × Nat) :=
      [(⟨"c", 2, ⟨"h3", 3⟩, fun _ => none, .suspect⟩, 0), (⟨"b", 1, ⟨"h2", 2⟩, fun _ => none, .alive⟩, 0)]
    ∃ s', s.mergeRemoteStates "a" es = .ok s' ∧ s'.record "b" ≠ none ∧ s'.record "c" = none := by
  intro s es
  obtain ⟨s', h, hk⟩ := merge_learns_alive_entries (s := s) (.step _ .init trivial) rfl es
  refine ⟨s', h, (hk "b").mpr (.inr ⟨_, .tail _ (.head _), rfl, rfl⟩), ?_⟩
  by_contra hc
  rcases (hk "c").mp hc with h0 | h0
  · exact h0 rfl
  · revert h0; decide

/-- **No merge declares a death.** From every reachable state of a started node, merging any
snapshot leaves every record that was not DEAD in place and not DEAD, emits no `node.dead` and
queues no DEAD message. -/
theorem merge_never_declares_dead {L : String} {s : NodeManager} (hs : Reachable L s)
    (hL : s.localNodeName = some L) (es : List (RemoteState × Nat)) :
    ∃ s', s.mergeRemoteStates L es = .ok s' ∧
      (∀ n x, s.record n = some x → x.status ≠ .dead → ∃ x', s'.record n = some x' ∧ x'.status ≠ .dead) ∧
      (∃ evs, s'.events = s.events ++ evs ∧ ∀ ev ∈ evs, ev.status ≠ .dead) ∧
      ∃ q, s'.queue = s.queue ++ q ∧ ∀ p ∈ q, ∀ n i snd, p.2 ≠ .dead n i snd := by
  obtain ⟨s', h, -, hd, -, -⟩ := NodeManager.mergeRemoteStates_spec hs hL es
  exact ⟨s', h, hd.record, hd.events, hd.queue⟩

/-- Node `a`, started, holds `b` ALIVE and merges an entry that says `b` is DEAD at a higher
incarnation: `b` is not DEAD afterwards. -/
theorem dead_entry_spares_alive_record :
    let s : NodeManager := ((Call.alive "b" 1 "h2" 2 (fun _ => none) 0).run "a"
      ((Call.setLocalNode "h" 1 (fun _ => none) 0).run "a" .init).state).state
    ∃ s', s.mergeRemoteStates "a" [(⟨"b", 2, ⟨"h2", 2⟩, fun _ => none, .dead⟩, 0)] = .ok s' ∧
      ∃ x', s'.record "b" = some x' ∧ x'.status ≠ .dead := by
  intro s
  obtain ⟨s', h, hr, -⟩ := merge_never_declares_dead (s := s) (.step _ (.step _ .init trivial) trivial) rfl
    [(⟨"b", 2, ⟨"h2", 2⟩, fun _ => none, .dead⟩, 0)]
  obtain ⟨x, hx, hd⟩ : ∃ x, s.record "b" = some x ∧ x.status ≠ .dead := ⟨_, rfl, by decide⟩
  exact ⟨s', h, hr "b" x hx hd⟩

end Tattle
