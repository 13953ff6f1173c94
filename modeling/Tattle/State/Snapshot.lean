import Tattle.State.Reorder

/-!
# The order of gossip and of sync snapshots

Two calls of `on_node_alive`, `on_node_suspect` or `on_node_dead` about different names commute
on every reachable state: in either order they leave the same records, the same names in the
suspect table and the same outputs up to order. Gossip is handled message by message, an
exception ending only its own message, so every reordering of gossip about distinct names
leaves the same membership.

A sync snapshot is merged by `_merge_remote_state`, entry after entry, in a loop that the first
exception ends. Once `set_local_node` has run no merge raises, and the entries of a snapshot
about distinct names merge to the same membership in every order, whatever `random.randint`
draws on discovery. A snapshot merged before `set_local_node`, which only `join` or `sync` called
before `start` makes, can meet the `AttributeError` of `_broadcast_suspect`
(`broadcast_raises_before_start`), and that ends the loop.

## Main definitions

* `NodeManager.LocalKnown`: once the local name is set, `_nodes_map` holds it
* `RemoteState`, `RemoteState.merge`: an entry of a snapshot, and `_merge_remote_state` on names
* `NodeManager.mergeRemoteStates`, `Members.mergeRemoteStates`: the loop over a snapshot
* `Members.Reached`: the views of the reachable states of a started node

## Main results

* `Reachable.localName`: the local record carries the local name
* `Call.commute`: two calls about different names commute
* `Run.agree_of_perm`: so do runs of gossip about distinct names, in every order
* `map_mergeRemoteStates`: the loop on the heap refines the loop on names
* `Members.mergeRemoteStates_perm`: after start, the order of a snapshot does not matter
-/

namespace Tattle

/-! ## The local record after start -/

namespace NodeManager

variable {s : NodeManager}

/-- `on_node_alive` leaves its name filed in `_nodes_map`. -/
theorem nodesMap_onNodeAlive (name : String) (incarnation : Nat) (host : String) (port : Nat)
    (metadata : Metadata) (i : Nat) :
    (s.onNodeAlive name incarnation host port metadata i).state.nodesMap name ≠ none := by
  unfold onNodeAlive
  split
  · rename_i r hr
    rw [(sameTable_aliveKnown r incarnation host port metadata).nodesMap, hr]
    exact Option.some_ne_none r
  · rw [(sameTable_aliveKnown _ incarnation host port metadata).nodesMap]
    simp [addNode]

/-- Once the local name is set, `_nodes_map` holds the local node. -/
def LocalKnown (L : String) (s : NodeManager) : Prop := s.localNodeName = some L → s.nodesMap L ≠ none

end NodeManager

namespace Call

variable {L : String} {s : NodeManager} {v : Members} {n : String} {c : Call}

open Members in
/-- Only `set_local_node` sets the local name. -/
theorem localNodeName_onMembers (hi : v.SuspectInv) (c : Call) :
    (c.onMembers L s v).state.localNodeName = v.localNodeName ∨
      ∃ host port md i, c = .setLocalNode host port md i := by
  cases c with
  | alive => exact .inl (frame_onNodeAlive hi _ _ _ _ _).localNodeName
  | suspect => exact .inl (frame_onNodeSuspect _ _ _).localNodeName
  | dead => exact .inl (frame_onNodeDead hi _ _).localNodeName
  | setLocalNode host port md i => exact .inr ⟨host, port, md, i, rfl⟩
  | leaveLocalNode =>
    refine .inl ?_
    show v.leaveLocalNode.state.localNodeName = _
    rcases leaveLocalNode_cases (v := v) with ⟨-, h'⟩ | ⟨L', -, ⟨-, h'⟩ | ⟨x, -, h'⟩⟩ <;> rw [h']
    · rfl
    · rfl
    · exact (frame_onNodeDead (v := { v with leaving := true }) (hi.congr rfl rfl) _ _).localNodeName
  | fire => exact .inl rfl
  | task => exact .inl (frame_onNodeDead hi _ _).localNodeName

theorem localKnown_run (hs : Reachable L s) (h : s.LocalKnown L) (c : Call) :
    (c.run L s).state.LocalKnown L := by
  intro hL
  rcases localNodeName_onMembers (L := L) (s := s) hs.suspectInv c with he | ⟨host, port, md, i, rfl⟩
  · rw [← members_run hs.wf] at he
    obtain ⟨r, hr⟩ := Option.ne_none_iff_exists'.mp (h (he.symm.trans hL))
    rw [nodesMap_run hr c]
    exact Option.some_ne_none r
  · exact NodeManager.nodesMap_onNodeAlive _ _ _ _ _ _

theorem About.enabled (hc : c.About n) (s : NodeManager) : c.Enabled s := by
  cases c <;> first | exact trivial | cases hc

end Call

theorem Reachable.localKnown {L : String} {s : NodeManager} (hs : Reachable L s) : s.LocalKnown L := by
  induction hs with
  | init => exact fun h => nomatch h
  | step c hr _ ih => exact Call.localKnown_run hr ih c

/-- **The local record carries the local name**, in every reachable state: before
`set_local_node` there is neither, and after it `_nodes_map` holds the node filed under the
local name, which carries that name. -/
theorem Reachable.localName {L : String} {s : NodeManager} (hs : Reachable L s) :
    s.members.localRecord.map Node.name = s.localNodeName := by
  rw [NodeManager.localRecord_members]
  unfold NodeManager.localNode
  obtain hL | hL : s.localNodeName = none ∨ s.localNodeName = some L := hs.localInv.name <;>
    rw [hL]
  · rfl
  · obtain ⟨r, hr⟩ := Option.ne_none_iff_exists'.mp (hs.localKnown hL)
    simp [hr, hs.wf.name_eq hr]

/-! ## Gossip about different names -/

namespace Call

variable {L : String} {s t : NodeManager} {n m : String} {c d : Call}

/-- A call about `n` keeps the name on the local record. -/
theorem localName_run (hs : Reachable L s) (hc : c.About n) :
    (c.onMembers L s s.members).state.localRecord.map Node.name = s.members.localRecord.map Node.name := by
  rw [← members_run hs.wf, (hs.step c (hc.enabled s)).localName, hs.localName]
  exact (frame_run hs hc).localNodeName

/-- A call about `n` made on two states with the same membership leaves the same membership. -/
theorem agree_run (hs : s.WF) (ht : t.WF) (h : Members.Agree s.members t.members) (hc : c.About n) :
    Members.Agree (c.run L s).state.members (c.run L t).state.members := by
  rw [members_run hs, members_run ht, onMembers_of_about hc t s]
  exact (twin_onMembers hc (h.sameView n)).state.agree h

/-- **Two calls about different names commute** on every reachable state, also before
`set_local_node`, where both may raise. -/
theorem commute (hs : Reachable L s) (hnm : n ≠ m) (hc : c.About n) (hd : d.About m) :
    Members.Agree (d.run L (c.run L s).state).state.members (c.run L (d.run L s).state).state.members := by
  have ha := hs.step c (hc.enabled s)
  have hb := hs.step d (hd.enabled s)
  rw [members_run ha.wf, members_run hb.wf, members_run hs.wf c, members_run hs.wf d,
    onMembers_of_about hc (d.run L s).state s, onMembers_of_about hd (c.run L s).state s]
  exact Members.agree_of_twins hnm (twin_onMembers hc) (twin_onMembers hd) (localName_run hs hc)
    (localName_run hs hd)

end Call

section Runs

variable {L : String}

/-- A call of a list of gossip calls is about some name. -/
theorem Call.about_of_mem {cs : List Call} (hg : none ∉ cs.map Call.subject) {c : Call}
    (hc : c ∈ cs) : ∃ n, c.About n :=
  Option.ne_none_iff_exists'.mp fun e => hg (e ▸ List.mem_map_of_mem _ hc)

theorem Run.cons_inv {c : Call} {cs : List Call} {s s' : NodeManager} (hr : Run L s (c :: cs) s') :
    c.Enabled s ∧ Run L (c.run L s).state cs s' := by
  cases hr with
  | cons he hr => exact ⟨he, hr⟩

/-- Calls that each handle a gossip message run from any state. -/
theorem Run.exists_of_about {cs : List Call} (hg : none ∉ cs.map Call.subject) (s : NodeManager) :
    ∃ s', Run L s cs s' := by
  induction cs generalizing s with
  | nil => exact ⟨s, .nil s⟩
  | cons c cs ih =>
    obtain ⟨n, hn⟩ := Call.about_of_mem hg (List.mem_cons_self c cs)
    obtain ⟨s', hr⟩ := ih (fun h => hg (List.mem_cons_of_mem _ h)) (c.run L s).state
    exact ⟨s', .cons (Call.About.enabled hn s) hr⟩

/-- The same gossip from two states with the same membership leaves the same membership. -/
theorem Run.agree {cs : List Call} (hg : none ∉ cs.map Call.subject) {s t s' t' : NodeManager}
    (hs : Reachable L s) (ht : Reachable L t) (h : Members.Agree s.members t.members)
    (hr : Run L s cs s') (hr' : Run L t cs t') : Members.Agree s'.members t'.members := by
  induction hr generalizing t with
  | nil => cases hr'; exact h
  | @cons s _ c cs he _ ih =>
    obtain ⟨he', hr'⟩ := hr'.cons_inv
    obtain ⟨n, hn⟩ := Call.about_of_mem hg (List.mem_cons_self c cs)
    exact ih (fun e => hg (List.mem_cons_of_mem _ e)) (hs.step c he) (ht.step c he')
      (Call.agree_run hs.wf ht.wf h hn) hr'

/-- **The order of gossip about distinct names does not matter.** Two runs of the same messages
about pairwise distinct names, in any two orders, from states with the same membership, leave
the same membership. -/
theorem Run.agree_of_perm {cs cs' : List Call} (hp : cs.Perm cs') (hnd : (cs.map Call.subject).Nodup)
    (hg : none ∉ cs.map Call.subject) {s t s' t' : NodeManager} (hs : Reachable L s)
    (ht : Reachable L t) (h : Members.Agree s.members t.members) (hr : Run L s cs s')
    (hr' : Run L t cs' t') : Members.Agree s'.members t'.members := by
  induction hp generalizing s t s' t' with
  | nil => cases hr; cases hr'; exact h
  | cons c _ ih =>
    obtain ⟨he, hr⟩ := hr.cons_inv
    obtain ⟨he', hr'⟩ := hr'.cons_inv
    obtain ⟨n, hn⟩ := Call.about_of_mem hg (List.mem_cons_self _ _)
    exact ih (List.nodup_cons.mp hnd).2 (fun e => hg (List.mem_cons_of_mem _ e)) (hs.step c he)
      (ht.step c he') (Call.agree_run hs.wf ht.wf h hn) hr hr'
  | swap x y l =>
    obtain ⟨hey, hr⟩ := hr.cons_inv
    obtain ⟨hex, hr⟩ := hr.cons_inv
    obtain ⟨hex', hr'⟩ := hr'.cons_inv
    obtain ⟨hey', hr'⟩ := hr'.cons_inv
    obtain ⟨m, hm⟩ := Call.about_of_mem hg (List.mem_cons_self _ _)
    obtain ⟨n, hn⟩ := Call.about_of_mem hg (List.mem_cons_of_mem _ (List.mem_cons_self _ _))
    have hmn : m ≠ n := fun e => (List.nodup_cons.mp hnd).1 (by
      rw [hm, e, ← hn]; exact List.mem_map_of_mem _ (List.mem_cons_self _ _))
    have h1 := Call.commute (L := L) hs hmn hm hn
    have h2 := Call.agree_run (L := L) (hs.step x (Call.About.enabled hn s)).wf (ht.step x hex').wf
      (Call.agree_run hs.wf ht.wf h hn) hm
    exact Run.agree (fun e => hg (List.mem_cons_of_mem _ (List.mem_cons_of_mem _ e)))
      ((hs.step y hey).step x hex) ((ht.step x hex').step y hey') (h1.trans h2) hr hr'
  | trans h12 _ ih1 ih2 =>
    obtain ⟨u, hu⟩ := Run.exists_of_about (L := L) (fun e => hg ((h12.map _).mem_iff.mpr e)) s
    exact (ih1 hnd hg hs hs (.refl _) hr hu).trans
      (ih2 ((h12.map _).nodup_iff.mp hnd) (fun e => hg ((h12.map _).mem_iff.mpr e)) hs ht h hu hr')

end Runs

/-! ## Sync snapshots -/

/-- An entry of a sync snapshot, with the fields `_merge_remote_state` reads. -/
structure RemoteState where
  node : String
  incarnation : Nat
  addr : Addr
  metadata : Metadata
  status : Status

namespace RemoteState

/-- `_merge_remote_state(remote_state)` as the call it makes, with `i` the draw of the discovery
swap should an ALIVE discover the node. A DEAD entry is merged as SUSPECT. -/
def call (e : RemoteState) (i : Nat) : Call :=
  match e.status with
  | .alive => .alive e.node e.incarnation e.addr.address e.addr.port e.metadata i
  | .suspect => .suspect e.node e.incarnation e.metadata
  | .dead => .suspect e.node e.incarnation e.metadata

/-- `_merge_remote_state` on names. -/
def merge (e : RemoteState) (v : Members) : Ret Members :=
  match e.status with
  | .alive => v.onNodeAlive e.node e.incarnation e.addr.address e.addr.port e.metadata
  | .suspect => v.onNodeSuspect e.node e.incarnation e.metadata
  | .dead => v.onNodeSuspect e.node e.incarnation e.metadata

variable (e : RemoteState)

theorem about_call (i : Nat) : (e.call i).About e.node := by
  unfold call; cases e.status <;> rfl

theorem onMembers_call (i : Nat) (L : String) (s : NodeManager) : (e.call i).onMembers L s = e.merge := by
  unfold call merge; cases e.status <;> rfl

theorem twin_merge {v w : Members} (h : Members.SameView e.node v w) :
    Members.Twin e.node v w (e.merge v) (e.merge w) := by
  unfold merge
  cases e.status
  · exact Members.twin_onNodeAlive h _ _ _ _
  · exact Members.twin_onNodeSuspect h _ _
  · exact Members.twin_onNodeSuspect h _ _

end RemoteState

/-- `for remote_state in nodes: await self._merge_remote_state(remote_state)`, each entry with
the draw its merge makes on discovery. The loop ends at the first exception. -/
def NodeManager.mergeRemoteStates (L : String) : NodeManager → List (RemoteState × Nat) → Ret NodeManager
  | s, [] => .ok s
  | s, (e, i) :: es => ((e.call i).run L s).andThen fun s => NodeManager.mergeRemoteStates L s es

/-- The loop over a snapshot, on names. -/
def Members.mergeRemoteStates : Members → List RemoteState → Ret Members
  | v, [] => .ok v
  | v, e :: es => (e.merge v).andThen fun v => Members.mergeRemoteStates v es

/-- **The loop on the heap refines the loop on names**, whatever the draws. -/
theorem map_mergeRemoteStates {L : String} {s : NodeManager} (h : s.WF) (es : List (RemoteState × Nat)) :
    (s.mergeRemoteStates L es).map NodeManager.members = s.members.mergeRemoteStates (es.map Prod.fst) := by
  induction es generalizing s with
  | nil => rfl
  | cons e es ih =>
    obtain ⟨e, i⟩ := e
    refine Ret.map_andThen NodeManager.members NodeManager.WF
      (by rw [Call.map_run h, RemoteState.onMembers_call]) (fun t ht => ?_) fun t ht => ih ht
    have := Call.wf_run (L := L) h (e.call i)
    rwa [ht] at this

/-! ## Merging after start -/

namespace Members

variable {v w : Members} {n : String}

theorem localRecord_setRecord (h : v.localNodeName ≠ some n) (x : Node) :
    (v.setRecord n x).localRecord = v.localRecord := by
  unfold localRecord setRecord
  cases hL : v.localNodeName with
  | none => rfl
  | some L => exact Function.update_noteq (fun e => h (hL.trans (congrArg some e))) _ _

theorem refute_ok (hl : v.localRecord ≠ none) : ∃ w, v.refute = .ok w := by
  rcases refute_cases (v := v) with ⟨h, -⟩ | ⟨_, _, -, -, h⟩
  · exact absurd h hl
  · exact ⟨_, h⟩

/-- `on_node_alive` never raises on a state whose suspect table matches its records. -/
theorem SuspectInv.onNodeAlive_ok (hi : v.SuspectInv) (name : String) (incarnation : Nat)
    (host : String) (port : Nat) (metadata : Metadata) :
    ∃ w, v.onNodeAlive name incarnation host port metadata = .ok w := by
  have known : ∀ {u : Members} {x : Node}, u.SuspectInv → u.record name = some x →
      ∃ w, u.aliveKnown name x incarnation host port metadata = .ok w := fun hu hx =>
    (aliveKnown_cases hu hx incarnation host port metadata).elim (fun h => ⟨_, h⟩) fun h => ⟨_, h.2.2.2⟩
  unfold Members.onNodeAlive
  cases hx : v.record name with
  | some x => exact known hi hx
  | none => exact known (hi.setRecord_new hx host port) (by simp [setRecord])

/-- `on_node_suspect` never raises while there is a local record. -/
theorem onNodeSuspect_ok (hl : v.localRecord ≠ none) (name : String) (incarnation : Nat)
    (metadata : Metadata) : ∃ w, v.onNodeSuspect name incarnation metadata = .ok w := by
  rcases onNodeSuspect_cases (v := v) name incarnation metadata with h | ⟨-, h, -⟩ | ⟨x, -, -, -, hn, h⟩
  · exact ⟨_, h⟩
  · rw [h]; exact refute_ok hl
  · obtain ⟨l, hl'⟩ := Option.ne_none_iff_exists'.mp hl
    rw [h]
    unfold broadcastSuspect
    rw [show (((v.setRecord name _).createSuspect name).localRecord) = v.localRecord from
      localRecord_setRecord hn _, hl']
    exact ⟨_, rfl⟩

theorem merge_ok (hi : v.SuspectInv) (hl : v.localRecord ≠ none) (e : RemoteState) :
    ∃ w, e.merge v = .ok w := by
  unfold RemoteState.merge
  cases e.status
  · exact hi.onNodeAlive_ok _ _ _ _ _
  · exact onNodeSuspect_ok hl _ _ _
  · exact onNodeSuspect_ok hl _ _ _

/-- The views of the reachable states of a node named `L` that has run `set_local_node`. -/
def Reached (L : String) (v : Members) : Prop :=
  ∃ s : NodeManager, Reachable L s ∧ s.localNodeName = some L ∧ s.members = v

variable {L : String}

theorem Reached.localNodeName (h : Reached L v) : v.localNodeName = some L := by
  obtain ⟨s, -, hL, rfl⟩ := h; exact hL

theorem Reached.localName (h : Reached L v) : v.localRecord.map Node.name = v.localNodeName := by
  obtain ⟨s, hs, -, rfl⟩ := h; exact hs.localName

theorem Reached.localName_eq (hv : Reached L v) (hw : Reached L w) :
    w.localRecord.map Node.name = v.localRecord.map Node.name := by
  rw [hw.localName, hv.localName, hw.localNodeName, hv.localNodeName]

/-- A merge from a reached view ends normally, in a reached view. -/
theorem Reached.merge (h : Reached L v) (e : RemoteState) : ∃ w, e.merge v = .ok w ∧ Reached L w := by
  obtain ⟨s, hs, hL, rfl⟩ := h
  have hl : s.members.localRecord ≠ none := fun h0 => by
    have := hs.localName; rw [h0, hL] at this; cases this
  obtain ⟨w, hw⟩ := merge_ok hs.suspectInv hl e
  have hm := Call.map_run (L := L) hs.wf (e.call 0)
  rw [RemoteState.onMembers_call, hw] at hm
  obtain ⟨t, hr, rfl⟩ := Ret.exists_of_map_eq_ok hm
  have ht := hs.step (e.call 0) ((e.about_call 0).enabled s)
  have hf := Call.frame_run hs (e.about_call 0)
  rw [hr] at ht hf
  exact ⟨t.members, hw, t, ht, hf.localNodeName.trans hL, rfl⟩

/-- Merging an entry into two reached views with the same membership leaves the same membership. -/
theorem Reached.agree_merge (hv : Reached L v) (hw : Reached L w) (h : Agree v w) (e : RemoteState) :
    ∃ v' w', e.merge v = .ok v' ∧ e.merge w = .ok w' ∧ Reached L v' ∧ Reached L w' ∧ Agree v' w' := by
  obtain ⟨v', hv', hrv⟩ := hv.merge e
  obtain ⟨w', hw', hrw⟩ := hw.merge e
  have ht := e.twin_merge (h.sameView e.node)
  rw [hv', hw'] at ht
  exact ⟨v', w', hv', hw', hrv, hrw, SameWrites.agree h ht⟩

theorem mergeRemoteStates_cons {e : RemoteState} {es : List RemoteState} {v v1 v' : Members}
    (h1 : e.merge v = .ok v1) (h2 : v1.mergeRemoteStates es = .ok v') :
    v.mergeRemoteStates (e :: es) = .ok v' := by
  rw [mergeRemoteStates, h1, Ret.ok_andThen, h2]

/-- The same snapshot merged into two reached views with the same membership. -/
theorem Reached.agree_mergeRemoteStates (es : List RemoteState) :
    ∀ {v w}, Reached L v → Reached L w → Agree v w →
      ∃ v' w', v.mergeRemoteStates es = .ok v' ∧ w.mergeRemoteStates es = .ok w' ∧ Agree v' w' := by
  induction es with
  | nil => exact fun _ _ h => ⟨_, _, rfl, rfl, h⟩
  | cons e es ih =>
    intro v w hv hw h
    obtain ⟨v1, w1, h1, h2, hv1, hw1, h12⟩ := hv.agree_merge hw h e
    obtain ⟨v', w', h3, h4, h'⟩ := ih hv1 hw1 h12
    exact ⟨v', w', mergeRemoteStates_cons h1 h3, mergeRemoteStates_cons h2 h4, h'⟩

/-- **After start, the order of a snapshot does not matter.** The entries of a snapshot about
pairwise distinct names, merged in any two orders into two reached views with the same
membership, all merge, and leave the same membership. -/
theorem mergeRemoteStates_perm {es es' : List RemoteState} (hp : es.Perm es')
    (hnd : (es.map RemoteState.node).Nodup) {v w : Members} (hv : Reached L v) (hw : Reached L w)
    (h : Agree v w) :
    ∃ v' w', v.mergeRemoteStates es = .ok v' ∧ w.mergeRemoteStates es' = .ok w' ∧ Agree v' w' := by
  induction hp generalizing v w with
  | nil => exact ⟨_, _, rfl, rfl, h⟩
  | cons e _ ih =>
    obtain ⟨v1, w1, h1, h2, hv1, hw1, h12⟩ := hv.agree_merge hw h e
    obtain ⟨v', w', h3, h4, h'⟩ := ih (List.nodup_cons.mp hnd).2 hv1 hw1 h12
    exact ⟨v', w', mergeRemoteStates_cons h1 h3, mergeRemoteStates_cons h2 h4, h'⟩
  | swap x y l =>
    have hyx : y.node ≠ x.node := fun e => (List.nodup_cons.mp hnd).1 (by simp [e])
    obtain ⟨a, ha, hva⟩ := hv.merge y
    obtain ⟨ax, hax, hvax⟩ := hva.merge x
    obtain ⟨c, b, hc, hb, hvc, hvb, hcb⟩ := hv.agree_merge hw h x
    obtain ⟨cy, bw, hcy, hbw, -, hvbw, hcybw⟩ := hvc.agree_merge hvb hcb y
    have hcom := agree_of_twins hyx (fun h => y.twin_merge h) (fun h => x.twin_merge h)
      (by rw [ha]; exact hv.localName_eq hva) (by rw [hc]; exact hv.localName_eq hvc)
    rw [ha, hc] at hcom
    change Agree (x.merge a).state (y.merge c).state at hcom
    rw [hax, hcy] at hcom
    obtain ⟨v', w', h3, h4, h'⟩ := Reached.agree_mergeRemoteStates l hvax hvbw (hcom.trans hcybw)
    exact ⟨v', w', mergeRemoteStates_cons ha (mergeRemoteStates_cons hax h3),
      mergeRemoteStates_cons hb (mergeRemoteStates_cons hbw h4), h'⟩
  | trans h12 _ ih1 ih2 =>
    obtain ⟨v1, v2, e1, e2, a12⟩ := ih1 hnd hv hv (.refl v)
    obtain ⟨v2', w2, e2', e3, a23⟩ := ih2 ((h12.map _).nodup_iff.mp hnd) hv hw h
    rw [e2] at e2'
    cases e2'
    exact ⟨v1, w2, e1, e3, a12.trans a23⟩

end Members

/-! ## The order of messages and entries -/

/-- **Gossip about different names, and a snapshot after start, in any order.** From every
reachable state of a node named `L`, two ALIVE, SUSPECT or DEAD calls about different names,
handled in either order, leave the same membership: the same records, the same names in the
suspect table, the same local name, sequence and `_leaving`, and the same broadcasts and events
up to order. So do two runs of such calls about pairwise distinct names, in any two orders. Once
`set_local_node` has run, a sync snapshot whose entries name distinct nodes merges without
raising, to the same membership in every order of its entries and for every draw of the
discovery swaps. -/
theorem gossip_and_sync_commute {L : String} {s : NodeManager} (hs : Reachable L s) :
    (∀ {n m : String} {c d : Call}, n ≠ m → c.About n → d.About m →
      Members.Agree (d.run L (c.run L s).state).state.members
        (c.run L (d.run L s).state).state.members) ∧
    (∀ {cs cs' : List Call} {t t' : NodeManager}, cs.Perm cs' → (cs.map Call.subject).Nodup →
      none ∉ cs.map Call.subject → Run L s cs t → Run L s cs' t' → Members.Agree t.members t'.members) ∧
    (s.localNodeName = some L → ∀ es es' : List (RemoteState × Nat),
      (es.map Prod.fst).Perm (es'.map Prod.fst) → ((es.map Prod.fst).map RemoteState.node).Nodup →
      ∃ t t', s.mergeRemoteStates L es = .ok t ∧ s.mergeRemoteStates L es' = .ok t' ∧
        Members.Agree t.members t'.members) := by
  refine ⟨fun hnm hc hd => Call.commute hs hnm hc hd,
    fun hp hnd hg hr hr' => Run.agree_of_perm hp hnd hg hs hs (.refl _) hr hr', fun hL es es' hp hnd => ?_⟩
  have hv : Members.Reached L s.members := ⟨s, hs, hL, rfl⟩
  obtain ⟨v, v', h1, h2, h⟩ := Members.mergeRemoteStates_perm hp hnd hv hv (.refl _)
  obtain ⟨t, ht, rfl⟩ := Ret.exists_of_map_eq_ok ((map_mergeRemoteStates hs.wf es).trans h1)
  obtain ⟨t', ht', rfl⟩ := Ret.exists_of_map_eq_ok ((map_mergeRemoteStates hs.wf es').trans h2)
  exact ⟨t, t', ht, ht', h⟩

/-- Node `a`, started, knows `b` and `c` ALIVE; a snapshot saying both are SUSPECT merges, in
either order, to the same membership. -/
theorem snapshot_order_after_start :
    let s : NodeManager := ((Call.alive "c" 1 "h" 3 (fun _ => none) 0).run "a"
      ((Call.alive "b" 1 "h" 2 (fun _ => none) 0).run "a"
        ((Call.setLocalNode "h" 1 (fun _ => none) 0).run "a" .init).state).state).state
    let e : String → RemoteState := fun n => ⟨n, 1, ⟨"h", 2⟩, fun _ => none, .suspect⟩
    Reachable "a" s ∧ ∃ t t', s.mergeRemoteStates "a" [(e "b", 0), (e "c", 0)] = .ok t ∧
      s.mergeRemoteStates "a" [(e "c", 0), (e "b", 0)] = .ok t' ∧ Members.Agree t.members t'.members := by
  intro s e
  have hs : Reachable "a" s := .step _ (.step _ (.step _ .init trivial) trivial) trivial
  exact ⟨hs, (gossip_and_sync_commute hs).2.2 rfl _ _ (List.Perm.swap (e "c") (e "b") []) (by decide)⟩

end Tattle
