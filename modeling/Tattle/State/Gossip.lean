import Tattle.State.Cases

/-!
# Gossip delivered twice

Gossip and sync snapshots deliver the same ALIVE, SUSPECT or DEAD about a node many times. Each
handler settles the record it is about, so that the same message finds nothing more to do:

* an ALIVE leaves a record it ignores: another address, or an incarnation no older than the
  message's (`Members.aliveSettled`);
* a DEAD leaves no record, or a DEAD one, or one newer than the message (`Members.deadSettled`);
* a SUSPECT does the same, or leaves the record SUSPECT at the message's incarnation with its
  metadata merged and a suspect record (`Members.suspectSettled`). `on_node_suspect` then writes
  the record again with the values it has, `_create_suspect_node` finds the suspect record and
  returns, and only the broadcast is repeated.

The first call is read on names; what the second does is read on the heap model, where the
suspicion timer and `_nodes` live (`NodeManager.onNodeAlive_ignored`, `onNodeDead_ignored`,
`onNodeSuspect_ignored`, `onNodeSuspect_again`).

## Main definitions

* `Call.About n`: the call handles an ALIVE, SUSPECT or DEAD about `n`

## Main results

* `handle_twice_as_once`: handling such a message twice leaves the state handling it once left,
  but for the broadcast queue
-/

namespace Tattle

/-- The node a gossip message is about: the name an ALIVE, SUSPECT or DEAD call handles. -/
def Call.subject : Call → Option String
  | .alive name .. | .suspect name .. | .dead name .. => some name
  | .setLocalNode .. | .leaveLocalNode | .fire _ | .task _ => none

/-- The call handles a gossip message about `n`: an ALIVE, SUSPECT or DEAD. -/
def Call.About (n : String) (c : Call) : Prop := c.subject = some n

instance (n : String) (c : Call) : Decidable (c.About n) := inferInstanceAs (Decidable (_ = _))

/-- Merging the same metadata twice merges it once. -/
@[simp] theorem Metadata.merge_merge (old md : Metadata) : (old.merge md).merge md = old.merge md := by
  funext k; unfold Metadata.merge; cases md k <;> rfl

namespace Members

variable {v : Members} {n : String} {x : Node}

/-! ## What the first call leaves -/

section Inv

variable (hi : v.SuspectInv) (hl : v.localNodeName ≠ some n)
include hi hl

theorem aliveKnown_settled (hx : v.record n = some x) (incarnation : Nat) (host : String)
    (port : Nat) (metadata : Metadata) :
    ∃ y, (v.aliveKnown n x incarnation host port metadata).state.record n = some y ∧
      (y.host ≠ host ∨ y.port ≠ port ∨ incarnation ≤ y.incarnation) := by
  unfold Members.aliveKnown
  split
  · exact ⟨x, hx, ‹x.host ≠ host ∨ x.port ≠ port›.elim .inl (.inr ∘ .inl)⟩
  split
  · exact ⟨x, hx, .inr (.inr ‹_ ∧ incarnation ≤ x.incarnation›.2)⟩
  split
  · exact absurd ‹_ ∧ _›.1 hl
  rw [cancel_if_eq hi hx, Ret.ok_andThen, Ret.state_ok]
  refine ⟨x.aliveWrite incarnation metadata, ?_, .inr (.inr (Nat.le_refl _))⟩
  split <;> simp [Node.aliveWrite]

/-- **An ALIVE settles its record**: afterwards the record of `n` has another address or an
incarnation no older than the message's. -/
theorem aliveSettled (incarnation : Nat) (host : String) (port : Nat) (metadata : Metadata) :
    ∃ y, (v.onNodeAlive n incarnation host port metadata).state.record n = some y ∧
      (y.host ≠ host ∨ y.port ≠ port ∨ incarnation ≤ y.incarnation) := by
  unfold Members.onNodeAlive
  cases hx : v.record n with
  | some x => exact aliveKnown_settled hi hl hx _ _ _ _
  | none =>
    exact aliveKnown_settled (hi.setRecord_new hx host port) hl (Function.update_same _ _ _) _ _ _ _

/-- **A DEAD settles its record**: afterwards `n` has no record, or a DEAD one, or a newer one. -/
theorem deadSettled (incarnation : Nat) :
    ∀ y, (v.onNodeDead n incarnation).state.record n = some y →
      y.status = .dead ∨ incarnation < y.incarnation := by
  unfold Members.onNodeDead
  cases hx : v.record n with
  | none => intro y hy; simp [hx] at hy
  | some x =>
    dsimp only
    split
    · intro y hy; obtain rfl : x = y := by simpa [hx] using hy
      exact .inl ‹_›
    split
    · intro y hy; obtain rfl : x = y := by simpa [hx] using hy
      exact .inr ‹_›
    split
    · exact absurd ‹_ ∧ _›.1 hl
    rw [cancel_if_eq hi hx, Ret.ok_andThen,
      (quiet_andThen _ (quiet_broadcastDead _ _) _ fun _ => quiet_emit _ _).record]
    intro y hy
    obtain rfl : { x with incarnation, status := .dead } = y := by simpa using hy
    exact .inl rfl

end Inv

/-- **A SUSPECT settles its record**: afterwards `n` has no record, a DEAD or newer one, or a
SUSPECT one at the message's incarnation whose metadata already holds the message's, with a
suspect record. -/
theorem suspectSettled (hl : v.localNodeName ≠ some n) (incarnation : Nat) (metadata : Metadata) :
    (∀ y, (v.onNodeSuspect n incarnation metadata).state.record n = some y →
      y.status = .dead ∨ incarnation < y.incarnation) ∨
    ∃ y, (v.onNodeSuspect n incarnation metadata).state.record n = some y ∧ y.status = .suspect ∧
      y.incarnation = incarnation ∧ y.metadata.merge metadata = y.metadata ∧
      (v.onNodeSuspect n incarnation metadata).state.suspects n = true := by
  unfold Members.onNodeSuspect
  cases hx : v.record n with
  | none => exact .inl fun y hy => by simp [hx] at hy
  | some x =>
    dsimp only
    split
    · refine .inl fun y hy => ?_
      obtain rfl : x = y := by simpa [hx] using hy
      exact .inl ‹_›
    split
    · refine .inl fun y hy => ?_
      obtain rfl : x = y := by simpa [hx] using hy
      exact .inr ‹_›
    refine .inr ⟨x.suspectWrite incarnation metadata, ?_, rfl, rfl, by simp [Node.suspectWrite], ?_⟩
    · rw [(quiet_andThen _ (quiet_broadcastSuspect _ _) _ fun _ =>
        quiet_emit_if (x.status ≠ .suspect) _ _).record]
      simp [Node.suspectWrite]
    · rw [(quiet_andThen _ (quiet_broadcastSuspect _ _) _ fun _ =>
        quiet_emit_if (x.status ≠ .suspect) _ _).suspects]
      simp [createSuspect]

end Members

/-! ## What the second call does -/

namespace NodeManager

variable {s : NodeManager} {n : String} {x : Node}

theorem setNode_eq_self {r : Nat} {f : Node → Node} (hf : f (s.heap r) = s.heap r) :
    s.setNode r f = s := by
  unfold setNode; rw [hf, Function.update_eq_self]

/-- A SUSPECT broadcast changes the queue only, whether it raises or not. -/
theorem broadcastSuspect_state (r : Nat) : ∃ q, (s.broadcastSuspect r).state = { s with queue := q } := by
  unfold broadcastSuspect; split
  · exact ⟨s.queue, rfl⟩
  · exact ⟨_, rfl⟩

section WF

variable (h : s.WF) (hx : s.record n = some x)
include h hx

/-- An ALIVE with another address than the record's, or about another node and no newer, is
ignored. -/
theorem onNodeAlive_ignored {incarnation : Nat} {host : String} {port : Nat}
    (hign : x.host ≠ host ∨ x.port ≠ port ∨ s.localNodeName ≠ some n ∧ incarnation ≤ x.incarnation)
    (metadata : Metadata) (i : Nat) : s.onNodeAlive n incarnation host port metadata i = .ok s := by
  obtain ⟨r, hr, rfl⟩ := Option.map_eq_some'.mp hx
  simp only [onNodeAlive, hr, aliveKnown, ne_eq, local_iff h hr]
  rcases hign with h1 | h1 | h2
  · rw [if_pos (.inl h1)]
  · rw [if_pos (.inr h1)]
  · split_ifs <;> rfl

/-- A SUSPECT about a node whose record is SUSPECT at the message's incarnation, with the
message's metadata already merged and a suspect record, writes nothing: `_create_suspect_node`
returns early, and only the broadcast is made again. -/
theorem onNodeSuspect_again {incarnation : Nat} {metadata : Metadata} (hst : x.status = .suspect)
    (hinc : x.incarnation = incarnation) (hmd : x.metadata.merge metadata = x.metadata)
    (ht : (s.suspectNodes n).isSome) (hl : s.localNodeName ≠ some n) :
    ∃ r, s.onNodeSuspect n incarnation metadata = s.broadcastSuspect r := by
  obtain ⟨r, hr, rfl⟩ := Option.map_eq_some'.mp hx
  obtain ⟨t, ht⟩ := Option.isSome_iff_exists.mp ht
  have h1 : (s.setNode r fun x => { x with incarnation, status := .suspect }) = s :=
    setNode_eq_self (by rw [← hinc, ← hst])
  have h2 : s.createSuspectNode r = s := by simp [createSuspectNode, h.name_eq hr, ht]
  have h3 : (s.setNode r fun x => { x with metadata := x.metadata.merge metadata }) = s :=
    setNode_eq_self (by rw [hmd])
  refine ⟨r, ?_⟩
  unfold onNodeSuspect; rw [hr]; dsimp only
  rw [if_neg (by rw [hst]; decide), if_neg (by omega), if_neg (by rwa [local_iff h hr]), h1, h2,
    h3]
  simp only [hst, ne_eq, not_true_eq_false, if_false]
  cases s.broadcastSuspect r <;> rfl

end WF

/-- A DEAD or SUSPECT about a node with no record, a DEAD record or a newer one is ignored. -/
theorem onNodeDead_ignored {incarnation : Nat}
    (hign : ∀ y, s.record n = some y → y.status = .dead ∨ incarnation < y.incarnation) :
    s.onNodeDead n incarnation = .ok s := by
  unfold onNodeDead
  cases hr : s.nodesMap n with
  | none => rfl
  | some r =>
    dsimp only
    rcases hign (s.heap r) (by simp [record, hr]) with h1 | h1
    · rw [if_pos h1]
    · split_ifs <;> rfl

theorem onNodeSuspect_ignored {incarnation : Nat}
    (hign : ∀ y, s.record n = some y → y.status = .dead ∨ incarnation < y.incarnation)
    (metadata : Metadata) : s.onNodeSuspect n incarnation metadata = .ok s := by
  unfold onNodeSuspect
  cases hr : s.nodesMap n with
  | none => rfl
  | some r =>
    dsimp only
    rcases hign (s.heap r) (by simp [record, hr]) with h1 | h1
    · rw [if_pos h1]
    · split_ifs <;> rfl

end NodeManager

/-! ## Handling a message twice -/

open Members in
/-- A call about `n` changes, of the membership, at most the record of `n`, the suspect table and
the sequence. -/
theorem Call.frame_run {L : String} {s : NodeManager} (hs : Reachable L s) {n : String} {c : Call}
    (hc : c.About n) : Members.Frame n s.members (c.run L s).state.members := by
  rw [Call.members_run hs.wf]
  cases c with
  | alive => cases hc; exact frame_onNodeAlive hs.suspectInv _ _ _ _ _
  | suspect => cases hc; exact frame_onNodeSuspect _ _ _
  | dead => cases hc; exact frame_onNodeDead hs.suspectInv _ _
  | _ => cases hc

theorem NodeManager.exists_queue_of_ok {s : NodeManager} {r : Ret NodeManager} (h : r = .ok s) :
    ∃ q, r.state = { s with queue := q } :=
  ⟨s.queue, by rw [h]; rfl⟩

/-- **A message handled twice acts as once.** From every reachable state of a node named `L`,
an ALIVE, SUSPECT or DEAD about a node other than the local one, handled a second time right
after the first, leaves the state the first left, but for the broadcast queue: the same records,
`_nodes` and `_nodes_map`, the same suspect table and suspicion timers, the same events. -/
theorem handle_twice_as_once {L : String} {s : NodeManager} (hs : Reachable L s) {n : String}
    (hn : s.localNodeName ≠ some n) {c : Call} (hc : c.About n) :
    ∃ q, (c.run L (c.run L s).state).state = { (c.run L s).state with queue := q } := by
  have hw := Call.wf_run (L := L) hs.wf c
  have hm := Call.members_run (L := L) hs.wf c
  have hrec : (c.run L s).state.record n = (c.onMembers L s s.members).state.record n :=
    congrArg (fun v : Members => v.record n) hm
  have hl : (c.run L s).state.localNodeName ≠ some n := fun h =>
    hn ((Call.frame_run hs hc).localNodeName.symm.trans h)
  cases c with
  | alive name inc host port md i =>
    cases hc
    obtain ⟨y, hy, hign⟩ := Members.aliveSettled hs.suspectInv hn inc host port md
    refine NodeManager.exists_queue_of_ok (NodeManager.onNodeAlive_ignored hw (hrec.trans hy) ?_ md i)
    rcases hign with h | h | h
    exacts [.inl h, .inr (.inl h), .inr (.inr ⟨hl, h⟩)]
  | suspect name inc md =>
    cases hc
    rcases Members.suspectSettled (v := s.members) hn inc md with hign | ⟨y, hy, hst, hinc, hmd, ht⟩
    · exact NodeManager.exists_queue_of_ok
        (NodeManager.onNodeSuspect_ignored (fun y h => hign y (hrec.symm.trans h)) md)
    · have ht' := (congrArg (fun v : Members => v.suspects n) hm).trans ht
      obtain ⟨r, hr⟩ := NodeManager.onNodeSuspect_again hw (hrec.trans hy) hst hinc hmd ht' hl
      obtain ⟨q, hq⟩ := NodeManager.broadcastSuspect_state (s := ((Call.suspect n inc md).run L s).state) r
      exact ⟨q, by rw [← hq, ← hr]; rfl⟩
  | dead name inc =>
    cases hc
    have hign := Members.deadSettled hs.suspectInv hn inc
    exact NodeManager.exists_queue_of_ok
      (NodeManager.onNodeDead_ignored fun y h => hign y (hrec.symm.trans h))
  | _ => cases hc

/-- Node `a`, started, knows `b` ALIVE; a SUSPECT about `b` handled twice acts as once. -/
theorem suspect_twice_as_once :
    let s : NodeManager := ((Call.alive "b" 1 "h" 2 (fun _ => none) 0).run "a"
      ((Call.setLocalNode "h" 1 (fun _ => none) 0).run "a" .init).state).state
    let c : Call := .suspect "b" 1 fun _ => none
    s.localNodeName ≠ some "b" ∧ c.About "b" ∧
      ∃ q, (c.run "a" (c.run "a" s).state).state = { (c.run "a" s).state with queue := q } := by
  intro s c
  have hn : s.localNodeName ≠ some "b" := by decide
  exact ⟨hn, rfl, handle_twice_as_once (.step (.alive "b" 1 "h" 2 (fun _ => none) 0)
    (.step (.setLocalNode "h" 1 (fun _ => none) 0) .init trivial) trivial) hn rfl⟩

end Tattle
