import Tattle.State.Invariants

/-!
# What a handler call can do

One lemma per handler on names lists every way the call can end: ignored, refuted, or
accepted with the writes it makes and the outputs after them. The later laws are read off these
lemmas and never unfold a handler again. Under `SuspectInv` the `_cancel_suspect_node` step of
`on_node_alive` and `on_node_dead` always succeeds (`cancel_if_eq`), so an accepted update is one
write of the record and of the name's entry in the suspect table.
-/

namespace Tattle

/-- The record `on_node_alive` writes when it accepts. -/
def Node.aliveWrite (x : Node) (incarnation : Nat) (metadata : Metadata) : Node :=
  { x with incarnation, status := .alive, metadata := x.metadata.merge metadata }

/-- The record `on_node_suspect` writes when it accepts. -/
def Node.suspectWrite (x : Node) (incarnation : Nat) (metadata : Metadata) : Node :=
  { x with incarnation, status := .suspect, metadata := x.metadata.merge metadata }

/-- The record `on_node_dead` writes when it accepts. -/
def Node.deadWrite (x : Node) (incarnation : Nat) : Node :=
  { x with incarnation, status := .dead }

namespace Members

variable {v : Members}

/-- What `_refute` can do: raise with only the sequence advanced, when there is no local
record, or write the local record's incarnation and queue an ALIVE about it. -/
theorem refute_cases :
    v.localRecord = none ∧
      v.refute = .raised .attributeError { v with localNodeSeq := v.localNodeSeq + 1 } ∨
    ∃ L x, v.localNodeName = some L ∧ v.record L = some x ∧
      v.refute = .ok (({ v with localNodeSeq := v.localNodeSeq + 1 }.setRecord L
        { x with incarnation := v.localNodeSeq + 1 }).broadcastAlive L
        { x with incarnation := v.localNodeSeq + 1 }) := by
  unfold Members.refute localRecord
  cases hL : v.localNodeName with
  | none => exact .inl ⟨rfl, rfl⟩
  | some L =>
    cases hx : v.record L with
    | none => exact .inl ⟨by simp [hx], by simp [hx]⟩
    | some x => exact .inr ⟨L, x, rfl, hx, by simp [hx]⟩

/-- What `on_node_suspect` can do: nothing; refute, for the local node; or write SUSPECT with
the new incarnation and metadata, add a suspect record, and broadcast, emitting `node.suspect`
when the status changed. -/
theorem onNodeSuspect_cases (name : String) (incarnation : Nat) (metadata : Metadata) :
    v.onNodeSuspect name incarnation metadata = .ok v ∨
    (v.localNodeName = some name ∧ v.onNodeSuspect name incarnation metadata = v.refute ∧
      ∃ x, v.record name = some x ∧ x.status ≠ .dead ∧ x.incarnation ≤ incarnation) ∨
    ∃ x, v.record name = some x ∧ x.status ≠ .dead ∧ x.incarnation ≤ incarnation ∧
      v.localNodeName ≠ some name ∧
      v.onNodeSuspect name incarnation metadata =
        ((((v.setRecord name (x.suspectWrite incarnation metadata)).createSuspect name).broadcastSuspect
            name (x.suspectWrite incarnation metadata)).andThen
          fun w => .ok (if x.status ≠ .suspect then w.emit .suspect name else w)) := by
  unfold Members.onNodeSuspect
  cases hx : v.record name with
  | none => exact .inl rfl
  | some x =>
    dsimp only
    by_cases h1 : x.status = .dead
    · exact .inl (if_pos h1)
    by_cases h2 : incarnation < x.incarnation
    · exact .inl (by rw [if_neg h1, if_pos h2])
    by_cases h3 : v.localNodeName = some name
    · exact .inr (.inl ⟨h3, by rw [if_neg h1, if_neg h2, if_pos h3], x, rfl, h1, Nat.le_of_not_lt h2⟩)
    · exact .inr (.inr ⟨x, rfl, h1, Nat.le_of_not_lt h2, h3, by rw [if_neg h1, if_neg h2, if_neg h3]; rfl⟩)

section Inv

variable (hi : v.SuspectInv)
include hi

/-- What `on_node_dead` can do: nothing; refute, for the local node while not leaving; or take
the node out of the suspect table, write DEAD with the new incarnation, broadcast, and emit
`node.dead` (the status was not DEAD). -/
theorem onNodeDead_cases (name : String) (incarnation : Nat) :
    v.onNodeDead name incarnation = .ok v ∨
    (v.localNodeName = some name ∧ v.leaving = false ∧ v.onNodeDead name incarnation = v.refute ∧
      ∃ x, v.record name = some x ∧ x.status ≠ .dead ∧ x.incarnation ≤ incarnation) ∨
    ∃ x, v.record name = some x ∧ x.status ≠ .dead ∧ x.incarnation ≤ incarnation ∧
      ¬(v.localNodeName = some name ∧ v.leaving = false) ∧
      v.onNodeDead name incarnation =
        (({ v with suspects := Function.update v.suspects name false }.setRecord name
            (x.deadWrite incarnation)).broadcastDead name (x.deadWrite incarnation)).andThen
          fun w => .ok (if x.status ≠ .dead then w.emit .dead name else w) := by
  unfold Members.onNodeDead
  cases hx : v.record name with
  | none => exact .inl rfl
  | some x =>
    dsimp only
    by_cases h1 : x.status = .dead
    · exact .inl (if_pos h1)
    by_cases h2 : incarnation < x.incarnation
    · exact .inl (by rw [if_neg h1, if_pos h2])
    by_cases h3 : v.localNodeName = some name ∧ v.leaving = false
    · exact .inr (.inl ⟨h3.1, h3.2, by rw [if_neg h1, if_neg h2, if_pos h3], x, rfl, h1,
        Nat.le_of_not_lt h2⟩)
    · refine .inr (.inr ⟨x, rfl, h1, Nat.le_of_not_lt h2, h3, ?_⟩)
      rw [if_neg h1, if_neg h2, if_neg h3, cancel_if_eq hi hx, Ret.ok_andThen]; rfl

/-- What `on_node_alive` does with the record `x` of `name`, on a state `u` that has it: nothing,
or take the node out of the suspect table, write ALIVE with the new incarnation and metadata,
broadcast, and emit `node.alive` when the status changed. It accepts a higher incarnation, and
for the local node the same one too. -/
theorem aliveKnown_cases {name : String} {x : Node} (hx : v.record name = some x)
    (incarnation : Nat) (host : String) (port : Nat) (metadata : Metadata) :
    v.aliveKnown name x incarnation host port metadata = .ok v ∨
    x.host = host ∧ x.port = port ∧
      (v.localNodeName = some name ∧ x.incarnation ≤ incarnation ∨
        v.localNodeName ≠ some name ∧ x.incarnation < incarnation) ∧
      v.aliveKnown name x incarnation host port metadata =
        .ok (let w := ({ v with suspects := Function.update v.suspects name false }.setRecord name
              (x.aliveWrite incarnation metadata)).broadcastAlive name (x.aliveWrite incarnation metadata)
            if x.status ≠ .alive then w.emit .alive name else w) := by
  unfold Members.aliveKnown
  by_cases h1 : x.host ≠ host ∨ x.port ≠ port
  · exact .inl (if_pos h1)
  by_cases h2 : v.localNodeName ≠ some name ∧ incarnation ≤ x.incarnation
  · exact .inl (by rw [if_neg h1, if_pos h2])
  by_cases h3 : v.localNodeName = some name ∧ incarnation < x.incarnation
  · exact .inl (by rw [if_neg h1, if_neg h2, if_pos h3])
  refine .inr ⟨by simp_all, by simp_all, ?_, ?_⟩
  · by_cases hl : v.localNodeName = some name
    · exact .inl ⟨hl, by simp_all⟩
    · exact .inr ⟨hl, by simp_all⟩
  · rw [if_neg h1, if_neg h2, if_neg h3, cancel_if_eq hi hx, Ret.ok_andThen]; rfl

end Inv

/-- Discovery keeps the invariant: an unknown name has no suspect record, and its new record is
DEAD. -/
theorem SuspectInv.setRecord_new (hi : v.SuspectInv) {name : String} (hn : v.record name = none)
    (host : String) (port : Nat) : (v.setRecord name (Node.new name host port)).SuspectInv := by
  have hs : v.suspects name = false := by simpa [hn] using hi name
  have := hi.update name (Node.new name host port) false (by simp [Node.new])
  rwa [← hs, Function.update_eq_self] at this

/-! ## What a handler leaves alone -/

/-- `v'` differs from `v` at most in the record of `n`, the suspect table, the sequence and the
outputs: the local node's name, the `_leaving` flag and every other record are kept. -/
structure Frame (n : String) (v v' : Members) : Prop where
  localNodeName : v'.localNodeName = v.localNodeName
  leaving : v'.leaving = v.leaving
  record : ∀ m, m ≠ n → v'.record m = v.record m

variable {n : String}

theorem Frame.refl (n : String) (v : Members) : Frame n v v := ⟨rfl, rfl, fun _ _ => rfl⟩

theorem Frame.trans {u w : Members} (h : Frame n v u) (h' : Frame n u w) : Frame n v w :=
  ⟨h'.localNodeName.trans h.localNodeName, h'.leaving.trans h.leaving,
    fun m hm => (h'.record m hm).trans (h.record m hm)⟩

/-- A prefix of writes, then `Quiet` steps. -/
theorem Frame.of_quiet {u w : Members} (hq : Quiet u w) (h : Frame n v u) : Frame n v w :=
  h.trans ⟨hq.localNodeName, hq.leaving, fun m _ => congrFun hq.record m⟩

/-- `_refute` writes the local record only. -/
theorem frame_refute (h : v.localNodeName = some n) : Frame n v v.refute.state := by
  rcases refute_cases (v := v) with ⟨-, h'⟩ | ⟨L, x, hL, -, h'⟩ <;> rw [h']
  · exact ⟨rfl, rfl, fun _ _ => rfl⟩
  · cases h.symm.trans hL
    exact ⟨rfl, rfl, fun _ hm => Function.update_noteq hm _ _⟩

theorem frame_onNodeSuspect (name : String) (incarnation : Nat) (metadata : Metadata) :
    Frame name v (v.onNodeSuspect name incarnation metadata).state := by
  rcases onNodeSuspect_cases name incarnation metadata with h | ⟨hl, h, -⟩ | ⟨x, -, -, -, -, h⟩ <;>
    rw [h]
  · exact .refl name v
  · exact frame_refute hl
  · exact .of_quiet (quiet_andThen _ (quiet_broadcastSuspect _ _) _ fun _ => quiet_emit_if _ _ _)
      ⟨rfl, rfl, fun _ hm => Function.update_noteq hm _ _⟩

section Inv

variable (hi : v.SuspectInv)
include hi

theorem frame_onNodeDead (name : String) (incarnation : Nat) :
    Frame name v (v.onNodeDead name incarnation).state := by
  rcases onNodeDead_cases hi name incarnation with h | ⟨hl, -, h, -⟩ | ⟨x, -, -, -, -, h⟩ <;> rw [h]
  · exact .refl name v
  · exact frame_refute hl
  · exact .of_quiet (quiet_andThen _ (quiet_broadcastDead _ _) _ fun _ => quiet_emit_if _ _ _)
      ⟨rfl, rfl, fun _ hm => Function.update_noteq hm _ _⟩

theorem frame_aliveKnown {name : String} {x : Node} (hx : v.record name = some x)
    (incarnation : Nat) (host : String) (port : Nat) (metadata : Metadata) :
    Frame name v (v.aliveKnown name x incarnation host port metadata).state := by
  rcases aliveKnown_cases hi hx incarnation host port metadata with h | ⟨-, -, -, h⟩ <;> rw [h]
  · exact .refl name v
  · exact .of_quiet (quiet_emit_if _ _ _) ⟨rfl, rfl, fun _ hm => Function.update_noteq hm _ _⟩

theorem frame_onNodeAlive (name : String) (incarnation : Nat) (host : String) (port : Nat)
    (metadata : Metadata) : Frame name v (v.onNodeAlive name incarnation host port metadata).state := by
  unfold Members.onNodeAlive
  cases hx : v.record name with
  | some x => exact frame_aliveKnown hi hx _ _ _ _
  | none =>
    exact Frame.trans (u := v.setRecord name (Node.new name host port))
      ⟨rfl, rfl, fun _ hm => Function.update_noteq hm _ _⟩
      (frame_aliveKnown (hi.setRecord_new hx host port) (Function.update_same _ _ _) _ _ _ _)

end Inv

/-- What `leave_local_node` can do: fail its assertion before `set_local_node`; or set
`_leaving` and run `on_node_dead` with the local record's name and incarnation, an
`AttributeError` when there is no local record. -/
theorem leaveLocalNode_cases :
    (v.localNodeName = none ∧ v.leaveLocalNode = .raised .assertionError v) ∨
    ∃ L, v.localNodeName = some L ∧
      (v.record L = none ∧ v.leaveLocalNode = .raised .attributeError { v with leaving := true } ∨
        ∃ x, v.record L = some x ∧
          v.leaveLocalNode = { v with leaving := true }.onNodeDead x.name x.incarnation) := by
  unfold Members.leaveLocalNode
  cases hL : v.localNodeName with
  | none => exact .inl ⟨rfl, rfl⟩
  | some L =>
    refine .inr ⟨L, rfl, ?_⟩
    cases hx : v.record L with
    | none => exact .inl ⟨rfl, by simp [hx]⟩
    | some x => exact .inr ⟨x, rfl, by simp [hx]⟩

/-- On a node named `L` the local node's name is unset or `L`, and `_leaving` is set only once
the name is. -/
structure LocalInv (L : String) (v : Members) : Prop where
  name : v.localNodeName = none ∨ v.localNodeName = some L
  leaving : v.leaving = true → v.localNodeName = some L

variable {L : String} {w : Members}

theorem LocalInv.of_frame (h : LocalInv L v) (hf : Frame n v w) : LocalInv L w :=
  ⟨hf.localNodeName ▸ h.name, fun hl => hf.localNodeName ▸ h.leaving (hf.leaving ▸ hl)⟩

theorem LocalInv.ne_local (h : LocalInv L v) {n : String} (hn : n ≠ L) : v.localNodeName ≠ some n := by
  rcases h.name with h | h <;> rw [h] <;> simp [Ne.symm hn]

/-- `leave_local_node` sets `_leaving` after its assertion passed. -/
theorem LocalInv.leave (h : LocalInv L v) {L' : String} (hL : v.localNodeName = some L') :
    LocalInv L { v with leaving := true } where
  name := h.name
  leaving _ := by rcases h.name with h | h <;> simp_all

end Members

namespace Call

variable {L : String} {s : NodeManager} {v : Members}

open Members in
theorem localInv_onMembers (hi : v.SuspectInv) (h : LocalInv L v) (c : Call) :
    LocalInv L (c.onMembers L s v).state := by
  cases c with
  | alive => exact h.of_frame (frame_onNodeAlive hi _ _ _ _ _)
  | suspect => exact h.of_frame (frame_onNodeSuspect _ _ _)
  | dead => exact h.of_frame (frame_onNodeDead hi _ _)
  | setLocalNode host port metadata =>
    have hf := frame_onNodeAlive (v := { v with localNodeName := some L, localNodeSeq := v.localNodeSeq + 1 })
      (hi.congr rfl rfl) L (v.localNodeSeq + 1) host port metadata
    exact ⟨.inr hf.localNodeName, fun _ => hf.localNodeName⟩
  | leaveLocalNode =>
    show LocalInv L v.leaveLocalNode.state
    rcases leaveLocalNode_cases (v := v) with ⟨-, h'⟩ | ⟨L', hL, ⟨-, h'⟩ | ⟨x, -, h'⟩⟩ <;> rw [h']
    · exact h
    · exact h.leave hL
    · exact (h.leave hL).of_frame (frame_onNodeDead (v := { v with leaving := true }) (hi.congr rfl rfl) _ _)
  | fire => exact h
  | task => exact h.of_frame (frame_onNodeDead hi _ _)

end Call

theorem Reachable.localInv {L : String} {s : NodeManager} (hs : Reachable L s) :
    s.members.LocalInv L := by
  induction hs with
  | init => exact ⟨.inl rfl, fun h => nomatch h⟩
  | step c hr _ ih => rw [Call.members_run hr.wf]; exact Call.localInv_onMembers hr.suspectInv ih c

end Tattle
