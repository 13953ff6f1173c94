import Tattle.State.Members
import Tattle.State.Table

/-!
# The heap model refines the handlers on names

On a `WF` state every call of the heap model ends as its restatement on `Members` does, with
the same error if it raises, and leaves the membership the restatement computes
(`Call.map_run`), and it leaves a `WF` state (`Call.wf_run`). So `NodeManager.members` maps each
run of the heap model to a run of the handlers on names, and what holds of the membership along
the latter holds of the code.
-/

namespace Tattle

namespace NodeManager

variable {s : NodeManager}

/-- The writes that leave the references alone: the heap, `_nodes_map` and the allocation
pointer are as before. -/
structure SameRefs (s s' : NodeManager) : Prop where
  heap : s'.heap = s.heap
  nodesMap : s'.nodesMap = s.nodesMap
  next : s'.next = s.next

theorem SameRefs.wf {s' : NodeManager} (h : SameRefs s s') (hw : s.WF) : s'.WF :=
  hw.of_eq h.heap h.nodesMap h.next

theorem sameRefs_cancel {r : Nat} {s' : NodeManager} (hc : s.cancelSuspectNode r = .ok s') :
    SameRefs s s' := by
  unfold cancelSuspectNode at hc
  split at hc <;> cases hc
  exact ⟨rfl, rfl, rfl⟩

theorem sameRefs_cancel_if {r : Nat} {c : Prop} [Decidable c] {s' : NodeManager}
    (hc : (if c then s.cancelSuspectNode r else .ok s) = .ok s') : SameRefs s s' := by
  split at hc
  · exact sameRefs_cancel hc
  · cases hc; exact ⟨rfl, rfl, rfl⟩

theorem map_cancel_if (h : s.WF) {n : String} {r : Nat} (hr : s.nodesMap n = some r) (c : Prop)
    [Decidable c] :
    (if c then s.cancelSuspectNode r else .ok s).map members =
      if c then s.members.cancelSuspect n else .ok s.members := by
  split
  · exact map_cancelSuspectNode h hr
  · rfl

theorem sameRefs_createSuspectNode (r : Nat) : SameRefs s (s.createSuspectNode r) := by
  unfold createSuspectNode; split <;> exact ⟨rfl, rfl, rfl⟩

theorem sameRefs_broadcastSuspect {r : Nat} {s' : NodeManager}
    (hb : s.broadcastSuspect r = .ok s') : SameRefs s s' := by
  unfold broadcastSuspect at hb; split at hb <;> cases hb; exact ⟨rfl, rfl, rfl⟩

theorem sameRefs_broadcastDead {r : Nat} {s' : NodeManager}
    (hb : s.broadcastDead r = .ok s') : SameRefs s s' := by
  unfold broadcastDead at hb; split at hb <;> cases hb; exact ⟨rfl, rfl, rfl⟩

theorem members_addNode (h : s.WF) {n : String} (hn : s.nodesMap n = none) (host : String)
    (port i : Nat) :
    (s.addNode n host port i).members = s.members.setRecord n (Node.new n host port) := by
  have hrec : (s.addNode n host port i).record = Function.update s.record n
      (some (Node.new n host port)) := by
    funext m; rw [record_addNode h hn, Function.update_apply]
  simp only [members, Members.setRecord, hrec]; rfl

section Known

variable (h : s.WF) {n : String} {r : Nat} (hr : s.nodesMap n = some r)
include h hr

theorem map_aliveKnown (incarnation : Nat) (host : String) (port : Nat) (metadata : Metadata) :
    (s.aliveKnown r incarnation host port metadata).map members =
      s.members.aliveKnown n (s.heap r) incarnation host port metadata := by
  unfold aliveKnown Members.aliveKnown
  simp only [ne_eq, local_iff h hr, members_localNodeName]
  by_cases h1 : ¬(s.heap r).host = host ∨ ¬(s.heap r).port = port
  · simp only [if_pos h1, Ret.map_ok]
  by_cases h2 : ¬s.localNodeName = some n ∧ incarnation ≤ (s.heap r).incarnation
  · simp only [if_neg h1, if_pos h2, Ret.map_ok]
  by_cases h3 : s.localNodeName = some n ∧ incarnation < (s.heap r).incarnation
  · simp only [if_neg h1, if_neg h2, if_pos h3, Ret.map_ok]
  simp only [if_neg h1, if_neg h2, if_neg h3]
  refine Ret.map_andThen members (fun s' => SameRefs s s')
    (map_cancel_if h hr ((s.heap r).status = .suspect)) (fun _ hc => sameRefs_cancel_if hc) ?_
  intro s' hs'
  have hw := hs'.wf h
  have hr' : s'.nodesMap n = some r := hs'.nodesMap ▸ hr
  rw [← hs'.heap]
  have hw1 := hw.setNode r
    (f := fun x => { x with incarnation, status := .alive, metadata := x.metadata.merge metadata })
    fun _ => rfl
  by_cases h4 : ¬(s'.heap r).status = .alive
  · simp only [if_pos h4, Ret.map_ok, members_emit (hw1.broadcastAlive r) hr',
      members_broadcastAlive hw1 hr', members_setNode hw hr', setNode_heap_self]
  · simp only [if_neg h4, Ret.map_ok, members_broadcastAlive hw1 hr', members_setNode hw hr',
      setNode_heap_self]

end Known

theorem map_onNodeAlive (h : s.WF) (name : String) (incarnation : Nat) (host : String) (port : Nat)
    (metadata : Metadata) (i : Nat) :
    (s.onNodeAlive name incarnation host port metadata i).map members =
      s.members.onNodeAlive name incarnation host port metadata := by
  unfold onNodeAlive Members.onNodeAlive
  cases hr : s.nodesMap name with
  | some r =>
    simp only [members_record, record, hr, Option.map_some']
    exact map_aliveKnown h hr _ _ _ _
  | none =>
    simp only [members_record, record, hr, Option.map_none']
    have hr' : (s.addNode name host port i).nodesMap name = some s.next := by simp [addNode]
    rw [map_aliveKnown (h.addNode host port i) hr', members_addNode h hr]
    simp [addNode]

section Dead

variable (h : s.WF) {n : String} {r : Nat} (hr : s.nodesMap n = some r)
include h hr

theorem map_deadWrite (incarnation : Nat) (c : Prop) [Decidable c] :
    (((s.setNode r fun x => { x with incarnation, status := .dead }).broadcastDead r).andThen
      fun s => .ok (if c then s.emit .dead r else s)).map members =
    ((s.members.setRecord n { s.heap r with incarnation, status := .dead }).broadcastDead n
      { s.heap r with incarnation, status := .dead }).andThen
      fun v => .ok (if c then v.emit .dead n else v) := by
  have hw1 := h.setNode r (f := fun x => { x with incarnation, status := .dead }) fun _ => rfl
  refine Ret.map_andThen members (fun s' => s'.WF ∧ s'.nodesMap n = some r) ?_ ?_ ?_
  · rw [map_broadcastDead hw1 hr, members_setNode h hr, setNode_heap_self]
  · intro s' hb; have := sameRefs_broadcastDead hb; exact ⟨this.wf hw1, this.nodesMap ▸ hr⟩
  · rintro s' ⟨hw', hr'⟩
    by_cases hc : c
    · simp only [if_pos hc, Ret.map_ok, members_emit hw' hr']
    · simp only [if_neg hc, Ret.map_ok]

end Dead

theorem map_onNodeDead (h : s.WF) (name : String) (incarnation : Nat) :
    (s.onNodeDead name incarnation).map members = s.members.onNodeDead name incarnation := by
  unfold onNodeDead Members.onNodeDead
  cases hr : s.nodesMap name with
  | none => simp [record, hr]
  | some r =>
    simp only [members_record, record, hr, Option.map_some', local_iff h hr, members_localNodeName,
      members_leaving]
    by_cases h1 : (s.heap r).status = .dead
    · simp only [if_pos h1, Ret.map_ok]
    by_cases h2 : incarnation < (s.heap r).incarnation
    · simp only [if_neg h1, if_pos h2, Ret.map_ok]
    by_cases h3 : s.localNodeName = some name ∧ s.leaving = false
    · simp only [if_neg h1, if_neg h2, if_pos h3]; exact map_refute h
    simp only [if_neg h1, if_neg h2, if_neg h3]
    refine Ret.map_andThen members (fun s' => SameRefs s s')
      (map_cancel_if h hr ((s.heap r).status = .suspect)) (fun _ hc => sameRefs_cancel_if hc) ?_
    intro s' hs'
    rw [← hs'.heap]
    exact map_deadWrite (hs'.wf h) (hs'.nodesMap ▸ hr) _ _

theorem map_onNodeSuspect (h : s.WF) (name : String) (incarnation : Nat) (metadata : Metadata) :
    (s.onNodeSuspect name incarnation metadata).map members =
      s.members.onNodeSuspect name incarnation metadata := by
  unfold onNodeSuspect Members.onNodeSuspect
  cases hr : s.nodesMap name with
  | none => simp [record, hr]
  | some r =>
    simp only [members_record, record, hr, Option.map_some', local_iff h hr, members_localNodeName]
    by_cases h1 : (s.heap r).status = .dead
    · simp only [if_pos h1, Ret.map_ok]
    by_cases h2 : incarnation < (s.heap r).incarnation
    · simp only [if_neg h1, if_pos h2, Ret.map_ok]
    by_cases h3 : s.localNodeName = some name
    · simp only [if_neg h1, if_neg h2, if_pos h3]; exact map_refute h
    simp only [if_neg h1, if_neg h2, if_neg h3]
    have hw1 := h.setNode r (f := fun x => { x with incarnation, status := .suspect }) fun _ => rfl
    have hs2 := sameRefs_createSuspectNode (s := s.setNode r fun x => { x with incarnation, status := .suspect }) r
    have hw2 := hs2.wf hw1
    have hr2 := hs2.nodesMap ▸ hr
    have hw3 := hw2.setNode r (f := fun x => { x with metadata := x.metadata.merge metadata })
      fun _ => rfl
    refine Ret.map_andThen members (fun s' => s'.WF ∧ s'.nodesMap name = some r) ?_ ?_ ?_
    · rw [map_broadcastSuspect hw3 hr2, members_setNode hw2 hr2,
        members_createSuspectNode hw1 hr, members_setNode h hr, setNode_heap_self, hs2.heap,
        setNode_heap_self]
      simp only [Members.setRecord, Members.createSuspect, Function.update_idem]
    · intro s' hb; have := sameRefs_broadcastSuspect hb; exact ⟨this.wf hw3, this.nodesMap ▸ hr2⟩
    · rintro s' ⟨hw', hr'⟩
      by_cases hc : (s.heap r).status ≠ .suspect
      · simp only [if_pos hc, Ret.map_ok, members_emit hw' hr']
      · simp only [if_neg hc, Ret.map_ok]


theorem map_setLocalNode (h : s.WF) (name host : String) (port : Nat) (metadata : Metadata)
    (i : Nat) :
    (s.setLocalNode name host port metadata i).map members =
      s.members.setLocalNode name host port metadata := by
  unfold setLocalNode Members.setLocalNode
  exact map_onNodeAlive
    (s := { s with localNodeName := some name, localNodeSeq := s.localNodeSeq + 1 })
    (h.of_eq rfl rfl rfl) _ _ _ _ _ _

theorem map_leaveLocalNode (h : s.WF) : s.leaveLocalNode.map members = s.members.leaveLocalNode := by
  unfold leaveLocalNode Members.leaveLocalNode localNode
  simp only [members_localNodeName]
  cases hL : s.localNodeName with
  | none => rfl
  | some L =>
    simp only [Option.some_bind]
    cases hl : s.nodesMap L with
    | none => simp only [hl, members_record, record, Option.map_none', Ret.map_raised]; rfl
    | some l =>
      simp only [hl, members_record, record, Option.map_some']
      exact map_onNodeDead (s := { s with leaving := true, localNodeName := some L })
        (h.of_eq rfl rfl rfl) _ _

end NodeManager

namespace Call

variable {L : String} {s : NodeManager}

/-- What a call does to the membership. A timer's handle changes none of it; a timer's task is
`on_node_dead` with the name and incarnation its node has when the task runs. -/
def onMembers (L : String) (s : NodeManager) : Call → Members → Ret Members
  | alive name inc host port md _ => fun v => v.onNodeAlive name inc host port md
  | suspect name inc md => fun v => v.onNodeSuspect name inc md
  | dead name inc => fun v => v.onNodeDead name inc
  | setLocalNode host port md _ => fun v => v.setLocalNode L host port md
  | leaveLocalNode => fun v => v.leaveLocalNode
  | fire _ => .ok
  | task t => fun v => v.onNodeDead (s.heap (s.timers t).node).name (s.heap (s.timers t).node).incarnation

/-- **The heap model refines the handlers on names**: from a `WF` state, every call ends as its
restatement on names, with the same membership. -/
theorem map_run (h : s.WF) (c : Call) : (c.run L s).map NodeManager.members = c.onMembers L s s.members := by
  cases c with
  | alive => exact NodeManager.map_onNodeAlive h _ _ _ _ _ _
  | suspect => exact NodeManager.map_onNodeSuspect h _ _ _
  | dead => exact NodeManager.map_onNodeDead h _ _
  | setLocalNode => exact NodeManager.map_setLocalNode h _ _ _ _ _
  | leaveLocalNode => exact NodeManager.map_leaveLocalNode h
  | fire => rfl
  | task t => exact NodeManager.map_onNodeDead (s := { s with tasks := s.tasks.erase t }) (h.of_eq rfl rfl rfl) _ _

/-- The state a call leaves holds the membership its restatement leaves. -/
theorem members_run (h : s.WF) (c : Call) :
    (c.run L s).state.members = (c.onMembers L s s.members).state := by
  rw [← map_run h c, Ret.state_map]

end Call

end Tattle
