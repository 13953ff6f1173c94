import Tattle.State.Refinement

/-!
# The suspect table

Along every run, from the state `NodeManager.__init__` builds, whatever the calls and their
arguments, the calls that raise partway included, `_suspect_nodes` has a key exactly for the
names whose record is SUSPECT. So the lookup of `_cancel_suspect_node` never raises `KeyError`
(`suspect_table_iff_suspect`).

The law is proved on `Members`, one handler at a time, and carried to the heap model by
`Call.members_run`. The outputs of a handler (its broadcasts and events) never touch the
membership, so a handler is its writes to records, the suspect table and the local fields,
followed by `Quiet` steps.

## Main definitions

* `Members.Quiet`: a step that changes only the outputs
* `Members.SuspectInv`: the suspect table and the SUSPECT records agree

## Main results

* `Call.suspectInv_onMembers`, `Call.noKeyError_onMembers`: one call keeps the law and raises no
  `KeyError`
* `suspect_table_iff_suspect`: over every run
-/

namespace Tattle

namespace Members

variable {v v' : Members}

/-- `v'` differs from `v` in its outputs only. -/
structure Quiet (v v' : Members) : Prop where
  record : v'.record = v.record
  suspects : v'.suspects = v.suspects
  localNodeName : v'.localNodeName = v.localNodeName
  localNodeSeq : v'.localNodeSeq = v.localNodeSeq
  leaving : v'.leaving = v.leaving

theorem Quiet.refl (v : Members) : Quiet v v := ⟨rfl, rfl, rfl, rfl, rfl⟩

theorem Quiet.trans {v'' : Members} (h : Quiet v v') (h' : Quiet v' v'') : Quiet v v'' :=
  ⟨h'.record.trans h.record, h'.suspects.trans h.suspects, h'.localNodeName.trans h.localNodeName,
    h'.localNodeSeq.trans h.localNodeSeq, h'.leaving.trans h.leaving⟩

theorem quiet_push (n : String) (m : Message) : Quiet v (v.push n m) := ⟨rfl, rfl, rfl, rfl, rfl⟩

theorem quiet_broadcastAlive (n : String) (x : Node) : Quiet v (v.broadcastAlive n x) :=
  quiet_push _ _

theorem quiet_emit (st : Status) (n : String) : Quiet v (v.emit st n) := ⟨rfl, rfl, rfl, rfl, rfl⟩

theorem quiet_emit_if (c : Prop) [Decidable c] (st : Status) (n : String) :
    Quiet v (if c then v.emit st n else v) := by
  split
  · exact quiet_emit st n
  · exact Quiet.refl v

/-- A SUSPECT or DEAD broadcast and what follows it change only the outputs, whether the
broadcast raised or not. -/
theorem quiet_andThen (b : Ret Members) (hb : Quiet v b.state) (g : Members → Members)
    (hg : ∀ w, Quiet w (g w)) : Quiet v (b.andThen fun w => .ok (g w)).state := by
  cases b with
  | ok v' => exact hb.trans (hg v')
  | raised e v' => exact hb

theorem quiet_broadcastSuspect (n : String) (x : Node) : Quiet v (v.broadcastSuspect n x).state := by
  unfold broadcastSuspect; split
  · exact Quiet.refl v
  · exact quiet_push _ _

theorem quiet_broadcastDead (n : String) (x : Node) : Quiet v (v.broadcastDead n x).state := by
  unfold broadcastDead; split
  · exact Quiet.refl v
  · exact quiet_push _ _

/-! ## The suspect table -/

/-- `_suspect_nodes` has a key exactly for the names whose record is SUSPECT. -/
def SuspectInv (v : Members) : Prop :=
  ∀ n, v.suspects n = true ↔ (v.record n).map Node.status = some .suspect

theorem SuspectInv.congr (h : v.SuspectInv) (hr : v'.record = v.record)
    (hs : v'.suspects = v.suspects) : v'.SuspectInv := by
  intro n; rw [hr, hs]; exact h n

theorem SuspectInv.of_quiet (h : v.SuspectInv) (hq : Quiet v v') : v'.SuspectInv :=
  h.congr hq.record hq.suspects

/-- A write of the record of `n` and of its entry in the table keeps the invariant when the two
agree. -/
theorem SuspectInv.update (h : v.SuspectInv) (n : String) (x : Node) (b : Bool)
    (hx : b = true ↔ x.status = .suspect) :
    ({ v with record := Function.update v.record n (some x)
              suspects := Function.update v.suspects n b } : Members).SuspectInv := by
  intro m
  by_cases hm : m = n
  · subst hm; simpa using hx
  · simpa [Function.update_noteq hm] using h m

theorem SuspectInv.setRecord (h : v.SuspectInv) {n : String} {x y : Node}
    (hx : v.record n = some x) (hst : y.status = x.status) : (v.setRecord n y).SuspectInv := by
  have := h.update n y (v.suspects n) (by rw [h n, hx, hst]; simp)
  rwa [Function.update_eq_self] at this

/-- Under the invariant, the `if status == SUSPECT: _cancel_suspect_node` step of
`on_node_alive` and `on_node_dead` always succeeds, and takes the name out of the table. -/
theorem cancel_if_eq (h : v.SuspectInv) {n : String} {x : Node} (hx : v.record n = some x) :
    (if x.status = .suspect then v.cancelSuspect n else .ok v) =
      .ok { v with suspects := Function.update v.suspects n false } := by
  have hn := h n
  rw [hx] at hn
  by_cases hs : x.status = .suspect
  · have : v.suspects n = true := hn.mpr (by simp [hs])
    simp [hs, cancelSuspect, this]
  · have : v.suspects n = false := by simpa [hs] using hn
    rw [if_neg hs, Function.update_eq_self_iff.mpr this.symm]

theorem SuspectInv.refute (h : v.SuspectInv) : v.refute.state.SuspectInv := by
  unfold Members.refute
  dsimp only
  split
  · exact h.congr rfl rfl
  · split
    · exact h.congr rfl rfl
    · rename_i L _ x hx
      rw [Ret.state_ok]
      exact (SuspectInv.setRecord (v := { v with localNodeSeq := v.localNodeSeq + 1 })
        (y := { x with incarnation := v.localNodeSeq + 1 }) (h.congr rfl rfl) hx rfl).of_quiet
        (quiet_broadcastAlive _ _)

theorem SuspectInv.aliveKnown (h : v.SuspectInv) {name : String} {x : Node}
    (hx : v.record name = some x) (incarnation : Nat) (host : String) (port : Nat)
    (metadata : Metadata) : (v.aliveKnown name x incarnation host port metadata).state.SuspectInv := by
  unfold Members.aliveKnown
  split; · exact h
  split; · exact h
  split; · exact h
  rw [cancel_if_eq h hx, Ret.ok_andThen, Ret.state_ok]
  refine SuspectInv.of_quiet ?_ ((quiet_broadcastAlive _ _).trans (quiet_emit_if _ _ _))
  exact h.update name _ false (by simp)

theorem SuspectInv.onNodeAlive (h : v.SuspectInv) (name : String) (incarnation : Nat)
    (host : String) (port : Nat) (metadata : Metadata) :
    (v.onNodeAlive name incarnation host port metadata).state.SuspectInv := by
  unfold Members.onNodeAlive
  cases hn : v.record name with
  | some x => exact h.aliveKnown hn _ _ _ _
  | none =>
    have hs : v.suspects name = false := by simpa [hn] using h name
    have h' : (v.setRecord name (Node.new name host port)).SuspectInv := by
      have := h.update name (Node.new name host port) false (by simp [Node.new])
      rwa [← hs, Function.update_eq_self] at this
    exact h'.aliveKnown (x := Node.new name host port) (by simp [Members.setRecord]) _ _ _ _

theorem SuspectInv.onNodeDead (h : v.SuspectInv) (name : String) (incarnation : Nat) :
    (v.onNodeDead name incarnation).state.SuspectInv := by
  unfold Members.onNodeDead
  split
  · exact h
  · rename_i x hx
    dsimp only
    split; · exact h
    split; · exact h
    split; · exact h.refute
    rw [cancel_if_eq h hx, Ret.ok_andThen]
    refine SuspectInv.of_quiet ?_ (quiet_andThen _ (quiet_broadcastDead _ _) _ fun _ => quiet_emit _ _)
    exact h.update name _ false (by simp)

theorem SuspectInv.onNodeSuspect (h : v.SuspectInv) (name : String) (incarnation : Nat)
    (metadata : Metadata) : (v.onNodeSuspect name incarnation metadata).state.SuspectInv := by
  unfold Members.onNodeSuspect
  split
  · exact h
  · dsimp only
    split; · exact h
    split; · exact h
    split; · exact h.refute
    refine SuspectInv.of_quiet ?_
      (quiet_andThen _ (quiet_broadcastSuspect _ _) _ fun _ => quiet_emit_if _ _ _)
    exact h.update name _ true (by simp)

theorem SuspectInv.setLocalNode (h : v.SuspectInv) (name host : String) (port : Nat)
    (metadata : Metadata) : (v.setLocalNode name host port metadata).state.SuspectInv :=
  SuspectInv.onNodeAlive (v := { v with localNodeName := some name, localNodeSeq := v.localNodeSeq + 1 })
    (h.congr rfl rfl) _ _ _ _ _

theorem SuspectInv.leaveLocalNode (h : v.SuspectInv) : v.leaveLocalNode.state.SuspectInv := by
  unfold Members.leaveLocalNode
  split
  · exact h
  · dsimp only
    split
    · exact h.congr rfl rfl
    · exact SuspectInv.onNodeDead (v := { v with leaving := true }) (h.congr rfl rfl) _ _

/-! ## No call raises `KeyError` -/

/-- The call does not end by raising `KeyError`. -/
def NoKeyError (r : Ret Members) : Prop := ∀ w, r ≠ .raised .keyError w

theorem noKeyError_ok (w : Members) : NoKeyError (.ok w) := fun _ h => nomatch h

theorem NoKeyError.andThen {a : Ret Members} {b : Members → Ret Members} (ha : NoKeyError a)
    (hb : ∀ w, a = .ok w → NoKeyError (b w)) : NoKeyError (a.andThen b) := by
  cases a with
  | ok w => exact hb w rfl
  | raised e w => exact ha

theorem noKeyError_broadcastSuspect (n : String) (x : Node) :
    NoKeyError (v.broadcastSuspect n x) := by
  unfold Members.broadcastSuspect; split <;> exact fun _ h => nomatch h

theorem noKeyError_broadcastDead (n : String) (x : Node) : NoKeyError (v.broadcastDead n x) := by
  unfold Members.broadcastDead; split <;> exact fun _ h => nomatch h

theorem noKeyError_refute : NoKeyError v.refute := by
  unfold Members.refute; dsimp only; split
  · exact fun _ h => nomatch h
  · split <;> exact fun _ h => nomatch h

theorem SuspectInv.noKeyError_aliveKnown (h : v.SuspectInv) {name : String} {x : Node}
    (hx : v.record name = some x) (incarnation : Nat) (host : String) (port : Nat)
    (metadata : Metadata) : NoKeyError (v.aliveKnown name x incarnation host port metadata) := by
  unfold Members.aliveKnown
  split; · exact noKeyError_ok _
  split; · exact noKeyError_ok _
  split; · exact noKeyError_ok _
  rw [cancel_if_eq h hx]
  exact noKeyError_ok _

theorem SuspectInv.noKeyError_onNodeAlive (h : v.SuspectInv) (name : String) (incarnation : Nat)
    (host : String) (port : Nat) (metadata : Metadata) :
    NoKeyError (v.onNodeAlive name incarnation host port metadata) := by
  unfold Members.onNodeAlive
  cases hn : v.record name with
  | some x => exact h.noKeyError_aliveKnown hn _ _ _ _
  | none =>
    have hs : v.suspects name = false := by simpa [hn] using h name
    have h' : (v.setRecord name (Node.new name host port)).SuspectInv := by
      have := h.update name (Node.new name host port) false (by simp [Node.new])
      rwa [← hs, Function.update_eq_self] at this
    exact h'.noKeyError_aliveKnown (x := Node.new name host port) (by simp [Members.setRecord]) _ _ _ _

theorem SuspectInv.noKeyError_onNodeDead (h : v.SuspectInv) (name : String) (incarnation : Nat) :
    NoKeyError (v.onNodeDead name incarnation) := by
  unfold Members.onNodeDead
  split
  · exact noKeyError_ok _
  · rename_i x hx
    dsimp only
    split; · exact noKeyError_ok _
    split; · exact noKeyError_ok _
    split; · exact noKeyError_refute
    rw [cancel_if_eq h hx, Ret.ok_andThen]
    exact (noKeyError_broadcastDead _ _).andThen fun _ _ => noKeyError_ok _

theorem noKeyError_onNodeSuspect (name : String) (incarnation : Nat) (metadata : Metadata) :
    NoKeyError (v.onNodeSuspect name incarnation metadata) := by
  unfold Members.onNodeSuspect
  split
  · exact noKeyError_ok _
  · dsimp only
    split; · exact noKeyError_ok _
    split; · exact noKeyError_ok _
    split; · exact noKeyError_refute
    exact (noKeyError_broadcastSuspect _ _).andThen fun _ _ => noKeyError_ok _

end Members

namespace Call

variable {L : String} {s : NodeManager} {v : Members}

theorem suspectInv_onMembers (h : v.SuspectInv) (c : Call) :
    (c.onMembers L s v).state.SuspectInv := by
  cases c with
  | alive => exact h.onNodeAlive _ _ _ _ _
  | suspect => exact h.onNodeSuspect _ _ _
  | dead => exact h.onNodeDead _ _
  | setLocalNode => exact h.setLocalNode _ _ _ _
  | leaveLocalNode => exact h.leaveLocalNode
  | fire => exact h
  | task => exact h.onNodeDead _ _

theorem noKeyError_onMembers (h : v.SuspectInv) (c : Call) : Members.NoKeyError (c.onMembers L s v) := by
  cases c with
  | alive => exact h.noKeyError_onNodeAlive _ _ _ _ _
  | suspect => exact Members.noKeyError_onNodeSuspect _ _ _
  | dead => exact h.noKeyError_onNodeDead _ _
  | setLocalNode =>
    exact Members.SuspectInv.noKeyError_onNodeAlive
      (v := { v with localNodeName := some L, localNodeSeq := v.localNodeSeq + 1 }) (h.congr rfl rfl) _ _ _ _ _
  | leaveLocalNode =>
    show Members.NoKeyError v.leaveLocalNode
    unfold Members.leaveLocalNode
    split
    · exact fun _ h => nomatch h
    · dsimp only
      split
      · exact fun _ h => nomatch h
      · exact Members.SuspectInv.noKeyError_onNodeDead (v := { v with leaving := true })
          (h.congr rfl rfl) _ _
  | fire => exact Members.noKeyError_ok _
  | task => exact h.noKeyError_onNodeDead _ _

end Call

theorem Reachable.suspectInv {L : String} {s : NodeManager} (hs : Reachable L s) :
    s.members.SuspectInv := by
  induction hs with
  | init => intro n; simp [NodeManager.members, NodeManager.record, NodeManager.init]
  | step c hr _ ih => rw [Call.members_run hr.wf]; exact Call.suspectInv_onMembers ih c

/-- **`_suspect_nodes` and the SUSPECT records agree** in every reachable state, and so no call
raises `KeyError`: the lookup of `_cancel_suspect_node` always finds its key. -/
theorem suspect_table_iff_suspect {L : String} {s : NodeManager} (hs : Reachable L s) :
    (∀ n, (s.suspectNodes n).isSome ↔ ∃ r, s.nodesMap n = some r ∧ (s.heap r).status = .suspect) ∧
    ∀ (c : Call) (s' : NodeManager), c.run L s ≠ .raised .keyError s' := by
  refine ⟨fun n => ?_, fun c s' hc => ?_⟩
  · have := hs.suspectInv n
    simp only [NodeManager.members_suspects, NodeManager.members_record, NodeManager.record,
      Option.map_map, Option.map_eq_some'] at this
    simpa using this
  · have hm := Call.map_run (L := L) hs.wf c
    rw [hc, Ret.map_raised] at hm
    exact Call.noKeyError_onMembers hs.suspectInv c _ hm.symm

/-- After `b` is discovered and suspected, `b` is in the table, and the ALIVE that cancels the
suspicion does not raise `KeyError`. -/
theorem suspect_table_after_suspicion :
    let s : NodeManager := ((Call.suspect "b" 1 fun _ => none).run "a"
      ((Call.alive "b" 1 "h" 1 (fun _ => none) 0).run "a" .init).state).state
    ((s.suspectNodes "b").isSome ↔ ∃ r, s.nodesMap "b" = some r ∧ (s.heap r).status = .suspect) ∧
    ∀ s', (Call.alive "b" 2 "h" 1 (fun _ => none) 0).run "a" s ≠ .raised .keyError s' :=
  let h := suspect_table_iff_suspect (.step (.suspect "b" 1 fun _ => none)
    (.step (.alive "b" 1 "h" 1 (fun _ => none) 0) .init trivial) trivial)
  ⟨h.1 "b", h.2 _⟩

end Tattle
