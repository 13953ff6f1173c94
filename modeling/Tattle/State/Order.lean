import Tattle.State.Cases

/-!
# The order in which a record moves

For a name other than the local node's, `on_node_alive` accepts only a higher incarnation,
`on_node_suspect` and `on_node_dead` only one at least as high and only while the record is not
DEAD, and they set SUSPECT and DEAD; a suspicion timer's task is `on_node_dead` again, with
whatever incarnation it reads. So each step moves the record up the lexicographic order of
(incarnation, status) with ALIVE < SUSPECT < DEAD (`Node.Lex`), and so does every run.

The one write to a record the handlers make about another name is `_refute`'s, which writes the
local record; the local name is the configured one or not set yet (`Reachable.localInv`).

## Main definitions

* `Node.Lex`: the order of (incarnation, status)

## Main results

* `Call.recLex_onMembers`: one call, on names
* `record_lex_of_ne_local`: every step and every run, on the heap model
-/

namespace Tattle

/-- `x'` is no earlier than `x`: a higher incarnation, or the same one and a status no lower in
ALIVE < SUSPECT < DEAD. -/
def Node.Lex (x x' : Node) : Prop :=
  x.incarnation < x'.incarnation ∨ (x.incarnation = x'.incarnation ∧ x.status.rank ≤ x'.status.rank)

theorem Node.Lex.refl (x : Node) : x.Lex x := .inr ⟨rfl, Nat.le_refl _⟩

theorem Node.Lex.trans {x y z : Node} (h : x.Lex y) (h' : y.Lex z) : x.Lex z := by
  unfold Node.Lex at *; omega

namespace Members

variable {v v' : Members} {n : String}

/-- The record of `n` in `v'` exists if it does in `v`, and is no earlier. -/
def RecLex (n : String) (v v' : Members) : Prop :=
  ∀ x, v.record n = some x → ∃ x', v'.record n = some x' ∧ x.Lex x'

theorem RecLex.of_record (h : v'.record n = v.record n) : RecLex n v v' :=
  fun x hx => ⟨x, h.trans hx, .refl x⟩

theorem RecLex.trans {v'' : Members} (h : RecLex n v v') (h' : RecLex n v' v'') : RecLex n v v'' :=
  fun x hx =>
    let ⟨y, hy, hxy⟩ := h x hx
    let ⟨z, hz, hyz⟩ := h' y hy
    ⟨z, hz, hxy.trans hyz⟩

theorem RecLex.of_quiet (h : RecLex n v v') {v'' : Members} (hq : Quiet v' v'') : RecLex n v v'' :=
  h.trans (.of_record (congrFun hq.record n))

theorem recLex_setRecord_of_ne {m : String} (x : Node) (hm : m ≠ n) :
    RecLex n v (v.setRecord m x) :=
  .of_record (Function.update_noteq (Ne.symm hm) _ _)

theorem recLex_setRecord {x x' : Node} (hx : v.record n = some x) (hl : x.Lex x') :
    RecLex n v (v.setRecord n x') := by
  intro y hy
  rw [hx] at hy; cases hy
  exact ⟨x', Function.update_same _ _ _, hl⟩

/-- `_refute` writes the local record only. -/
theorem recLex_refute (hn : v.localNodeName ≠ some n) : RecLex n v v.refute.state := by
  unfold Members.refute
  cases hL : v.localNodeName with
  | none => exact .of_record rfl
  | some L =>
    dsimp only
    cases hx : v.record L with
    | none => exact .of_record rfl
    | some x =>
      have hLn : L ≠ n := by rintro rfl; exact hn hL
      exact .of_record (by simp [Members.broadcastAlive, Members.push, Members.setRecord,
        Function.update_noteq hLn.symm])

/-- A handler's write of the record of `name`. -/
theorem recLex_write {name : String} {x x' : Node} (hx : v.record name = some x)
    (hl : name = n → x.Lex x') (hv : v'.record = Function.update v.record name (some x')) :
    RecLex n v v' := by
  rw [show v' = { v' with record := v'.record } from rfl, hv]
  by_cases hm : name = n
  · subst hm; exact recLex_setRecord hx (hl rfl)
  · exact recLex_setRecord_of_ne _ hm

section Handlers

variable (hi : v.SuspectInv) (hn : v.localNodeName ≠ some n)
include hi hn

theorem recLex_aliveKnown {name : String} {x : Node} (hx : v.record name = some x)
    (incarnation : Nat) (host : String) (port : Nat) (metadata : Metadata) :
    RecLex n v (v.aliveKnown name x incarnation host port metadata).state := by
  unfold Members.aliveKnown
  split; · exact .of_record rfl
  split; · exact .of_record rfl
  rename_i _ h2
  split; · exact .of_record rfl
  rw [cancel_if_eq hi hx, Ret.ok_andThen, Ret.state_ok]
  refine RecLex.of_quiet ?_ ((quiet_broadcastAlive _ _).trans (quiet_emit_if _ _ _))
  refine recLex_write hx (fun e => .inl ?_) rfl
  subst e
  simp only [not_and, Nat.not_le] at h2
  exact h2 hn

theorem recLex_onNodeAlive (name : String) (incarnation : Nat) (host : String) (port : Nat)
    (metadata : Metadata) : RecLex n v (v.onNodeAlive name incarnation host port metadata).state := by
  unfold Members.onNodeAlive
  cases hx : v.record name with
  | some x => exact recLex_aliveKnown hi hn hx _ _ _ _
  | none =>
    have hs : v.suspects name = false := by simpa [hx] using hi name
    have hi' : (v.setRecord name (Node.new name host port)).SuspectInv := by
      have := hi.update name (Node.new name host port) false (by simp [Node.new])
      rwa [← hs, Function.update_eq_self] at this
    have h1 : RecLex n v (v.setRecord name (Node.new name host port)) := by
      intro y hy
      by_cases hm : name = n
      · subst hm; rw [hx] at hy; cases hy
      · exact ⟨y, (Function.update_noteq (Ne.symm hm) _ _).trans hy, .refl y⟩
    exact h1.trans (recLex_aliveKnown hi' hn (x := Node.new name host port)
      (by simp [Members.setRecord]) _ _ _ _)

theorem recLex_onNodeDead (name : String) (incarnation : Nat) :
    RecLex n v (v.onNodeDead name incarnation).state := by
  unfold Members.onNodeDead
  cases hx : v.record name with
  | none => exact .of_record rfl
  | some x =>
    dsimp only
    split; · exact .of_record rfl
    rename_i h1
    split; · exact .of_record rfl
    rename_i h2
    split; · exact recLex_refute hn
    rename_i h3
    rw [cancel_if_eq hi hx, Ret.ok_andThen]
    refine RecLex.of_quiet ?_ (quiet_andThen _ (quiet_broadcastDead _ _) _ fun _ => quiet_emit _ _)
    refine recLex_write hx (fun _ => ?_) rfl
    unfold Node.Lex
    cases hs : x.status <;> simp [Status.rank] <;> omega

omit hi in
theorem recLex_onNodeSuspect (name : String) (incarnation : Nat) (metadata : Metadata) :
    RecLex n v (v.onNodeSuspect name incarnation metadata).state := by
  unfold Members.onNodeSuspect
  cases hx : v.record name with
  | none => exact .of_record rfl
  | some x =>
    dsimp only
    split; · exact .of_record rfl
    rename_i h1
    split; · exact .of_record rfl
    rename_i h2
    split; · exact recLex_refute hn
    refine RecLex.of_quiet ?_
      (quiet_andThen _ (quiet_broadcastSuspect _ _) _ fun _ => quiet_emit_if _ _ _)
    refine recLex_write hx (fun _ => ?_) rfl
    unfold Node.Lex
    cases hs : x.status <;> simp_all [Status.rank] <;> omega

end Handlers

end Members

namespace Call

variable {L : String} {s : NodeManager} {v : Members} {n : String}

open Members in
/-- One call moves the record of a name other than `L` up the order, on names. -/
theorem recLex_onMembers (hi : v.SuspectInv) (hL : v.LocalInv L) (hn : n ≠ L) (c : Call) :
    RecLex n v (c.onMembers L s v).state := by
  have hn' := hL.ne_local hn
  cases c with
  | alive => exact recLex_onNodeAlive hi hn' _ _ _ _ _
  | suspect => exact recLex_onNodeSuspect hn' _ _ _
  | dead => exact recLex_onNodeDead hi hn' _ _
  | setLocalNode =>
    exact recLex_onNodeAlive (v := { v with localNodeName := some L, localNodeSeq := v.localNodeSeq + 1 })
      (hi.congr rfl rfl) (by simpa using Ne.symm hn) _ _ _ _ _
  | leaveLocalNode =>
    show RecLex n v v.leaveLocalNode.state
    rcases leaveLocalNode_cases (v := v) with ⟨-, h'⟩ | ⟨L', -, ⟨-, h'⟩ | ⟨x, -, h'⟩⟩ <;> rw [h']
    · exact .of_record rfl
    · exact .of_record rfl
    · exact recLex_onNodeDead (v := { v with leaving := true }) (hi.congr rfl rfl) hn' _ _
  | fire => exact .of_record rfl
  | task => exact recLex_onNodeDead hi hn' _ _

end Call

/-- **The record of every other node only moves up the order** on a node named `L`: from a
reachable state, one call of any kind with any arguments keeps the record of a name `n ≠ L`
and moves its (incarnation, status) up `Node.Lex`, and so does every run. -/
theorem record_lex_of_ne_local {L : String} {s : NodeManager} (hs : Reachable L s) {n : String}
    (hn : n ≠ L) :
    (∀ (c : Call) (x : Node), s.record n = some x →
      ∃ x', (c.run L s).state.record n = some x' ∧ x.Lex x') ∧
    ∀ (cs : List Call) (s' : NodeManager), Run L s cs s' → ∀ x, s.record n = some x →
      ∃ x', s'.record n = some x' ∧ x.Lex x' := by
  have step : ∀ {s : NodeManager}, Reachable L s → ∀ c : Call,
      Members.RecLex n s.members (c.run L s).state.members := fun hs c => by
    rw [Call.members_run hs.wf]
    exact Call.recLex_onMembers hs.suspectInv hs.localInv hn c
  refine ⟨step hs, fun cs s' hr => ?_⟩
  show Members.RecLex n s.members s'.members
  induction hr with
  | nil => exact .of_record rfl
  | cons he _ ih => exact (step hs _).trans (ih (hs.step _ he))

/-- Once `b` is known ALIVE at incarnation 1, a SUSPECT about it moves it up the order. -/
theorem record_lex_after_discovery :
    ∃ x', ((Call.suspect "b" 1 fun _ => none).run "a"
        ((Call.alive "b" 1 "h" 1 (fun _ => none) 0).run "a" .init).state).state.record "b" = some x' ∧
      ((Node.new "b" "h" 1).aliveWrite 1 fun _ => none).Lex x' :=
  (record_lex_of_ne_local (.step (.alive "b" 1 "h" 1 (fun _ => none) 0) .init trivial) (by decide)).1 _ _ rfl

end Tattle
