import Tattle.State.Handlers

/-!
# Records by name

`_nodes_map` refers to `Node` objects, and a handler writes through the reference it looked up.
`WF` says what makes the references behave as names: every reference in `_nodes_map` is
allocated, and the object it refers to carries the name it is filed under. Then two names never
share an object, `current_node is self.local_node` holds exactly for the local node's name, and a
write through one reference changes the record of one name (`record_setNode`).

The writes the handlers make keep `WF` (`WF.setNode`, `WF.addNode`); that every call does is
`Call.wf_run`, once the handlers are read on names.

## Main definitions

* `NodeManager.record n`: the record `_nodes_map` files under `n`
* `NodeManager.WF`: references in `_nodes_map` are allocated and carry their key as name

## Main results

* `WF.setNode`, `WF.addNode`: the writes keep `WF`
* `record_setNode`, `record_addNode`: a write through a reference is a write at one name
* `local_iff`: the local-node test compares names
-/

namespace Tattle

namespace NodeManager

variable (s : NodeManager)

/-- The record `_nodes_map` files under `n`. -/
def record (n : String) : Option Node := (s.nodesMap n).map s.heap

/-- The references of `_nodes_map` are allocated objects that carry the name they are filed
under. -/
structure WF : Prop where
  lt_next : ∀ {n r}, s.nodesMap n = some r → r < s.next
  name_eq : ∀ {n r}, s.nodesMap n = some r → (s.heap r).name = n

variable {s}

theorem WF.eq_of_ref (h : s.WF) {n m : String} {r : Nat} (hn : s.nodesMap n = some r)
    (hm : s.nodesMap m = some r) : m = n := by
  rw [← h.name_eq hn, ← h.name_eq hm]

theorem WF.record_name (h : s.WF) {n : String} {x : Node} (hx : s.record n = some x) :
    x.name = n := by
  obtain ⟨r, hr, rfl⟩ := Option.map_eq_some'.mp hx
  exact h.name_eq hr

/-- A write through the reference filed under `n` writes the record of `n` only. -/
theorem record_setNode (h : s.WF) {n : String} {r : Nat} (hr : s.nodesMap n = some r)
    (f : Node → Node) (m : String) :
    (s.setNode r f).record m = if m = n then some (f (s.heap r)) else s.record m := by
  unfold record setNode
  split_ifs with hm
  · subst hm; simp [hr]
  · cases hm' : s.nodesMap m with
    | none => rfl
    | some r' =>
      have : r' ≠ r := fun e => hm (h.eq_of_ref hr (e ▸ hm'))
      simp [Function.update_noteq this]

/-- Discovery files a fresh `Node(name, host, port)` under `n` and changes no other record. -/
theorem record_addNode (h : s.WF) {n : String} (hn : s.nodesMap n = none) (host : String)
    (port i : Nat) (m : String) :
    (s.addNode n host port i).record m =
      if m = n then some (Node.new n host port) else s.record m := by
  unfold record addNode
  split_ifs with hm
  · subst hm; simp
  · cases hm' : s.nodesMap m with
    | none => simp [Function.update_noteq hm, hm']
    | some r' => simp [Function.update_noteq hm, hm', Function.update_noteq (Nat.ne_of_lt (h.lt_next hm'))]

theorem WF.setNode (h : s.WF) (r : Nat) {f : Node → Node}
    (hf : ∀ x, (f x).name = x.name) : (s.setNode r f).WF where
  lt_next := h.lt_next
  name_eq {n r'} hr' := by
    unfold NodeManager.setNode
    by_cases e : r' = r
    · subst e; simp [hf, h.name_eq hr']
    · simp [Function.update_noteq e, h.name_eq hr']

theorem WF.addNode (h : s.WF) {n : String} (host : String) (port i : Nat) :
    (s.addNode n host port i).WF where
  lt_next {m r} hr := by
    unfold NodeManager.addNode at hr ⊢
    by_cases hm : m = n
    · subst hm; simp at hr; subst hr; exact Nat.lt_succ_self _
    · simp [Function.update_noteq hm] at hr; exact Nat.lt_succ_of_lt (h.lt_next hr)
  name_eq {m r} hr := by
    unfold NodeManager.addNode at hr ⊢
    by_cases hm : m = n
    · subst hm; simp at hr; subst hr; simp [Node.new]
    · simp [Function.update_noteq hm] at hr
      simp [Function.update_noteq (Nat.ne_of_lt (h.lt_next hr)), h.name_eq hr]

@[simp] theorem setNode_heap_self (r : Nat) (f : Node → Node) : (s.setNode r f).heap r = f (s.heap r) :=
  Function.update_same _ _ _

@[simp] theorem setNode_nodesMap (r : Nat) (f : Node → Node) : (s.setNode r f).nodesMap = s.nodesMap :=
  rfl

theorem WF.broadcastAlive (h : s.WF) (r : Nat) : (s.broadcastAlive r).WF := ⟨h.lt_next, h.name_eq⟩

@[simp] theorem broadcastAlive_nodesMap (r : Nat) : (s.broadcastAlive r).nodesMap = s.nodesMap := rfl

@[simp] theorem broadcastAlive_heap (r : Nat) : (s.broadcastAlive r).heap = s.heap := rfl

/-- `current_node is self.local_node` compares the names. -/
theorem local_iff (h : s.WF) {n : String} {r : Nat} (hr : s.nodesMap n = some r) :
    s.localNode = some r ↔ s.localNodeName = some n := by
  unfold localNode
  constructor
  · intro hl
    obtain ⟨m, hm, hmr⟩ := Option.bind_eq_some.mp hl
    rw [hm, h.eq_of_ref hr hmr]
  · intro hl; simp [hl, hr]

end NodeManager

end Tattle
