import Mathlib.Data.List.Nodup
import Tattle.State.NodeManager

/-!
# Random selection of nodes: `select_random_nodes` and its two callers

`select_random_nodes(k, nodes, predicate)` draws `random.choice(nodes)` until it has
`min(k, len(nodes))` nodes, skipping a node it already holds or one the predicate rejects, and
gives up after `3 * len(nodes) + 1` draws. The draws are a parameter: the `c`-th
`random.choice(nodes)` is `nodes[ω c % len(nodes)]`, and every sequence of outcomes is one `ω`.
For every `ω` the loop stops, after at most `3 * len(nodes) + 1` draws, with pairwise distinct
nodes of `nodes` that the predicate admits, at most `max(0, min(k, len(nodes)))` of them; it
stops short of `min(k, len(nodes))` only once every draw is spent.

`Cluster._probe_node_indirect` and `Cluster._do_sync` call it over the `NodeManager`, whose
`__len__` and `__getitem__` are those of `_nodes`: the nodes drawn are references to `Node`
objects, and `node in selected` compares them by identity, as `Node` has no `__eq__`. So the
relays of an indirect probe are distinct ALIVE nodes other than the target and the local node,
and the node a sync picks is neither the local node nor DEAD.

## Main definitions

* `admits`: the predicate check of the loop, where `None` admits every node
* `selectLoop`, `selectRandomNodes`: the `while` loop, and `select_random_nodes`
* `Cluster.indirectRelays`, `Cluster.syncNode`: the nodes `_probe_node_indirect` and `_do_sync`
  pick

## Main results

* `SelectInv.selectLoop`: the invariant of the loop holds at its exit, and so does the negation
  of its guard
* `selectRandomNodes_spec`: what every run of `select_random_nodes` returns
* `select_random_nodes_bounded`: that, and what it gives the two callers
-/

namespace Tattle

variable {α : Type}

/-! ## The loop -/

/-- `predicate is None or predicate(node)`: the check the loop makes of a drawn node. -/
def admits (predicate : Option (α → Bool)) (node : α) : Bool :=
  match predicate with
  | none => true
  | some p => p node

/-- The `while` loop of `select_random_nodes`, from `selected` after `c` draws; it returns
`selected` and `c` at its exit. The code sets `k = min(k, len(nodes))` before the loop, and the
guard compares with that value. The `c`-th `random.choice(nodes)` is `nodes[ω c % len(nodes)]`;
the guard makes `nodes` non-empty there. -/
def selectLoop [DecidableEq α] (k : Int) (nodes : List α) (predicate : Option (α → Bool)) (ω : Nat → Nat)
    (selected : List α) (c : Nat) : List α × Nat :=
  if h : (selected.length : Int) < min k nodes.length ∧ c ≤ 3 * nodes.length then
    let node := nodes.get ⟨ω c % nodes.length, Nat.mod_lt _ (by omega)⟩
    if node ∈ selected then selectLoop k nodes predicate ω selected (c + 1)
    else if admits predicate node then selectLoop k nodes predicate ω (selected ++ [node]) (c + 1)
    else selectLoop k nodes predicate ω selected (c + 1)
  else (selected, c)
termination_by 3 * nodes.length + 1 - c

/-- `select_random_nodes(k, nodes, predicate)`, with `ω` the outcomes of `random.choice`. -/
def selectRandomNodes [DecidableEq α] (k : Int) (nodes : List α) (predicate : Option (α → Bool))
    (ω : Nat → Nat) : List α :=
  (selectLoop k nodes predicate ω [] 0).1

/-! ## The invariant of the loop -/

section Invariant

variable {k : Int} {nodes : List α} {predicate : Option (α → Bool)} {selected : List α} {c : Nat}

/-- What `selected` and the draw counter `c` satisfy at every test of the guard. -/
structure SelectInv (k : Int) (nodes : List α) (predicate : Option (α → Bool))
    (selected : List α) (c : Nat) : Prop where
  nodup : selected.Nodup
  mem : ∀ x ∈ selected, x ∈ nodes ∧ admits predicate x = true
  length_le : (selected.length : Int) ≤ max 0 (min k nodes.length)
  draws_le : c ≤ 3 * nodes.length + 1

theorem SelectInv.init : SelectInv k nodes predicate [] 0 :=
  ⟨List.nodup_nil, fun _ h => absurd h (List.not_mem_nil _), Int.le_max_left 0 _, by omega⟩

/-- A draw the loop skips. -/
theorem SelectInv.skip (hi : SelectInv k nodes predicate selected c) (h : c ≤ 3 * nodes.length) :
    SelectInv k nodes predicate selected (c + 1) :=
  { hi with draws_le := by omega }

/-- A draw the loop keeps: a node of `nodes`, not yet selected, that the predicate admits. -/
theorem SelectInv.append (hi : SelectInv k nodes predicate selected c)
    (h : (selected.length : Int) < min k nodes.length ∧ c ≤ 3 * nodes.length) {x : α}
    (hx : x ∈ nodes) (hn : x ∉ selected) (hp : admits predicate x = true) :
    SelectInv k nodes predicate (selected ++ [x]) (c + 1) where
  nodup := List.nodup_append.2 ⟨hi.nodup, List.nodup_singleton x, List.disjoint_singleton.2 hn⟩
  mem y hy := by
    obtain hy | hy := List.mem_append.1 hy
    · exact hi.mem y hy
    · obtain rfl := List.mem_singleton.1 hy
      exact ⟨hx, hp⟩
  length_le := by simp only [List.length_append, List.length_singleton]; omega
  draws_le := by omega

/-- **The loop stops with its invariant**, and with its guard false: it holds
`min(k, len(nodes))` nodes, or it has spent every draw. -/
theorem SelectInv.selectLoop [DecidableEq α] (ω : Nat → Nat) (hi : SelectInv k nodes predicate selected c) :
    SelectInv k nodes predicate (Tattle.selectLoop k nodes predicate ω selected c).1
        (Tattle.selectLoop k nodes predicate ω selected c).2 ∧
      ¬(((Tattle.selectLoop k nodes predicate ω selected c).1.length : Int) < min k nodes.length ∧
        (Tattle.selectLoop k nodes predicate ω selected c).2 ≤ 3 * nodes.length) := by
  induction selected, c using Tattle.selectLoop.induct k nodes predicate ω with
  | case1 selected c h _ hin ih =>
    rw [Tattle.selectLoop, dif_pos h, if_pos hin]
    exact ih (hi.skip h.2)
  | case2 selected c h _ hin hp ih =>
    rw [Tattle.selectLoop, dif_pos h, if_neg hin, if_pos hp]
    exact ih (hi.append h (List.get_mem _ _ _) hin hp)
  | case3 selected c h _ hin hp ih =>
    rw [Tattle.selectLoop, dif_pos h, if_neg hin, if_neg hp]
    exact ih (hi.skip h.2)
  | case4 selected c h =>
    rw [Tattle.selectLoop, dif_neg h]
    exact ⟨hi, h⟩

end Invariant

/-- **Every run of `select_random_nodes`**, whatever `random.choice` returns: at most
`3 * len(nodes) + 1` draws, and pairwise distinct nodes of `nodes` that the predicate admits, at
most `max(0, min(k, len(nodes)))` of them, and fewer than `min(k, len(nodes))` only once every
draw is spent. -/
theorem selectRandomNodes_spec [DecidableEq α] (k : Int) (nodes : List α) (predicate : Option (α → Bool))
    (ω : Nat → Nat) :
    (selectLoop k nodes predicate ω [] 0).2 ≤ 3 * nodes.length + 1 ∧
      (selectRandomNodes k nodes predicate ω).Nodup ∧
      (∀ x ∈ selectRandomNodes k nodes predicate ω, x ∈ nodes ∧ admits predicate x = true) ∧
      ((selectRandomNodes k nodes predicate ω).length : Int) ≤ max 0 (min k nodes.length) ∧
      (((selectRandomNodes k nodes predicate ω).length : Int) < min k nodes.length →
        (selectLoop k nodes predicate ω [] 0).2 = 3 * nodes.length + 1) :=
  let ⟨hi, hexit⟩ := SelectInv.selectLoop ω (SelectInv.init : SelectInv k nodes predicate [] 0)
  ⟨hi.draws_le, hi.nodup, hi.mem, hi.length_le, fun hlt => by
    have := hi.draws_le
    simp only [selectRandomNodes] at hlt
    omega⟩

/-! ## The callers in `Cluster` -/

namespace Cluster

variable (s : NodeManager) (localNodeName : String)

/-- `_find_nodes` of `_probe_node_indirect(target_node, k)`, for the target's name. -/
def findIndirectNodes (target : String) (r : Nat) : Bool :=
  (s.heap r).name != target && (s.heap r).name != localNodeName && (s.heap r).status == .alive

/-- `_find_nodes` of `_do_sync`. -/
def findSyncNodes (r : Nat) : Bool :=
  (s.heap r).name != localNodeName && (s.heap r).status != .dead

/-- The relays `_probe_node_indirect(target_node, k)` makes a `_probe_node_indirect_via` for:
`select_random_nodes(k, self._nodes, _find_nodes)`. -/
def indirectRelays (target : String) (k : Int) (ω : Nat → Nat) : List Nat :=
  selectRandomNodes k s.nodes (some (findIndirectNodes s localNodeName target)) ω

/-- `sync_node` of `_do_sync`: the first node of
`select_random_nodes(self.config.sync_nodes, self._nodes, _find_nodes)`, or `None`. -/
def syncNode (syncNodes : Int) (ω : Nat → Nat) : Option Nat :=
  (selectRandomNodes syncNodes s.nodes (some (findSyncNodes s localNodeName)) ω).head?

/-- The relays of an indirect probe are distinct ALIVE nodes, neither the target nor the local
node. -/
theorem indirectRelays_spec (target : String) (k : Int) (ω : Nat → Nat) :
    (indirectRelays s localNodeName target k ω).Nodup ∧
      ∀ r ∈ indirectRelays s localNodeName target k ω, r ∈ s.nodes ∧ (s.heap r).name ≠ target ∧
        (s.heap r).name ≠ localNodeName ∧ (s.heap r).status = .alive := by
  obtain ⟨-, hnd, hmem, -⟩ :=
    selectRandomNodes_spec k s.nodes (some (findIndirectNodes s localNodeName target)) ω
  refine ⟨hnd, fun r hr => ?_⟩
  obtain ⟨hr, hp⟩ := hmem r hr
  simp only [admits, findIndirectNodes, Bool.and_eq_true, bne_iff_ne, beq_iff_eq] at hp
  exact ⟨hr, hp.1.1, hp.1.2, hp.2⟩

/-- The node a sync picks is neither the local node nor DEAD. -/
theorem syncNode_spec (syncNodes : Int) (ω : Nat → Nat) :
    ∀ r ∈ syncNode s localNodeName syncNodes ω,
      r ∈ s.nodes ∧ (s.heap r).name ≠ localNodeName ∧ (s.heap r).status ≠ .dead := by
  intro r hr
  obtain ⟨hr, hp⟩ := (selectRandomNodes_spec syncNodes s.nodes
    (some (findSyncNodes s localNodeName)) ω).2.2.1 r (List.mem_of_mem_head? hr)
  simp only [admits, findSyncNodes, Bool.and_eq_true, bne_iff_ne] at hp
  exact ⟨hr, hp⟩

end Cluster

/-- **`select_random_nodes` is bounded and sound for every draw sequence**: it returns fewer than
`min(k, len(nodes))` nodes only once every draw is spent; and the relays of an indirect probe and
the node of a sync are what their predicates ask. -/
theorem select_random_nodes_bounded :
    (∀ {α : Type} [DecidableEq α] (k : Int) (nodes : List α) (predicate : Option (α → Bool))
        (ω : Nat → Nat),
      (selectLoop k nodes predicate ω [] 0).2 ≤ 3 * nodes.length + 1 ∧
        (selectRandomNodes k nodes predicate ω).Nodup ∧
        (∀ x ∈ selectRandomNodes k nodes predicate ω, x ∈ nodes ∧ admits predicate x = true) ∧
        ((selectRandomNodes k nodes predicate ω).length : Int) ≤ max 0 (min k nodes.length) ∧
        (((selectRandomNodes k nodes predicate ω).length : Int) < min k nodes.length →
          (selectLoop k nodes predicate ω [] 0).2 = 3 * nodes.length + 1)) ∧
    (∀ (s : NodeManager) (localNodeName target : String) (k : Int) (ω : Nat → Nat),
      (Cluster.indirectRelays s localNodeName target k ω).Nodup ∧
        ∀ r ∈ Cluster.indirectRelays s localNodeName target k ω, r ∈ s.nodes ∧
          (s.heap r).name ≠ target ∧ (s.heap r).name ≠ localNodeName ∧
          (s.heap r).status = .alive) ∧
    ∀ (s : NodeManager) (localNodeName : String) (syncNodes : Int) (ω : Nat → Nat),
      ∀ r ∈ Cluster.syncNode s localNodeName syncNodes ω,
        r ∈ s.nodes ∧ (s.heap r).name ≠ localNodeName ∧ (s.heap r).status ≠ .dead :=
  ⟨selectRandomNodes_spec, Cluster.indirectRelays_spec, Cluster.syncNode_spec⟩

end Tattle
