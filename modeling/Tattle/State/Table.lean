import Mathlib.Data.List.Nodup
import Tattle.State.Records

/-!
# `_nodes` and `_nodes_map`

`NodeManager` keeps its records twice: in the list `_nodes`, whose order the probe cursor walks,
and in the dict `_nodes_map`, by name. Only the discovery branch of `on_node_alive` writes either:
it files a fresh `Node` under its name, appends it, and `_swap_random_nodes` exchanges it with the
node at the draw. Every other write goes through a reference and keeps the object's name.

So a call either keeps the table (`SameTable`: both containers, the allocation pointer, and every
object's name), or discovers one unknown name and then keeps the table (`Call.table_run`). The
invariants of the references follow from that one lemma: `WF` (`Call.wf_run`) and the agreement
of the two containers (`NodesInv`), and with it that no record is ever dropped.

## Main definitions

* `NodeManager.SameTable`: a step that leaves the references alone
* `NodeManager.NodesInv`: `_nodes` lists each record once, and `_nodes_map` files exactly those
  records, each under its name

## Main results

* `NodeManager.swapRandomNodes_perm`: the discovery swap permutes `_nodes`
* `Call.table_run`: what a call does to the references
* `Call.wf_run`, `Reachable.wf`: every call keeps `WF`
* `nodes_agree_with_map`: the two containers agree in every reachable state, and no record is lost
-/

namespace Tattle

namespace NodeManager

variable {s s' t : NodeManager}

/-- `s'` has the references of `s`: the same `_nodes`, `_nodes_map` and allocation pointer, and
every object keeps its name. -/
structure SameTable (s s' : NodeManager) : Prop where
  nodes : s'.nodes = s.nodes
  nodesMap : s'.nodesMap = s.nodesMap
  next : s'.next = s.next
  name : ∀ r, (s'.heap r).name = (s.heap r).name

theorem SameTable.refl (s : NodeManager) : SameTable s s := ⟨rfl, rfl, rfl, fun _ => rfl⟩

theorem SameTable.trans (h : SameTable s s') (h' : SameTable s' t) : SameTable s t :=
  ⟨h'.nodes.trans h.nodes, h'.nodesMap.trans h.nodesMap, h'.next.trans h.next,
    fun r => (h'.name r).trans (h.name r)⟩

/-- A write that leaves the heap and both containers as they were. -/
theorem sameTable_of_eq (hn : s'.nodes = s.nodes) (hm : s'.nodesMap = s.nodesMap)
    (hx : s'.next = s.next) (hh : s'.heap = s.heap) : SameTable s s' :=
  ⟨hn, hm, hx, fun r => by rw [hh]⟩

theorem SameTable.of_eq (h : SameTable s s') (hn : t.nodes = s'.nodes)
    (hm : t.nodesMap = s'.nodesMap) (hx : t.next = s'.next) (hh : t.heap = s'.heap) :
    SameTable s t :=
  h.trans (sameTable_of_eq hn hm hx hh)

/-- A write of the other fields, then a step that keeps the table. -/
theorem SameTable.of_eq_left (h : SameTable s' t) (hn : s'.nodes = s.nodes)
    (hm : s'.nodesMap = s.nodesMap) (hx : s'.next = s.next) (hh : s'.heap = s.heap) :
    SameTable s t :=
  (sameTable_of_eq hn hm hx hh).trans h

/-- A write through a reference that keeps the object's name. -/
theorem SameTable.setNode (h : SameTable s s') (r : Nat) {f : Node → Node}
    (hf : ∀ x, (f x).name = x.name) : SameTable s (s'.setNode r f) :=
  h.trans ⟨rfl, rfl, rfl, fun r' => by
    by_cases e : r' = r
    · subst e; simp [NodeManager.setNode, hf]
    · simp [NodeManager.setNode, Function.update_noteq e]⟩

theorem SameTable.broadcastAlive (h : SameTable s s') (r : Nat) :
    SameTable s (s'.broadcastAlive r) := h.of_eq rfl rfl rfl rfl

theorem SameTable.emit (h : SameTable s s') (st : Status) (r : Nat) : SameTable s (s'.emit st r) :=
  h.of_eq rfl rfl rfl rfl

theorem sameTable_andThen {a : Ret NodeManager} {b : NodeManager → Ret NodeManager}
    (ha : SameTable s a.state) (hb : ∀ t, SameTable s t → SameTable s (b t).state) :
    SameTable s (a.andThen b).state := by
  cases a with
  | ok t => exact hb t ha
  | raised e t => exact ha

/-! ## The helpers and the handlers keep the table

Each lemma follows its handler's branches; the writes are through references, with names kept. -/

theorem sameTable_cancel_if (r : Nat) (c : Prop) [Decidable c] :
    SameTable s (if c then s.cancelSuspectNode r else .ok s).state := by
  split
  · unfold cancelSuspectNode; split <;> exact sameTable_of_eq rfl rfl rfl rfl
  · exact .refl s

theorem sameTable_createSuspectNode (h : SameTable s s') (r : Nat) :
    SameTable s (s'.createSuspectNode r) := by
  unfold createSuspectNode; split <;> exact h.of_eq rfl rfl rfl rfl

theorem sameTable_broadcastSuspect (h : SameTable s s') (r : Nat) :
    SameTable s (s'.broadcastSuspect r).state := by
  unfold broadcastSuspect; split <;> exact h.of_eq rfl rfl rfl rfl

theorem sameTable_broadcastDead (h : SameTable s s') (r : Nat) :
    SameTable s (s'.broadcastDead r).state := by
  unfold broadcastDead; split <;> exact h.of_eq rfl rfl rfl rfl

theorem sameTable_refute : SameTable s s.refute.state := by
  unfold refute; dsimp only
  split
  · exact sameTable_of_eq rfl rfl rfl rfl
  · refine SameTable.broadcastAlive (SameTable.setNode ?_ _ fun _ => by rfl) _
    exact sameTable_of_eq rfl rfl rfl rfl

theorem sameTable_aliveKnown (r incarnation : Nat) (host : String) (port : Nat)
    (metadata : Metadata) : SameTable s (s.aliveKnown r incarnation host port metadata).state := by
  unfold aliveKnown; dsimp only
  split; · exact .refl s
  split; · exact .refl s
  split; · exact .refl s
  refine sameTable_andThen (sameTable_cancel_if r _) fun t ht => ?_
  split
  · exact SameTable.emit (SameTable.broadcastAlive (SameTable.setNode ht r fun _ => by rfl) r) _ _
  · exact SameTable.broadcastAlive (SameTable.setNode ht r fun _ => by rfl) r

theorem sameTable_onNodeDead (name : String) (incarnation : Nat) :
    SameTable s (s.onNodeDead name incarnation).state := by
  unfold onNodeDead
  split; · exact .refl s
  dsimp only
  split; · exact .refl s
  split; · exact .refl s
  split; · exact sameTable_refute
  rename_i r _ _ _ _
  refine sameTable_andThen (sameTable_cancel_if r _) fun t ht => ?_
  refine sameTable_andThen (sameTable_broadcastDead (SameTable.setNode ht r fun _ => by rfl) r)
    fun u hu => ?_
  exact hu.emit _ _

theorem sameTable_onNodeSuspect (name : String) (incarnation : Nat) (metadata : Metadata) :
    SameTable s (s.onNodeSuspect name incarnation metadata).state := by
  unfold onNodeSuspect
  split; · exact .refl s
  dsimp only
  split; · exact .refl s
  split; · exact .refl s
  split; · exact sameTable_refute
  rename_i r _ _ _ _
  refine sameTable_andThen (sameTable_broadcastSuspect (SameTable.setNode
    (sameTable_createSuspectNode (SameTable.setNode (.refl s) r fun _ => by rfl) r) r
    fun _ => by rfl) r) fun u hu => ?_
  split <;> exact hu.of_eq rfl rfl rfl rfl

/-- `on_node_alive` keeps the table, or discovers `name`, unknown before, and keeps the table of
the state discovery left. -/
theorem table_onNodeAlive (name : String) (incarnation : Nat) (host : String) (port : Nat)
    (metadata : Metadata) (i : Nat) :
    SameTable s (s.onNodeAlive name incarnation host port metadata i).state ∨
      s.nodesMap name = none ∧
        SameTable (s.addNode name host port i) (s.onNodeAlive name incarnation host port metadata i).state := by
  unfold onNodeAlive
  split
  · exact .inl (sameTable_aliveKnown _ _ _ _ _)
  · exact .inr ⟨‹_›, sameTable_aliveKnown _ _ _ _ _⟩

/-! ## The discovery swap -/

/-- Exchanging two entries of a list permutes it. -/
theorem perm_set_set {l : List Nat} {j k : Nat} (hj : j < l.length) (hk : k < l.length) :
    ((l.set j l[k]).set k l[j]).Perm l := by
  rw [List.perm_iff_count]
  intro b
  have hk' : k < (l.set j l[k]).length := by simpa using hk
  rw [List.count_set _ _ _ _ hk', List.count_set _ _ _ _ hj, List.getElem_set, ite_self]
  have := List.boole_getElem_le_count b l j hj
  omega

/-- **`_swap_random_nodes` only permutes `_nodes`**, whatever the draw. -/
theorem swapRandomNodes_perm (nodes : List Nat) (i : Nat) : (swapRandomNodes nodes i).Perm nodes := by
  cases nodes with
  | nil => exact .nil
  | cons r rs =>
    have hj := Nat.mod_lt i (List.length_pos.mpr (List.cons_ne_nil r rs))
    have hk : (r :: rs).length - 1 < (r :: rs).length := by simp
    unfold swapRandomNodes
    simp only [List.getD_eq_getElem?_getD, List.getElem?_eq_getElem hj,
      List.getElem?_eq_getElem hk, Option.getD_some]
    exact perm_set_set hj hk

/-! ## `WF` and the agreement of the two containers -/

theorem WF.of_sameTable (h : s.WF) (ht : SameTable s s') : s'.WF where
  lt_next hr := ht.next ▸ h.lt_next (ht.nodesMap ▸ hr)
  name_eq {_ r} hr := (ht.name r).trans (h.name_eq (ht.nodesMap ▸ hr))

/-- `_nodes` lists each record once, and `_nodes_map` files exactly the records of `_nodes`, each
under its name. -/
structure NodesInv (s : NodeManager) : Prop where
  nodup : s.nodes.Nodup
  map_iff : ∀ n r, s.nodesMap n = some r ↔ r ∈ s.nodes ∧ (s.heap r).name = n

theorem NodesInv.of_sameTable (h : s.NodesInv) (ht : SameTable s s') : s'.NodesInv where
  nodup := ht.nodes ▸ h.nodup
  map_iff n r := by rw [ht.nodesMap, ht.nodes, ht.name]; exact h.map_iff n r

/-- The fresh reference is in neither container. -/
theorem NodesInv.next_not_mem (h : s.NodesInv) (hw : s.WF) : s.next ∉ s.nodes := fun hm =>
  Nat.lt_irrefl _ (hw.lt_next ((h.map_iff _ _).mpr ⟨hm, rfl⟩))

/-- Discovery of an unknown name keeps the agreement: the fresh record is appended once and
filed under its name. -/
theorem NodesInv.addNode (h : s.NodesInv) (hw : s.WF) {name : String}
    (hn : s.nodesMap name = none) (host : String) (port i : Nat) :
    (s.addNode name host port i).NodesInv where
  nodup := (swapRandomNodes_perm _ i).nodup_iff.mpr
    (List.nodup_append.mpr ⟨h.nodup, List.nodup_singleton _,
      List.disjoint_singleton.mpr (h.next_not_mem hw)⟩)
  map_iff n r := by
    simp only [NodeManager.addNode, (swapRandomNodes_perm _ i).mem_iff, List.mem_append,
      List.mem_singleton]
    by_cases hr : r = s.next
    · subst hr
      by_cases hm : n = name
      · subst hm; simp [Node.new]
      · simp only [Function.update_noteq hm, Function.update_same, Node.new, Ne.symm hm,
          and_false, iff_false]
        exact fun he => Nat.lt_irrefl _ (hw.lt_next he)
    · simp only [Function.update_noteq hr, hr, or_false]
      by_cases hm : n = name
      · subst hm
        simp only [Function.update_same, Option.some.injEq, Ne.symm hr, false_iff, not_and]
        exact fun hmem he => by simp [(h.map_iff _ _).mpr ⟨hmem, he⟩] at hn
      · rw [Function.update_noteq hm, h.map_iff]

end NodeManager

/-! ## Every call -/

namespace Call

variable {L : String} {s : NodeManager}

open NodeManager in
/-- **What a call does to the references**: it keeps the table, or it discovers one unknown name
and then keeps the table discovery left. -/
theorem table_run (c : Call) :
    SameTable s (c.run L s).state ∨
      ∃ name host port i, s.nodesMap name = none ∧
        SameTable (s.addNode name host port i) (c.run L s).state := by
  cases c with
  | alive name _ host port _ i =>
    exact (table_onNodeAlive _ _ _ _ _ _).imp_right fun h => ⟨name, host, port, i, h⟩
  | suspect => exact .inl (sameTable_onNodeSuspect _ _ _)
  | dead => exact .inl (sameTable_onNodeDead _ _)
  | setLocalNode host port md i =>
    rcases table_onNodeAlive (s := { s with localNodeName := some L, localNodeSeq := s.localNodeSeq + 1 })
      L (s.localNodeSeq + 1) host port md i with h | ⟨hn, h⟩
    · exact .inl (h.of_eq_left rfl rfl rfl rfl)
    · exact .inr ⟨L, host, port, i, hn, h.of_eq_left rfl rfl rfl rfl⟩
  | leaveLocalNode =>
    show SameTable s s.leaveLocalNode.state ∨ _
    unfold NodeManager.leaveLocalNode
    split; · exact .inl (.refl s)
    dsimp only
    split
    · exact .inl (sameTable_of_eq rfl rfl rfl rfl)
    · exact .inl ((sameTable_onNodeDead _ _).of_eq_left rfl rfl rfl rfl)
  | fire => exact .inl (sameTable_of_eq rfl rfl rfl rfl)
  | task k =>
    exact .inl ((sameTable_onNodeDead (s := { s with tasks := s.tasks.erase k }) _ _).of_eq_left
      rfl rfl rfl rfl)

theorem wf_run (h : s.WF) (c : Call) : (c.run L s).state.WF := by
  rcases table_run (L := L) (s := s) c with ht | ⟨_, _, _, _, -, ht⟩
  · exact h.of_sameTable ht
  · exact (h.addNode _ _ _).of_sameTable ht

theorem nodesInv_run (h : s.NodesInv) (hw : s.WF) (c : Call) : (c.run L s).state.NodesInv := by
  rcases table_run (L := L) (s := s) c with ht | ⟨_, _, _, _, hn, ht⟩
  · exact h.of_sameTable ht
  · exact (h.addNode hw hn _ _ _).of_sameTable ht

/-- A call keeps `_nodes` up to order, or appends the discovered record to it. -/
theorem nodes_run (c : Call) :
    (c.run L s).state.nodes.Perm s.nodes ∨ (c.run L s).state.nodes.Perm (s.nodes ++ [s.next]) := by
  rcases table_run (L := L) (s := s) c with ht | ⟨_, _, _, i, -, ht⟩
  · exact .inl (ht.nodes ▸ .refl _)
  · exact .inr (ht.nodes ▸ NodeManager.swapRandomNodes_perm _ i)

theorem mem_nodes_run {r : Nat} (hr : r ∈ s.nodes) (c : Call) : r ∈ (c.run L s).state.nodes := by
  rcases nodes_run (L := L) (s := s) c with h | h
  · exact h.mem_iff.mpr hr
  · exact h.mem_iff.mpr (List.mem_append_left _ hr)

/-- A call keeps every entry of `_nodes_map`. -/
theorem nodesMap_run {n : String} {r : Nat} (hr : s.nodesMap n = some r) (c : Call) :
    (c.run L s).state.nodesMap n = some r := by
  rcases table_run (L := L) (s := s) c with ht | ⟨name, _, _, _, hn, ht⟩
  · rw [ht.nodesMap, hr]
  · have hne : n ≠ name := fun e => by rw [e, hn] at hr; cases hr
    rw [ht.nodesMap]; simp [NodeManager.addNode, Function.update_noteq hne, hr]

end Call

theorem Reachable.wf {L : String} {s : NodeManager} (hs : Reachable L s) : s.WF := by
  induction hs with
  | init => exact ⟨fun h => (nomatch h), fun h => (nomatch h)⟩
  | step c _ _ ih => exact Call.wf_run ih c

theorem Reachable.nodesInv {L : String} {s : NodeManager} (hs : Reachable L s) : s.NodesInv := by
  induction hs with
  | init => exact ⟨.nil, fun _ _ => by simp [NodeManager.init]⟩
  | step c hr _ ih => exact Call.nodesInv_run ih hr.wf c

/-- A run keeps every record of `_nodes` and every entry of `_nodes_map`. -/
theorem Run.keeps_records {L : String} {s s' : NodeManager} {cs : List Call} (hr : Run L s cs s') :
    (∀ r ∈ s.nodes, r ∈ s'.nodes) ∧ ∀ n r, s.nodesMap n = some r → s'.nodesMap n = some r := by
  induction hr with
  | nil => exact ⟨fun _ h => h, fun _ _ h => h⟩
  | cons _ _ ih =>
    exact ⟨fun r h => ih.1 r (Call.mem_nodes_run h _), fun n r h => ih.2 n r (Call.nodesMap_run h _)⟩

/-- **`_nodes` and `_nodes_map` agree, and no record is lost.** In every reachable state of a node
named `L`, no two records of `_nodes` share a name, and `_nodes_map` files under `n` exactly the
record of `_nodes` named `n`. Every call keeps `_nodes` up to order, or appends the one record it
discovers and permutes; and every run from there keeps every record of `_nodes` and every entry of
`_nodes_map`. -/
theorem nodes_agree_with_map {L : String} {s : NodeManager} (hs : Reachable L s) :
    (s.nodes.map fun r => (s.heap r).name).Nodup ∧
    (∀ n r, s.nodesMap n = some r ↔ r ∈ s.nodes ∧ (s.heap r).name = n) ∧
    (∀ c : Call, (c.run L s).state.nodes.Perm s.nodes ∨
      (c.run L s).state.nodes.Perm (s.nodes ++ [s.next])) ∧
    ∀ cs s', Run L s cs s' →
      (∀ r ∈ s.nodes, r ∈ s'.nodes) ∧ ∀ n r, s.nodesMap n = some r → s'.nodesMap n = some r := by
  have h := hs.nodesInv
  refine ⟨h.nodup.map_on fun r hr r' hr' he => ?_, h.map_iff, Call.nodes_run, fun _ _ => Run.keeps_records⟩
  have h1 := (h.map_iff _ r).mpr ⟨hr, rfl⟩
  have h2 := (h.map_iff _ r').mpr ⟨hr', he.symm⟩
  exact Option.some.inj (h1.symm.trans h2)

/-- Node `a` starts and discovers `b`: the swap puts `b` first, and the two containers agree. -/
theorem nodes_agree_after_discovery :
    let s : NodeManager := ((Call.alive "b" 1 "h" 2 (fun _ => none) 0).run "a"
      ((Call.setLocalNode "h" 1 (fun _ => none) 0).run "a" .init).state).state
    (s.nodes.map fun r => (s.heap r).name) = ["b", "a"] ∧
    (s.nodes.map fun r => (s.heap r).name).Nodup ∧
    (∀ n r, s.nodesMap n = some r ↔ r ∈ s.nodes ∧ (s.heap r).name = n) ∧
    (∀ c : Call, (c.run "a" s).state.nodes.Perm s.nodes ∨
      (c.run "a" s).state.nodes.Perm (s.nodes ++ [s.next])) ∧
    ∀ cs s', Run "a" s cs s' →
      (∀ r ∈ s.nodes, r ∈ s'.nodes) ∧ ∀ n r, s.nodesMap n = some r → s'.nodesMap n = some r := by
  intro s
  exact ⟨by decide, nodes_agree_with_map (.step _ (.step _ .init trivial) trivial)⟩

end Tattle
