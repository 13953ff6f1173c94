import Mathlib.Data.List.Rotate
import Tattle.State.NodeManager

/-!
# The probe cursor of `Cluster._do_probe`

Each tick of the probe schedule, `_do_probe` walks `_nodes` from `_probe_index`, skipping the
local node and DEAD nodes, and probes the first node it does not skip, leaving the cursor one
past it. The walk wraps to 0 at the end of the list without counting the wrap, and stops once
it has skipped `len(_nodes)` nodes. Positions are what the cursor ranges over, so the walk is
stated over them: from a cursor `c ≤ len(_nodes)` it visits `(List.range n).rotate c`, the cyclic
order from `c`, which starts at 0 when `c = n`.

The loop terminates by a measure on the checked counter and the cursor together
(`doProbeLoop`'s `termination_by`): a skip counts, and a wrap, which does not, leaves a cursor
that cannot wrap again. It picks the first eligible position in cyclic order from `c`
(`doProbeLoop_eq`). The eligible positions in cyclic order from the cursor then rotate by one
at each tick (`window_tick`), so while the membership and statuses stay as they are, any
`E` consecutive ticks probe the `E` eligible nodes, each once (`probeTicks_window`).

## Main definitions

* `doProbeLoop`: the `while` loop of `_do_probe`, on any list and any skip test
* `probeTicks`: what successive ticks probe, from a cursor
* `Cluster.probeSkip`, `Cluster.doProbe`: the test `_do_probe` skips a node by, and one tick

## Main results

* `doProbeLoop_eq`: the loop picks the first eligible position in cyclic order from the cursor
* `probeTicks_window`: every `E` consecutive ticks probe each eligible node once
* `do_probe_round_robin`: the same for the `Cluster` and its `NodeManager`
-/

namespace Tattle

variable {α : Type}

/-! ## The loop -/

/-- The `while` loop of `_do_probe` from the cursor `index` with `checked` nodes skipped; it
returns the node to probe, if any, and the cursor it leaves. -/
def doProbeLoop (nodes : List α) (skip : α → Bool) (index checked : Nat) : Option α × Nat :=
  if checked < nodes.length then
    if h : nodes.length ≤ index then doProbeLoop nodes skip 0 checked
    else
      let node := nodes.get ⟨index, by omega⟩
      if skip node then doProbeLoop nodes skip (index + 1) (checked + 1)
      else (some node, index + 1)
  else (none, index)
termination_by 2 * (nodes.length - checked) + if nodes.length ≤ index then 1 else 0
decreasing_by all_goals simp_wf; split_ifs <;> omega

variable (nodes : List α) (skip : α → Bool)

/-- Position `j` holds a node the loop does not skip. -/
def probeable (j : Nat) : Bool :=
  match nodes[j]? with
  | some node => !skip node
  | none => false

/-- The eligible positions in cyclic order from the cursor `c`. -/
def window (c : Nat) : List Nat := ((List.range nodes.length).rotate c).filter (probeable nodes skip)

/-- What the ticks of `_do_probe` probe from the cursor `c`, while `nodes` and `skip` stay as
they are. -/
def probeTicks : Nat → Nat → List (Option α)
  | _, 0 => []
  | c, t + 1 => (doProbeLoop nodes skip c 0).1 :: probeTicks (doProbeLoop nodes skip c 0).2 t

variable {nodes skip}

theorem probeable_of_lt {j : Nat} (hj : j < nodes.length) :
    probeable nodes skip j = !skip (nodes.get ⟨j, hj⟩) := by
  simp only [probeable, List.getElem?_eq_getElem hj, List.get_eq_getElem]

theorem lt_of_probeable {j : Nat} (hj : probeable nodes skip j = true) : j < nodes.length := by
  by_contra h
  simp [probeable, List.getElem?_eq_none (Nat.le_of_not_lt h)] at hj

/-! ## One pass over consecutive positions -/

/-- The loop over the positions `i, …, i + m - 1`: it picks the first eligible one, or goes on
after them with `m` more nodes checked. -/
theorem doProbeLoop_scan (m : Nat) {i k : Nat} (hi : i + m ≤ nodes.length)
    (hk : k + m ≤ nodes.length) :
    doProbeLoop nodes skip i k = ((List.range' i m).find? (probeable nodes skip)).elim
      (doProbeLoop nodes skip (i + m) (k + m)) fun j => (nodes[j]?, j + 1) := by
  induction m generalizing i k with
  | zero => rfl
  | succ m ih =>
    have hlt : i < nodes.length := by omega
    rw [doProbeLoop, if_pos (by omega), dif_neg (by omega), List.range'_succ, List.find?_cons,
      probeable_of_lt hlt]
    simp only [List.get_eq_getElem]
    cases hs : skip nodes[i] with
    | false => simp [List.getElem?_eq_getElem hlt]
    | true =>
      simp only [if_true, Bool.not_true]
      rw [ih (by omega) (by omega), Nat.add_right_comm i, Nat.add_right_comm k]
      rfl

/-- The cyclic order from a cursor `c ≤ n`: `c, …, n - 1`, then `0, …, c - 1`. -/
theorem range_rotate {n c : Nat} (hc : c ≤ n) :
    (List.range n).rotate c = List.range' c (n - c) ++ List.range' 0 c := by
  have hsplit : List.range n = List.range' 0 c ++ List.range' c (n - c) := by
    have := List.range'_append 0 c (n - c) 1
    simp only [Nat.zero_add, Nat.one_mul, Nat.sub_add_cancel hc] at this
    rw [List.range_eq_range', this]
  rw [List.rotate_eq_drop_append_take (by simpa using hc), List.take_range, Nat.min_eq_left hc,
    hsplit, List.drop_left' (List.length_range' _ _ _), List.range_eq_range']

/-- **The loop picks the first eligible position in cyclic order from the cursor**, and leaves
the cursor one past it; with none, it leaves the cursor where a full turn ends. -/
theorem doProbeLoop_eq {c : Nat} (hc : c ≤ nodes.length) :
    doProbeLoop nodes skip c 0 =
      (((List.range nodes.length).rotate c).find? (probeable nodes skip)).elim
        (none, if c = 0 then nodes.length else c) fun j => (nodes[j]?, j + 1) := by
  have hturn : doProbeLoop nodes skip nodes.length (nodes.length - c) =
      ((List.range' 0 c).find? (probeable nodes skip)).elim
        (none, if c = 0 then nodes.length else c) fun j => (nodes[j]?, j + 1) := by
    rcases Nat.eq_zero_or_pos c with rfl | hpos
    · rw [doProbeLoop, if_neg (by omega)]
      rfl
    · rw [doProbeLoop, if_pos (by omega), dif_pos le_rfl, doProbeLoop_scan c (by omega) (by omega),
        Nat.zero_add, Nat.sub_add_cancel hc, doProbeLoop, if_neg (Nat.lt_irrefl _), if_neg (by omega)]
  rw [doProbeLoop_scan (nodes.length - c) (by omega) (by omega), Nat.add_sub_cancel' hc,
    Nat.zero_add, hturn, range_rotate hc, List.find?_append]
  cases (List.range' c (nodes.length - c)).find? (probeable nodes skip) <;> rfl

/-- The loop picks nothing exactly when every node is skipped. -/
theorem doProbeLoop_none_iff {c : Nat} (hc : c ≤ nodes.length) :
    (doProbeLoop nodes skip c 0).1 = none ↔ ∀ node ∈ nodes, skip node = true := by
  rw [doProbeLoop_eq hc]
  cases hf : ((List.range nodes.length).rotate c).find? (probeable nodes skip) with
  | none =>
    refine iff_of_true rfl fun node hn => ?_
    obtain ⟨j, hj, rfl⟩ := List.get_of_mem hn
    have := List.find?_eq_none.1 hf j ((List.rotate_perm _ c).mem_iff.2 (List.mem_range.2 j.2))
    simpa [probeable_of_lt j.2] using this
  | some j =>
    have hj := (List.find?_eq_some.1 hf).1
    have hlt := lt_of_probeable hj
    simp only [Option.elim, List.getElem?_eq_getElem hlt, reduceCtorEq, false_iff, not_forall]
    exact ⟨_, List.getElem_mem hlt, by simpa [probeable_of_lt hlt] using hj⟩

/-- The cursor stays within `0 ≤ c ≤ len(nodes)`. -/
theorem doProbeLoop_cursor_le {c : Nat} (hc : c ≤ nodes.length) :
    (doProbeLoop nodes skip c 0).2 ≤ nodes.length := by
  rw [doProbeLoop_eq hc]
  cases hf : ((List.range nodes.length).rotate c).find? (probeable nodes skip) with
  | none => dsimp only [Option.elim]; split_ifs <;> omega
  | some j => exact lt_of_probeable (List.find?_eq_some.1 hf).1

/-! ## Successive ticks -/

/-- **A tick probes the head of the window and rotates it by one.** -/
theorem window_tick {c j : Nat} {rest : List Nat} (hc : c ≤ nodes.length)
    (hw : window nodes skip c = j :: rest) :
    doProbeLoop nodes skip c 0 = (nodes[j]?, j + 1) ∧ window nodes skip (j + 1) = rest ++ [j] := by
  obtain ⟨pre, post, hord, hpre, hj, hpost⟩ := List.filter_eq_cons_iff.1 hw
  have hfind : ((List.range nodes.length).rotate c).find? (probeable nodes skip) = some j :=
    List.find?_eq_some.2 ⟨hj, pre, post, hord, fun a ha => by simpa using hpre a ha⟩
  refine ⟨by rw [doProbeLoop_eq hc, hfind]; rfl, ?_⟩
  have hm : pre.length < ((List.range nodes.length).rotate c).length := by
    rw [hord]; simp
  have hjm : j = (pre.length + c) % nodes.length := by
    simpa only [hord, List.getElem_append_right (Nat.le_refl _), Nat.sub_self,
      List.getElem_cons_zero, List.getElem_range, List.length_range] using
      List.getElem_rotate (List.range nodes.length) c pre.length hm
  have hrot : (List.range nodes.length).rotate (j + 1) =
      ((List.range nodes.length).rotate c).rotate (pre ++ [j]).length := by
    rw [List.rotate_rotate, List.length_append, List.length_singleton, ← List.rotate_mod _ (j + 1),
      ← List.rotate_mod _ (c + _), List.length_range, hjm, Nat.mod_add_mod]
    congr 2
    omega
  rw [window, hrot, hord, ← List.singleton_append, ← List.append_assoc,
    List.rotate_append_length_eq, List.filter_append, List.filter_append, hpost,
    List.filter_eq_nil_iff.2 fun a ha => by simpa using hpre a ha, List.filter_singleton, hj]
  rfl

/-- The ticks from a cursor probe the positions of its window, in order, as long as there are
any left in it. -/
theorem probeTicks_eq_take {c t : Nat} (hc : c ≤ nodes.length)
    (ht : t ≤ (window nodes skip c).length) :
    probeTicks nodes skip c t = ((window nodes skip c).take t).map (nodes[·]?) := by
  induction t generalizing c with
  | zero => rfl
  | succ t ih =>
    obtain ⟨j, rest, hw⟩ := List.exists_cons_of_length_pos (Nat.lt_of_lt_of_le t.succ_pos ht)
    obtain ⟨hstep, hw'⟩ := window_tick hc hw
    have hj : j < nodes.length :=
      lt_of_probeable (List.mem_filter.1 (hw ▸ List.mem_cons_self j rest : j ∈ window nodes skip c)).2
    rw [hw, List.length_cons] at ht
    simp only [probeTicks, hstep, hw, List.take_succ_cons, List.map_cons]
    rw [ih hj (by simp only [hw', List.length_append, List.length_singleton]; omega), hw',
      List.take_append_of_le_length (by omega)]

/-- The positions of the eligible nodes, read as nodes, are the eligible nodes. -/
theorem map_filter_range (nodes : List α) :
    ((List.range nodes.length).filter (probeable nodes skip)).map (nodes[·]?) =
      (nodes.filter fun node => !skip node).map some := by
  induction nodes with
  | nil => rfl
  | cons a as ih =>
    rw [List.length_cons, List.range_succ_eq_map, List.filter_cons, List.filter_map, List.filter_cons]
    have hc : (probeable (a :: as) skip ∘ Nat.succ) = probeable as skip :=
      funext fun j => by simp only [Function.comp, probeable, List.getElem?_cons_succ]
    cases hs : skip a <;> simp [probeable, hs, hc, ← ih, Function.comp_def]

/-- The window of any cursor holds every eligible position, once. -/
theorem window_perm (c : Nat) :
    (window nodes skip c).Perm ((List.range nodes.length).filter (probeable nodes skip)) :=
  (List.rotate_perm _ c).filter _

theorem window_length (c : Nat) :
    (window nodes skip c).length = (nodes.filter fun node => !skip node).length := by
  rw [(window_perm c).length_eq, ← List.length_map _ (nodes[·]?), map_filter_range, List.length_map]

/-- **Every `E` consecutive ticks probe each eligible node once**, where `E` is the number of
eligible nodes: from any cursor `c₀ ≤ len(nodes)`, the ticks `t, …, t + E - 1`. -/
theorem probeTicks_window {c₀ : Nat} (hc : c₀ ≤ nodes.length) (t : Nat) :
    ((probeTicks nodes skip c₀ (t + (nodes.filter fun node => !skip node).length)).drop t).Perm
      ((nodes.filter fun node => !skip node).map some) := by
  induction t generalizing c₀ with
  | zero =>
    rw [Nat.zero_add, List.drop_zero, ← window_length c₀, probeTicks_eq_take hc le_rfl,
      List.take_length, ← map_filter_range]
    exact (window_perm c₀).map _
  | succ t ih =>
    rw [Nat.add_right_comm t 1, probeTicks, List.drop_succ_cons]
    exact ih (doProbeLoop_cursor_le hc)

/-! ## `Cluster._do_probe` -/

namespace Cluster

variable (s : NodeManager)

/-- The test `_do_probe` skips a node by: it is `self._nodes.local_node`, compared by identity, or
it is DEAD. -/
def probeSkip (r : Nat) : Bool := decide (some r = s.localNode) || (s.heap r).status == .dead

/-- One tick of `_do_probe` from `_probe_index = c`: the node it starts a `_probe_node` task for,
if any, and the cursor it leaves. -/
def doProbe (c : Nat) : Option Nat × Nat := doProbeLoop s.nodes (probeSkip s) c 0

end Cluster

/-- **`_do_probe` is a round robin over the eligible nodes.** From a cursor `c ≤ len(_nodes)` it
probes the first node in cyclic order from `c` that is neither the local node nor DEAD, and
leaves the cursor one past it; it probes nothing exactly when there is no such node; the cursor
stays in range; and while `_nodes` and the statuses stay as they are, every `E` consecutive ticks
probe each of the `E` eligible nodes once. -/
theorem do_probe_round_robin (s : NodeManager) {c : Nat} (hc : c ≤ s.nodes.length) :
    Cluster.doProbe s c =
      (((List.range s.nodes.length).rotate c).find? (probeable s.nodes (Cluster.probeSkip s))).elim
        (none, if c = 0 then s.nodes.length else c) (fun j => (s.nodes[j]?, j + 1)) ∧
    ((Cluster.doProbe s c).1 = none ↔
      ∀ r ∈ s.nodes, some r = s.localNode ∨ (s.heap r).status = .dead) ∧
    (Cluster.doProbe s c).2 ≤ s.nodes.length ∧
    ∀ t, ((probeTicks s.nodes (Cluster.probeSkip s) c
        (t + (s.nodes.filter fun r => !Cluster.probeSkip s r).length)).drop t).Perm
      ((s.nodes.filter fun r => !Cluster.probeSkip s r).map some) := by
  refine ⟨doProbeLoop_eq hc, ?_, doProbeLoop_cursor_le hc, probeTicks_window hc⟩
  rw [Cluster.doProbe, doProbeLoop_none_iff hc]
  simp only [Cluster.probeSkip, Bool.or_eq_true, decide_eq_true_eq, beq_iff_eq]

/-- Three nodes, all ALIVE, the local one at position 0, and the cursor at the end: the tick wraps,
skips the local node and probes position 1. -/
theorem do_probe_round_robin_wrap :
    let s : NodeManager := { NodeManager.init with
      heap := fun _ => { Node.new "b" "h" 1 with status := .alive }
      nodes := [0, 1, 2]
      nodesMap := fun _ => some 0
      localNodeName := some "a" }
    3 ≤ s.nodes.length ∧ Cluster.doProbe s 3 = (some 1, 2) := by
  intro s
  exact ⟨le_rfl, (do_probe_round_robin s le_rfl).1.trans (by decide)⟩

end Tattle
