import Tattle.Cluster.Probe

/-!
# What a direct probe does with its result

When the waiter of `_probe_node(T)` is resolved, its task resumes in `_handle_probe_result`:

* with `True`, a SUSPECT `T` is reported alive by
  `on_node_alive(node.name, node.incarnation, node.host, node.port)`; the call leaves out the
  `metadata` argument and raises `TypeError`, and even with it `on_node_alive` ignores an ALIVE
  about another node that is not newer than its record, which this one never is;
* with `False`, it raises `NotImplementedError`: the handling of a NACK is a TODO.

Either way no node's membership changes and nothing is sent, so indirect probing does not start
on a NACK.

## Main results

* `direct_probe_resume`: the task only deletes its waiter
* `suspect_stays_after_ack`: a run in which a SUSPECT target answers and stays SUSPECT
-/

namespace Tattle

variable {ι : Type} [DecidableEq ι] {cfg : Config ι} {w : World ι}

/-- **A resumed direct probe changes no membership and sends nothing.** The task of
`_probe_node(T)` whose waiter was resolved with `b` leaves every node's `NodeManager` and the
network as they were, and raises `NotImplementedError` on a NACK. The ALIVE it means to apply to a
SUSPECT target, at the target's own incarnation, is one `on_node_alive` ignores. -/
theorem direct_probe_resume {i : ι} {seq : Nat} {T : String} {b : Bool}
    (hp : (w.peers i).purpose seq = some (.direct T))
    (hb : (w.peers i).probeStatus seq = some (.resolved b)) :
    World.SameNodes w ((Act.resume i seq).run cfg w).state ∧
    ((Act.resume i seq).run cfg w).state.sent = w.sent ∧
    (b = false → ∃ w', (Act.resume i seq).run cfg w = .raised .notImplementedError w') ∧
    (Tattle.Reachable (cfg.name i) (w.peers i).nodes → T ≠ cfg.name i → ∀ x md j,
      (w.peers i).nodes.record T = some x →
      ((Call.alive T x.incarnation x.host x.port md j).run (cfg.name i) (w.peers i).nodes).map
        NodeManager.members = .ok (w.peers i).nodes.members) := by
  have hrun : (Act.resume i seq).run cfg w =
      (w.setPeer i ((w.peers i).release seq)).afterResult cfg i b (some (.direct T)) := by
    rw [Act.run_resume hb, hp]
  have hst : ((Act.resume i seq).run cfg w).state = w.setPeer i ((w.peers i).release seq) := by
    rw [hrun]
    rcases World.afterResult_state cfg _ i b _ with h | ⟨q, hq, -⟩
    · exact h
    · cases hq
  refine ⟨hst ▸ World.sameNodes_setPeer (by rfl), by rw [hst]; rfl, fun hf => ?_,
    fun hs hT x md j hx => ?_⟩
  · subst hf; exact ⟨_, by rw [hrun]; rfl⟩
  · rw [Call.map_run hs.wf]
    exact Members.onNodeAlive_not_newer (hs.localInv.ne_local hT) hx (Nat.le_refl _) _ _ _

/-- Node `a`, started, holds `b` SUSPECT and probes it; `b` answers. The task leaves the world as
it was but for the waiter, and an ALIVE about `b` at its own incarnation changes nothing. -/
theorem suspect_target_resume :
    let w : World Bool := ((Act.deliver false (.ack 1 "b")).run Config.pair
      ((Act.deliver true (.ping ⟨1, "b", "a", ⟨"h", 1⟩⟩)).run Config.pair
      ((Act.probe false "b" ⟨"h", 2⟩).run Config.pair
      ((Act.gossip false (.suspect "b" 1 fun _ => none)).run Config.pair
      ((Act.gossip false (.alive "b" 1 "h" 2 (fun _ => none) 0)).run Config.pair
      ((Act.gossip false (.setLocalNode "h" 1 (fun _ => none) 0)).run Config.pair
        .init).state).state).state).state).state).state
    World.SameNodes w ((Act.resume false 1).run Config.pair w).state ∧
      ((Act.resume false 1).run Config.pair w).state.sent = w.sent ∧
      ((Call.alive "b" 1 "h" 2 (fun _ => none) 0).run "a" (w.peers false).nodes).map
        NodeManager.members = .ok (w.peers false).nodes.members := by
  intro w
  have hw : Cluster.Reachable Config.pair w :=
    .step _ (.step _ (.step _ (.step _ (.step _ (.step _ .init trivial) trivial) trivial) trivial)
      (by decide)) (by decide)
  have h := @direct_probe_resume _ _ Config.pair w false 1 "b" true rfl rfl
  exact ⟨h.1, h.2.1, h.2.2.2 (hw.nodes false) (by decide) _ _ _ rfl⟩

/-- The same run: `a`'s waiter for `b` is resolved with `True` while `b` is SUSPECT, and after the
task resumes `b` is still SUSPECT. -/
theorem suspect_stays_after_ack :
    let w : World Bool := ((Act.deliver false (.ack 1 "b")).run Config.pair
      ((Act.deliver true (.ping ⟨1, "b", "a", ⟨"h", 1⟩⟩)).run Config.pair
      ((Act.probe false "b" ⟨"h", 2⟩).run Config.pair
      ((Act.gossip false (.suspect "b" 1 fun _ => none)).run Config.pair
      ((Act.gossip false (.alive "b" 1 "h" 2 (fun _ => none) 0)).run Config.pair
      ((Act.gossip false (.setLocalNode "h" 1 (fun _ => none) 0)).run Config.pair
        .init).state).state).state).state).state).state
    Cluster.Reachable Config.pair w ∧ (w.peers false).purpose 1 = some (.direct "b") ∧
      (w.peers false).probeStatus 1 = some (.resolved true) ∧
      ((w.peers false).nodes.record "b").map Node.status = some .suspect ∧
      ((((Act.resume false 1).run Config.pair w).state.peers false).nodes.record "b").map
        Node.status = some .suspect := by
  intro w
  exact ⟨.step _ (.step _ (.step _ (.step _ (.step _ (.step _ .init trivial) trivial) trivial) trivial)
      (by decide)) (by decide), rfl, rfl, by decide, by decide⟩

end Tattle
