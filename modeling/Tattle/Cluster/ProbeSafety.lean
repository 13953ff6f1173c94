import Tattle.Cluster.Probe

/-!
# An ACK answers a PING to the probed node

`_handle_ack_message` resolves the waiter of any registered sequence number, whoever sent the
ACK. It is still sound, because of who can send an ACK of `s` to a node's address:

* the node named in a PING with sequence number `s` whose sender address is that address, when
  it handles it; every PING carries its sender's own address, and a node numbers its PINGs and
  PING-REQs from one counter, so that PING is the one the node sent for `s`;
* a relay whose own waiter an ACK resolved, for a PING-REQ with sequence number `s` from that
  address.

`ProbeInv` says this of every datagram sent, together with what keeps it inductive: a sequence
number is allocated once, a resolved waiter was resolved by an ACK (no code sends a NACK), and an
ACK that resolved a waiter was sent to its node. From it, a waiter of `_probe_node(T)` resolved
with `True` means the node named `T` handled the PING of that probe, and one of
`_probe_node_indirect_via(T, R)` means it handled the PING a relay sent for that PING-REQ
(`acked_probe_pinged`).

## Main definitions

* `World.Just`: what justifies a datagram sent
* `World.ProbeInv`: the invariant of the probe protocol

## Main results

* `Cluster.Reachable.probeInv`: it holds along every run
* `acked_probe_pinged`: a waiter resolved with `True` was answered by its target
-/

namespace Tattle

namespace World

variable {ι : Type} [DecidableEq ι] (cfg : Config ι)

/-- What justifies a datagram sent to `a`: a PING was sent by the node at its sender address for
a probe or a relay of its target; a PING-REQ by the node at its sender address for an indirect
probe through `a`; an ACK of `s` to `a` by the target of a PING of `s` from `a`, or by a relay of
a PING-REQ of `s` from `a` whose waiter an ACK resolved; a NACK never. -/
def Just (w : World ι) (a : Addr) : Datagram → Prop
  | .ping p => ∃ i, cfg.addr i = p.senderAddr ∧ cfg.name i = p.sender ∧
      ((w.peers i).purpose p.seq = some (.direct p.target) ∨
        ∃ q, (w.peers i).purpose p.seq = some (.relay q) ∧ q.target = p.target)
  | .pingReq q => ∃ i, cfg.addr i = q.senderAddr ∧ cfg.name i = q.sender ∧
      (w.peers i).purpose q.seq = some (.indirect q.target a)
  | .ack s _ => (∃ j p, (j, p) ∈ w.handled ∧ p.seq = s ∧ p.senderAddr = a) ∨
      ∃ r s' q, (w.peers r).purpose s' = some (.relay q) ∧ q.seq = s ∧ q.senderAddr = a ∧
        (w.peers r).acked s' = true
  | .nack _ _ => False

/-- The invariant of the probe protocol. -/
structure ProbeInv (w : World ι) : Prop where
  /-- A sequence number not yet allocated has no purpose. -/
  fresh : ∀ i s, (w.peers i).probeSeq < s → (w.peers i).purpose s = none
  /-- A resolved waiter was resolved by an ACK: no waiter is resolved with `False`. -/
  resolved : ∀ i s b, (w.peers i).probeStatus s = some (.resolved b) →
    b = true ∧ (w.peers i).acked s = true
  /-- An ACK that resolved a waiter was sent to its node. -/
  acked : ∀ i s, (w.peers i).acked s = true → ∃ n, (cfg.addr i, .ack s n) ∈ w.sent
  /-- Every datagram sent is justified. -/
  sent : ∀ a d, (a, d) ∈ w.sent → w.Just cfg a d
  /-- A relay's waiter is for a PING-REQ sent to it. -/
  relay : ∀ r s q, (w.peers r).purpose s = some (.relay q) → (cfg.addr r, .pingReq q) ∈ w.sent
  /-- A PING handled named the node that handled it, and was sent to it. -/
  handled : ∀ j p, (j, p) ∈ w.handled → p.target = cfg.name j ∧ (cfg.addr j, .ping p) ∈ w.sent

variable {cfg} {w w' : World ι}

/-- `w'` keeps every datagram, handled PING, purpose and ACK resolution of `w`. -/
structure Grows (w w' : World ι) : Prop where
  sent : ∀ x, x ∈ w.sent → x ∈ w'.sent
  handled : ∀ x, x ∈ w.handled → x ∈ w'.handled
  purpose : ∀ i s pu, (w.peers i).purpose s = some pu → (w'.peers i).purpose s = some pu
  acked : ∀ i s, (w.peers i).acked s = true → (w'.peers i).acked s = true

omit [DecidableEq ι] in
theorem Just.grow {a : Addr} {d : Datagram} (h : w.Just cfg a d) (hg : Grows w w') :
    w'.Just cfg a d := by
  cases d with
  | ping p =>
    obtain ⟨i, ha, hn, hp | ⟨q, hq, ht⟩⟩ := h
    · exact ⟨i, ha, hn, .inl (hg.purpose _ _ _ hp)⟩
    · exact ⟨i, ha, hn, .inr ⟨q, hg.purpose _ _ _ hq, ht⟩⟩
  | pingReq q =>
    obtain ⟨i, ha, hn, hq⟩ := h
    exact ⟨i, ha, hn, hg.purpose _ _ _ hq⟩
  | ack s n =>
    rcases h with ⟨j, p, hj, hs, ha⟩ | ⟨r, s', q, hq, hs, ha, hr⟩
    · exact .inl ⟨j, p, hg.handled _ hj, hs, ha⟩
    · exact .inr ⟨r, s', q, hg.purpose _ _ _ hq, hs, ha, hg.acked _ _ hr⟩
  | nack => exact h

/-! ## The invariant, one change at a time -/

omit [DecidableEq ι] in
theorem ProbeInv.send (h : w.ProbeInv cfg) {a : Addr} {d : Datagram} (hd : w.Just cfg a d) :
    (w.send a d).ProbeInv cfg := by
  have hg : Grows w (w.send a d) :=
    ⟨fun _ hx => List.mem_append_left _ hx, fun _ hx => hx, fun _ _ _ hp => hp, fun _ _ hr => hr⟩
  refine ⟨h.fresh, h.resolved, fun i s hs => ?_, fun a' d' hx => ?_, fun r s q hq => ?_,
    fun j p hp => ?_⟩
  · obtain ⟨n, hn⟩ := h.acked i s hs; exact ⟨n, hg.sent _ hn⟩
  · rcases List.mem_append.mp hx with hx | hx
    · exact (h.sent _ _ hx).grow hg
    · cases List.mem_singleton.mp hx; exact hd.grow hg
  · exact hg.sent _ (h.relay r s q hq)
  · exact ⟨(h.handled j p hp).1, hg.sent _ (h.handled j p hp).2⟩

/-- Node `i`'s probe state replaced by `p`, which keeps its purposes and ACK resolutions and
adds only justified ones. -/
theorem ProbeInv.setPeer (h : w.ProbeInv cfg) (i : ι) (p : Peer)
    (hfresh : ∀ s, p.probeSeq < s → p.purpose s = none)
    (hmono : ∀ s pu, (w.peers i).purpose s = some pu → p.purpose s = some pu)
    (hrelay : ∀ s q, p.purpose s = some (.relay q) → (cfg.addr i, .pingReq q) ∈ w.sent)
    (hres : ∀ s b, p.probeStatus s = some (.resolved b) → b = true ∧ p.acked s = true)
    (hacked : ∀ s, p.acked s = true → ∃ n, (cfg.addr i, .ack s n) ∈ w.sent)
    (hgrow : ∀ s, (w.peers i).acked s = true → p.acked s = true) :
    (w.setPeer i p).ProbeInv cfg := by
  have hc : ∀ k, (w.setPeer i p).peers k = p ∧ k = i ∨ (w.setPeer i p).peers k = w.peers k := fun k => by
    by_cases e : k = i
    · subst e; exact .inl ⟨Function.update_same _ _ _, rfl⟩
    · exact .inr (Function.update_noteq e _ _)
  have hg : Grows w (w.setPeer i p) := by
    refine ⟨fun _ hx => hx, fun _ hx => hx, fun k s pu hp => ?_, fun k s hr => ?_⟩ <;>
      rcases hc k with ⟨e, rfl⟩ | e <;> rw [e]
    exacts [hmono s pu hp, hp, hgrow s hr, hr]
  refine ⟨fun k s => ?_, fun k s b => ?_, fun k s => ?_, fun a d hx => (h.sent a d hx).grow hg,
    fun k s q => ?_, h.handled⟩ <;> rcases hc k with ⟨e, rfl⟩ | e <;> rw [e]
  exacts [hfresh s, h.fresh k s, hres s b, h.resolved k s b, hacked s, h.acked k s, hrelay s q,
    h.relay k s q]

variable (h : w.ProbeInv cfg)
include h

theorem ProbeInv.alloc (i : ι) (pu : Purpose)
    (hpu : ∀ q, pu = .relay q → (cfg.addr i, .pingReq q) ∈ w.sent) :
    (w.setPeer i ((w.peers i).alloc pu)).ProbeInv cfg := by
  have hold : ∀ s, s ≠ (w.peers i).probeSeq + 1 →
      ((w.peers i).alloc pu).purpose s = (w.peers i).purpose s := fun s hs =>
    Function.update_noteq hs _ _
  refine h.setPeer i _ (fun s hs => ?_) (fun s pu' hp => ?_) (fun s q hq => ?_) (fun s b hs => ?_)
    (h.acked i) (fun _ hr => hr)
  · rw [hold s (by simp at hs; omega)]; exact h.fresh i s (by simp at hs; omega)
  · have : s ≠ (w.peers i).probeSeq + 1 := fun e => by
      rw [h.fresh i s (by omega)] at hp; cases hp
    rw [hold s this]; exact hp
  · by_cases e : s = (w.peers i).probeSeq + 1
    · subst e
      simp only [Peer.alloc, Function.update_same, Option.some.injEq] at hq
      exact hpu q hq
    · rw [hold s e] at hq; exact h.relay i s q hq
  · by_cases e : s = (w.peers i).probeSeq + 1
    · subst e; simp [Peer.alloc] at hs
    · exact h.resolved i s b (by simpa [Peer.alloc, Function.update_noteq e] using hs)

theorem ProbeInv.release (i : ι) (seq : Nat) :
    (w.setPeer i ((w.peers i).release seq)).ProbeInv cfg := by
  refine h.setPeer i _ (h.fresh i) (fun _ _ hp => hp) (h.relay i) (fun s b hs => ?_) (h.acked i)
    (fun _ hr => hr)
  by_cases e : s = seq
  · subst e; simp [Peer.release] at hs
  · exact h.resolved i s b (by simpa [Peer.release, Function.update_noteq e] using hs)

theorem ProbeInv.setNodes (i : ι) (s : NodeManager) :
    (w.setPeer i { w.peers i with nodes := s }).ProbeInv cfg :=
  h.setPeer i _ (h.fresh i) (fun _ _ hp => hp) (h.relay i) (h.resolved i) (h.acked i)
    (fun _ hr => hr)

/-- An ACK delivered to `j` keeps the invariant; a NACK cannot be delivered. -/
theorem ProbeInv.resolveProbe (j : ι) (seq : Nat) (result : Bool) (n : String)
    (hd : (cfg.addr j, (if result then Datagram.ack seq n else .nack seq n)) ∈ w.sent) :
    (w.resolveProbe j seq result).state.ProbeInv cfg := by
  cases result with
  | false => exact absurd (h.sent _ _ hd) id
  | true =>
    unfold World.resolveProbe
    split
    · refine h.setPeer j _ (h.fresh j) (fun _ _ hp => hp) (h.relay j) (fun s b hs => ?_)
        (fun s hs => ?_) (fun s hr => ?_) <;> dsimp only at * <;> by_cases e : s = seq
      · subst e; simp_all
      · rw [Function.update_noteq e] at hs ⊢; exact h.resolved j s b hs
      · subst e; exact ⟨n, hd⟩
      · rw [Function.update_noteq e] at hs; exact h.acked j s hs
      · subst e; simp
      · rw [Function.update_noteq e]; exact hr
    · exact h
    · exact h

omit [DecidableEq ι] in
theorem ProbeInv.handle {j : ι} {p : Ping} (ht : p.target = cfg.name j)
    (hd : (cfg.addr j, .ping p) ∈ w.sent) :
    ({ w with handled := w.handled ++ [(j, p)] } : World ι).ProbeInv cfg := by
  refine ⟨h.fresh, h.resolved, h.acked, fun a d hx => (h.sent a d hx).grow
    ⟨fun _ hx => hx, fun _ hx => List.mem_append_left _ hx, fun _ _ _ hp => hp, fun _ _ hr => hr⟩,
    h.relay, fun k q hq => ?_⟩
  rcases List.mem_append.mp hq with hq | hq
  · exact h.handled k q hq
  · cases List.mem_singleton.mp hq; exact ⟨ht, hd⟩

omit [DecidableEq ι] in
theorem ProbeInv.handlePingMessage (j : ι) (p : Ping) (hd : (cfg.addr j, .ping p) ∈ w.sent) :
    (w.handlePingMessage cfg j p).ProbeInv cfg := by
  unfold World.handlePingMessage
  split
  · exact h
  · next ht =>
    exact (h.handle (not_not.mp ht) hd).send
      (.inl ⟨j, p, List.mem_append_right _ (List.mem_singleton_self _), rfl, rfl⟩)

theorem ProbeInv.handlePingRequestMessage (j : ι) (q : PingReq)
    (hd : (cfg.addr j, .pingReq q) ∈ w.sent) : (w.handlePingRequestMessage cfg j q).ProbeInv cfg :=
  (h.alloc j (.relay q) fun _ e => by cases e; exact hd).send
    ⟨j, rfl, rfl, .inr ⟨q, by simp [Peer.alloc], rfl⟩⟩

theorem ProbeInv.handleDatagram (j : ι) (d : Datagram) (hd : (cfg.addr j, d) ∈ w.sent) :
    (w.handleDatagram cfg j d).state.ProbeInv cfg := by
  cases d with
  | ping p => exact h.handlePingMessage j p hd
  | pingReq q => exact h.handlePingRequestMessage j q hd
  | ack seq n => exact h.resolveProbe j seq true n hd
  | nack seq n => exact h.resolveProbe j seq false n hd

/-- A resumed task keeps the invariant: a relay's ACK forwards a resolution by an ACK. -/
theorem ProbeInv.afterResult (i : ι) (seq : Nat) (b : Bool)
    (hb : (w.peers i).probeStatus seq = some (.resolved b)) :
    ((w.setPeer i ((w.peers i).release seq)).afterResult cfg i b ((w.peers i).purpose seq)).state.ProbeInv
      cfg := by
  rcases World.afterResult_state cfg _ i b _ with e | ⟨q, hq, e⟩ <;> rw [e]
  · exact h.release i seq
  · exact (h.release i seq).send (.inr ⟨i, seq, q, by simpa using hq, rfl, rfl,
      by simpa using (h.resolved i seq b hb).2⟩)

end World

namespace Act

variable {ι : Type} [DecidableEq ι] {cfg : Config ι} {w : World ι}

/-- **Every step keeps the invariant of the probe protocol.** -/
theorem probeInv_run (h : w.ProbeInv cfg) (a : Act ι) (he : a.Enabled cfg w) :
    (a.run cfg w).state.ProbeInv cfg := by
  cases a with
  | gossip i c => rw [Act.state_run_gossip]; exact h.setNodes i _
  | probe i t ta =>
    exact (h.alloc i (.direct t) fun _ e => by cases e).send ⟨i, rfl, rfl, .inl (by simp [Peer.alloc])⟩
  | probeVia i t ta ra =>
    exact (h.alloc i (.indirect t ra) fun _ e => by cases e).send ⟨i, rfl, rfl, by simp [Peer.alloc]⟩
  | deliver j d => exact h.handleDatagram j d he
  | timeout i seq => rw [Act.state_run_timeout]; exact h.release i seq
  | resume i seq =>
    obtain ⟨b, hb⟩ := he
    rw [Act.run_resume hb]; exact h.afterResult i seq b hb

end Act

theorem World.probeInv_init {ι : Type} [DecidableEq ι] (cfg : Config ι) :
    (World.init : World ι).ProbeInv cfg := by
  constructor <;> simp [World.init, Peer.init]

/-- **The invariant of the probe protocol holds along every run.** -/
theorem Cluster.Reachable.probeInv {ι : Type} [DecidableEq ι] {cfg : Config ι} {w : World ι}
    (hw : Cluster.Reachable cfg w) : w.ProbeInv cfg := by
  induction hw with
  | init => exact World.probeInv_init cfg
  | step a _ he ih => exact Act.probeInv_run ih a he

/-! ## Where the ACK of a waiter came from -/

namespace World

variable {ι : Type} [DecidableEq ι] {cfg : Config ι} {w : World ι}

omit [DecidableEq ι] in
/-- The ACK that resolved a waiter of node `i` for `s` came from the node named in the PING `i`
sent for `s`, or from a relay, whose own waiter an ACK resolved, of the PING-REQ `i` sent for `s`.
-/
theorem ProbeInv.ack_source (h : w.ProbeInv cfg) {i : ι} {s : Nat}
    (hs : (w.peers i).acked s = true) :
    (∃ j t, (j, ⟨s, t, cfg.name i, cfg.addr i⟩) ∈ w.handled ∧ cfg.name j = t ∧
      ((w.peers i).purpose s = some (.direct t) ∨
        ∃ q, (w.peers i).purpose s = some (.relay q) ∧ q.target = t)) ∨
    ∃ r s' q, (w.peers r).purpose s' = some (.relay q) ∧ (w.peers r).acked s' = true ∧ q.seq = s ∧
      q.senderAddr = cfg.addr i ∧ (cfg.addr r, .pingReq q) ∈ w.sent ∧ q.sender = cfg.name i ∧
      (w.peers i).purpose s = some (.indirect q.target (cfg.addr r)) := by
  obtain ⟨n, hn⟩ := h.acked i s hs
  rcases h.sent _ _ hn with ⟨j, ⟨ps, t, pn, pa⟩, hj, hps, hpa⟩ | ⟨r, s', q, hq, rfl, hqa, hr⟩
  · obtain ⟨ht, hd⟩ := h.handled j _ hj
    obtain ⟨k, hk, hkn, hpu⟩ := h.sent _ _ hd
    dsimp only at hps hpa ht hk hkn hpu
    subst hps hpa hkn
    obtain rfl := cfg.addr_injective hk
    exact .inl ⟨j, t, hj, ht.symm, hpu⟩
  · obtain ⟨k, hk, hkn, hpu⟩ := h.sent _ _ (h.relay r s' q hq)
    obtain rfl := cfg.addr_injective (hk.trans hqa)
    exact .inr ⟨r, s', q, hq, hr, rfl, hqa, h.relay r s' q hq, hkn.symm, hpu⟩

end World

/-- **An ACK answers the probe it resolves.** In every reachable state, a waiter of node `i`
resolved with `True` for `_probe_node(T)` means that the node named `T` handled the PING `i` sent
for it; for `_probe_node_indirect_via(T, R)`, that the node named `T` handled the PING, numbered
by `R`, that `R` sent for the PING-REQ `i` sent to it. -/
theorem acked_probe_pinged {ι : Type} [DecidableEq ι] {cfg : Config ι} {w : World ι}
    (hw : Cluster.Reachable cfg w) {i : ι} {s : Nat}
    (hs : (w.peers i).probeStatus s = some (.resolved true)) :
    (∀ T, (w.peers i).purpose s = some (.direct T) →
      ∃ j, cfg.name j = T ∧ (j, ⟨s, T, cfg.name i, cfg.addr i⟩) ∈ w.handled) ∧
    ∀ T ra, (w.peers i).purpose s = some (.indirect T ra) →
      ∃ j r s' q, cfg.name j = T ∧ cfg.addr r = ra ∧ (w.peers r).purpose s' = some (.relay q) ∧
        (cfg.addr r, .pingReq q) ∈ w.sent ∧ q.seq = s ∧ q.sender = cfg.name i ∧
        q.senderAddr = cfg.addr i ∧ q.target = T ∧ (j, ⟨s', T, cfg.name r, cfg.addr r⟩) ∈ w.handled := by
  have h := hw.probeInv
  have hack := (h.resolved i s true hs).2
  refine ⟨fun T hT => ?_, fun T ra hT => ?_⟩
  · rcases h.ack_source hack with ⟨j, t, hj, ht, hp | ⟨q, hq, -⟩⟩ | ⟨_, _, _, -, -, -, -, -, -, hp⟩
    · rw [hT, Option.some.injEq, Purpose.direct.injEq] at hp
      subst hp; exact ⟨j, ht, hj⟩
    · rw [hT] at hq; cases hq
    · rw [hT] at hp; cases hp
  · rcases h.ack_source hack with ⟨_, _, -, -, hp | ⟨q, hq, -⟩⟩ |
      ⟨r, s', q, hq, hr, hqs, hqa, hreq, hqn, hp⟩
    · rw [hT] at hp; cases hp
    · rw [hT] at hq; cases hq
    · rw [hT, Option.some.injEq, Purpose.indirect.injEq] at hp
      obtain ⟨rfl, rfl⟩ := hp
      -- the relay's own waiter: only the target can have answered its PING
      rcases h.ack_source hr with ⟨j, t, hj, ht, hp | ⟨q', hq', ht'⟩⟩ |
        ⟨_, _, _, -, -, -, -, -, -, hp⟩
      · rw [hq] at hp; cases hp
      · rw [hq, Option.some.injEq, Purpose.relay.injEq] at hq'
        subst hq'
        exact ⟨j, r, s', q, ht.trans ht'.symm, rfl, hq, hreq, hqs, hqn, hqa, rfl, by rw [ht']; exact hj⟩
      · rw [hq] at hp; cases hp

/-- Node `a` probes `b`, which answers: `a`'s waiter is resolved with `True`, and `b` handled
`a`'s PING. -/
theorem direct_probe_answered :
    let w : World Bool := ((Act.deliver false (.ack 1 "b")).run Config.pair
      ((Act.deliver true (.ping ⟨1, "b", "a", ⟨"h", 1⟩⟩)).run Config.pair
        ((Act.probe false "b" ⟨"h", 2⟩).run Config.pair .init).state).state).state
    Cluster.Reachable Config.pair w ∧ (w.peers false).probeStatus 1 = some (.resolved true) ∧
      (w.peers false).purpose 1 = some (.direct "b") ∧
      ∃ j, Config.pair.name j = "b" ∧ (j, ⟨1, "b", "a", ⟨"h", 1⟩⟩) ∈ w.handled := by
  intro w
  have hw : Cluster.Reachable Config.pair w :=
    .step _ (.step _ (.step _ .init trivial) (by decide)) (by decide)
  exact ⟨hw, rfl, rfl, (acked_probe_pinged (i := false) (s := 1) hw rfl).1 "b" rfl⟩

end Tattle
