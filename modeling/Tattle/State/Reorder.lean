import Tattle.State.Gossip

/-!
# Gossip about different nodes, in either order

A handler about `n` reads little of the membership: the record and the suspect-table entry of
`n`, the local name and `_leaving`, the name on the local record (the sender of its broadcasts),
and the sequence when `n` is the local node (`SameView n`). What it writes is as small: the
record and the entry of `n`, the sequence (only `_refute` does, so only when `n` is the local
node), and what it appends to the queue and the events. So on two states it cannot tell apart it
ends alike and makes the same writes (`Twin`), and the writes of two handlers about different
names commute, but for the order in which the outputs are appended (`agree_of_sameWrites`).

## Main definitions

* `Members.SameView n`: two states a handler about `n` reads alike
* `Members.SameWrites n`: the same writes about `n`, on two states
* `Members.Twin n`: two calls that end alike, with the same writes about `n`
* `Members.Agree`: the same membership, with the outputs maybe in another order

## Main results

* `Members.twin_onNodeAlive`, `twin_onNodeSuspect`, `twin_onNodeDead`: a handler about `n` acts
  on what it reads about `n` only
* `Members.agree_of_sameWrites`: the writes about two names commute
* `Members.agree_of_twins`: so two handlers about different names commute
-/

namespace Tattle

namespace Members

variable {n m : String} {v w v' w' : Members}

/-- `w` reads as `v` to a handler about `n`. -/
structure SameView (n : String) (v w : Members) : Prop where
  record : w.record n = v.record n
  suspects : w.suspects n = v.suspects n
  localNodeName : w.localNodeName = v.localNodeName
  leaving : w.leaving = v.leaving
  localName : w.localRecord.map Node.name = v.localRecord.map Node.name
  seq : v.localNodeName = some n → w.localNodeSeq = v.localNodeSeq

/-- `v'` and `w'` are `v` and `w` after the same writes about `n`: the same record and
suspect-table entry of `n`, no other record or entry written, the sequence advanced by the same
steps (none unless `n` is the local node), and the same outputs appended. -/
structure SameWrites (n : String) (v w v' w' : Members) : Prop where
  record : w'.record n = v'.record n
  record_ne : ∀ k, k ≠ n → v'.record k = v.record k ∧ w'.record k = w.record k
  suspects : w'.suspects n = v'.suspects n
  suspects_ne : ∀ k, k ≠ n → v'.suspects k = v.suspects k ∧ w'.suspects k = w.suspects k
  localNodeName : v'.localNodeName = v.localNodeName ∧ w'.localNodeName = w.localNodeName
  leaving : v'.leaving = v.leaving ∧ w'.leaving = w.leaving
  seq : ∃ j, v'.localNodeSeq = v.localNodeSeq + j ∧ w'.localNodeSeq = w.localNodeSeq + j ∧
    (j = 0 ∨ v.localNodeName = some n)
  queue : ∃ q, v'.queue = v.queue ++ q ∧ w'.queue = w.queue ++ q
  events : ∃ e, v'.events = v.events ++ e ∧ w'.events = w.events ++ e

theorem SameView.refl (v : Members) : SameView n v v := ⟨rfl, rfl, rfl, rfl, rfl, fun _ => rfl⟩

theorem SameWrites.refl (h : SameView n v w) : SameWrites n v w v w where
  record := h.record
  record_ne _ _ := ⟨rfl, rfl⟩
  suspects := h.suspects
  suspects_ne _ _ := ⟨rfl, rfl⟩
  localNodeName := ⟨rfl, rfl⟩
  leaving := ⟨rfl, rfl⟩
  seq := ⟨0, rfl, rfl, .inl rfl⟩
  queue := ⟨[], (List.append_nil _).symm, (List.append_nil _).symm⟩
  events := ⟨[], (List.append_nil _).symm, (List.append_nil _).symm⟩

/-- After the same writes about `n`, the two states still read alike about `n`. -/
theorem SameView.of_writes (h : SameView n v w) (hw : SameWrites n v w v' w') : SameView n v' w' where
  record := hw.record
  suspects := hw.suspects
  localNodeName := by rw [hw.localNodeName.1, hw.localNodeName.2, h.localNodeName]
  leaving := by rw [hw.leaving.1, hw.leaving.2, h.leaving]
  localName := by
    unfold localRecord
    rw [hw.localNodeName.1, hw.localNodeName.2, h.localNodeName]
    cases hL : v.localNodeName with
    | none => rfl
    | some L =>
      simp only [Option.some_bind]
      by_cases hLn : L = n
      · subst hLn; rw [hw.record]
      · rw [(hw.record_ne L hLn).1, (hw.record_ne L hLn).2]
        simpa [localRecord, h.localNodeName, hL] using h.localName
  seq hL := by
    obtain ⟨j, h1, h2, -⟩ := hw.seq
    rw [h1, h2, h.seq (hw.localNodeName.1 ▸ hL)]

/-! ## The writes of the handlers -/

@[simp] theorem createSuspect_suspects : (v.createSuspect n).suspects = Function.update v.suspects n true :=
  rfl

section Writes

variable (hw : SameWrites n v w v' w')
include hw

theorem SameWrites.setRecord (x : Node) : SameWrites n v w (v'.setRecord n x) (w'.setRecord n x) :=
  { hw with
    record := by simp
    record_ne := fun k hk => by simpa [Function.update_noteq hk] using hw.record_ne k hk }

theorem SameWrites.createSuspect : SameWrites n v w (v'.createSuspect n) (w'.createSuspect n) :=
  { hw with
    suspects := by simp only [createSuspect_suspects, Function.update_same]
    suspects_ne := fun k hk => by
      simpa only [createSuspect_suspects, Function.update_noteq hk] using hw.suspects_ne k hk }

/-- The write of `_cancel_suspect_node` that finds its key. -/
theorem SameWrites.dropSuspect :
    SameWrites n v w { v' with suspects := Function.update v'.suspects n false }
      { w' with suspects := Function.update w'.suspects n false } :=
  { hw with
    suspects := by simp
    suspects_ne := fun k hk => by simpa [Function.update_noteq hk] using hw.suspects_ne k hk }

theorem SameWrites.push (k : String) (msg : Message) : SameWrites n v w (v'.push k msg) (w'.push k msg) :=
  { hw with
    queue := by
      obtain ⟨q, h1, h2⟩ := hw.queue
      exact ⟨q ++ [(k, msg)], by simp [h1], by simp [h2]⟩ }

theorem SameWrites.emit (st : Status) (k : String) : SameWrites n v w (v'.emit st k) (w'.emit st k) :=
  { hw with
    events := by
      obtain ⟨e, h1, h2⟩ := hw.events
      exact ⟨e ++ [⟨st, k⟩], by simp [h1], by simp [h2]⟩ }

/-- The step of the sequence `_refute` makes, for the local node. -/
theorem SameWrites.step (hL : v.localNodeName = some n) :
    SameWrites n v w { v' with localNodeSeq := v'.localNodeSeq + 1 }
      { w' with localNodeSeq := w'.localNodeSeq + 1 } :=
  { hw with
    seq := by
      obtain ⟨j, h1, h2, -⟩ := hw.seq
      exact ⟨j + 1, by simp only [h1]; omega, by simp only [h2]; omega, .inr hL⟩ }

end Writes

/-! ## Two calls that end alike -/

/-- `a` and `b` end alike, normally or by the same exception, and leave `v` and `w` with the same
writes about `n`. -/
def Twin (n : String) (v w : Members) : Ret Members → Ret Members → Prop
  | .ok v', .ok w' => SameWrites n v w v' w'
  | .raised e v', .raised e' w' => e = e' ∧ SameWrites n v w v' w'
  | _, _ => False

theorem Twin.state {a b : Ret Members} (h : Twin n v w a b) : SameWrites n v w a.state b.state :=
  match a, b, h with
  | .ok _, .ok _, h => h
  | .raised _ _, .raised _ _, h => h.2

/-- `a; f` and `b; f` end alike when `a` and `b` do. -/
theorem Twin.andThen {a b : Ret Members} {f : Members → Ret Members} (h : Twin n v w a b)
    (hf : ∀ v' w', SameWrites n v w v' w' → Twin n v w (f v') (f w')) :
    Twin n v w (a.andThen f) (b.andThen f) :=
  match a, b, h with
  | .ok _, .ok _, h => hf _ _ h
  | .raised _ _, .raised _ _, h => h

section Calls

variable (h : SameView n v w)
include h

theorem twin_cancel_if (hw : SameWrites n v w v' w') (c : Prop) [Decidable c] :
    Twin n v w (if c then v'.cancelSuspect n else .ok v') (if c then w'.cancelSuspect n else .ok w') := by
  split
  · unfold cancelSuspect
    rw [(h.of_writes hw).suspects]
    split
    · exact hw.dropSuspect
    · exact ⟨rfl, hw⟩
  · exact hw

/-- A broadcast with the local node as sender: `AttributeError` on both states, or the same
message queued on both. -/
theorem twin_sender (hw : SameWrites n v w v' w') (f : String → Message) :
    Twin n v w
      (match v'.localRecord with
        | none => .raised .attributeError v'
        | some l => .ok (v'.push n (f l.name)))
      (match w'.localRecord with
        | none => .raised .attributeError w'
        | some l => .ok (w'.push n (f l.name))) := by
  have hl := (h.of_writes hw).localName
  rcases h1 : v'.localRecord with _ | l <;> rcases h2 : w'.localRecord with _ | l' <;>
    rw [h1, h2] at hl
  · exact ⟨rfl, hw⟩
  · cases hl
  · cases hl
  · injection hl with hl
    dsimp only
    rw [hl]
    exact hw.push _ _

theorem twin_broadcastSuspect (hw : SameWrites n v w v' w') (x : Node) :
    Twin n v w (v'.broadcastSuspect n x) (w'.broadcastSuspect n x) :=
  twin_sender h hw fun l => .suspect n x.incarnation l

theorem twin_broadcastDead (hw : SameWrites n v w v' w') (x : Node) :
    Twin n v w (v'.broadcastDead n x) (w'.broadcastDead n x) :=
  twin_sender h hw fun l => .dead n x.incarnation l

theorem twin_refute (hL : v.localNodeName = some n) : Twin n v w v.refute w.refute := by
  have hs := (SameWrites.refl h).step hL
  have hwL := h.localNodeName.trans hL
  rcases refute_cases (v := v) with ⟨hv, hrv⟩ | ⟨L, x, hL1, hx, hrv⟩ <;>
    rcases refute_cases (v := w) with ⟨hw, hrw⟩ | ⟨L', x', hL2, hx', hrw⟩ <;> rw [hrv, hrw]
  · exact ⟨rfl, hs⟩
  · simp only [localRecord, hL, Option.some_bind] at hv
    cases hwL.symm.trans hL2
    rw [h.record, hv] at hx'; cases hx'
  · simp only [localRecord, hwL, Option.some_bind, h.record] at hw
    cases hL.symm.trans hL1
    rw [hx] at hw; cases hw
  · cases hL.symm.trans hL1
    cases hwL.symm.trans hL2
    cases hx.symm.trans (h.record.symm.trans hx')
    rw [h.seq hL] at hs ⊢
    exact (hs.setRecord _).push _ _

theorem twin_aliveKnown (hw : SameWrites n v w v' w') (x : Node) (incarnation : Nat) (host : String)
    (port : Nat) (metadata : Metadata) :
    Twin n v w (v'.aliveKnown n x incarnation host port metadata)
      (w'.aliveKnown n x incarnation host port metadata) := by
  unfold aliveKnown
  rw [(h.of_writes hw).localNodeName]
  by_cases h1 : x.host ≠ host ∨ x.port ≠ port
  · simp only [if_pos h1]; exact hw
  by_cases h2 : v'.localNodeName ≠ some n ∧ incarnation ≤ x.incarnation
  · simp only [if_neg h1, if_pos h2]; exact hw
  by_cases h3 : v'.localNodeName = some n ∧ incarnation < x.incarnation
  · simp only [if_neg h1, if_neg h2, if_pos h3]; exact hw
  simp only [if_neg h1, if_neg h2, if_neg h3]
  refine Twin.andThen (twin_cancel_if h hw _) fun v1 w1 hw1 => ?_
  split_ifs
  · exact ((hw1.setRecord _).push _ _).emit _ _
  · exact (hw1.setRecord _).push _ _

/-- **`on_node_alive` about `n` acts on what it reads about `n` only.** -/
theorem twin_onNodeAlive (incarnation : Nat) (host : String) (port : Nat) (metadata : Metadata) :
    Twin n v w (v.onNodeAlive n incarnation host port metadata)
      (w.onNodeAlive n incarnation host port metadata) := by
  unfold onNodeAlive
  rw [h.record]
  cases v.record n with
  | some x => exact twin_aliveKnown h (.refl h) x _ _ _ _
  | none => exact twin_aliveKnown h ((SameWrites.refl h).setRecord _) _ _ _ _ _

/-- **`on_node_dead` about `n` acts on what it reads about `n` only.** -/
theorem twin_onNodeDead (incarnation : Nat) :
    Twin n v w (v.onNodeDead n incarnation) (w.onNodeDead n incarnation) := by
  unfold onNodeDead
  rw [h.record, h.localNodeName, h.leaving]
  cases v.record n with
  | none => exact SameWrites.refl h
  | some x =>
    dsimp only
    by_cases h1 : x.status = .dead
    · simp only [if_pos h1]; exact SameWrites.refl h
    by_cases h2 : incarnation < x.incarnation
    · simp only [if_neg h1, if_pos h2]; exact SameWrites.refl h
    by_cases h3 : v.localNodeName = some n ∧ v.leaving = false
    · simp only [if_neg h1, if_neg h2, if_pos h3]; exact twin_refute h h3.1
    simp only [if_neg h1, if_neg h2, if_neg h3]
    refine Twin.andThen (twin_cancel_if h (.refl h) _) fun v1 w1 hw1 => ?_
    refine Twin.andThen (twin_broadcastDead h (hw1.setRecord _) _) fun v2 w2 hw2 => ?_
    rw [if_pos h1, if_pos h1]
    exact hw2.emit _ _

/-- **`on_node_suspect` about `n` acts on what it reads about `n` only.** -/
theorem twin_onNodeSuspect (incarnation : Nat) (metadata : Metadata) :
    Twin n v w (v.onNodeSuspect n incarnation metadata) (w.onNodeSuspect n incarnation metadata) := by
  unfold onNodeSuspect
  rw [h.record, h.localNodeName]
  cases v.record n with
  | none => exact SameWrites.refl h
  | some x =>
    dsimp only
    by_cases h1 : x.status = .dead
    · simp only [if_pos h1]; exact SameWrites.refl h
    by_cases h2 : incarnation < x.incarnation
    · simp only [if_neg h1, if_pos h2]; exact SameWrites.refl h
    by_cases h3 : v.localNodeName = some n
    · simp only [if_neg h1, if_neg h2, if_pos h3]; exact twin_refute h h3
    simp only [if_neg h1, if_neg h2, if_neg h3]
    refine Twin.andThen (twin_broadcastSuspect h (((SameWrites.refl h).setRecord _).createSuspect) _)
      fun v2 w2 hw2 => ?_
    split_ifs
    · exact hw2.emit _ _
    · exact hw2

end Calls

/-! ## Writes about two names commute -/

/-- `w` holds the membership of `v`, with the outputs maybe in another order. -/
structure Agree (v w : Members) : Prop where
  record : w.record = v.record
  suspects : w.suspects = v.suspects
  localNodeName : w.localNodeName = v.localNodeName
  localNodeSeq : w.localNodeSeq = v.localNodeSeq
  leaving : w.leaving = v.leaving
  queue : w.queue.Perm v.queue
  events : w.events.Perm v.events

theorem Agree.refl (v : Members) : Agree v v := ⟨rfl, rfl, rfl, rfl, rfl, .refl _, .refl _⟩

theorem Agree.symm (h : Agree v w) : Agree w v :=
  ⟨h.record.symm, h.suspects.symm, h.localNodeName.symm, h.localNodeSeq.symm, h.leaving.symm,
    h.queue.symm, h.events.symm⟩

theorem Agree.trans {u : Members} (h : Agree v w) (h' : Agree w u) : Agree v u :=
  ⟨h'.record.trans h.record, h'.suspects.trans h.suspects, h'.localNodeName.trans h.localNodeName,
    h'.localNodeSeq.trans h.localNodeSeq, h'.leaving.trans h.leaving, h'.queue.trans h.queue,
    h'.events.trans h.events⟩

/-- A handler cannot tell apart two states that agree. -/
theorem Agree.sameView (h : Agree v w) (n : String) : SameView n v w :=
  ⟨congrFun h.record n, congrFun h.suspects n, h.localNodeName, h.leaving,
    by simp [localRecord, h.localNodeName, h.record], fun _ => h.localNodeSeq⟩

/-- The same writes on two states that agree leave states that agree. -/
theorem SameWrites.agree (h : Agree v w) (hw : SameWrites n v w v' w') : Agree v' w' where
  record := funext fun k => by
    by_cases hk : k = n
    · subst hk; exact hw.record
    · rw [(hw.record_ne k hk).1, (hw.record_ne k hk).2, h.record]
  suspects := funext fun k => by
    by_cases hk : k = n
    · subst hk; exact hw.suspects
    · rw [(hw.suspects_ne k hk).1, (hw.suspects_ne k hk).2, h.suspects]
  localNodeName := by rw [hw.localNodeName.1, hw.localNodeName.2, h.localNodeName]
  localNodeSeq := by obtain ⟨j, h1, h2, -⟩ := hw.seq; rw [h1, h2, h.localNodeSeq]
  leaving := by rw [hw.leaving.1, hw.leaving.2, h.leaving]
  queue := by obtain ⟨q, h1, h2⟩ := hw.queue; rw [h1, h2]; exact h.queue.append_right q
  events := by obtain ⟨e, h1, h2⟩ := hw.events; rw [h1, h2]; exact h.events.append_right e

/-- **Writes about two names commute.** `a` is what a handler about `n` leaves of `v`, `b` what
one about `m` leaves; `ba` and `ab` are the second handler run after the first, each making on
its new state the writes it makes on `v`. They agree. -/
theorem agree_of_sameWrites (hnm : n ≠ m) {a b ab ba : Members} (h1 : SameWrites n v b a ba)
    (h2 : SameWrites m v a b ab) : Agree ab ba where
  record := funext fun k => by
    by_cases hkn : k = n
    · subst hkn; exact h1.record.trans (h2.record_ne k hnm).2.symm
    by_cases hkm : k = m
    · subst hkm; exact (h1.record_ne k hkn).2.trans h2.record.symm
    rw [(h1.record_ne k hkn).2, (h2.record_ne k hkm).1, (h2.record_ne k hkm).2,
      (h1.record_ne k hkn).1]
  suspects := funext fun k => by
    by_cases hkn : k = n
    · subst hkn; exact h1.suspects.trans (h2.suspects_ne k hnm).2.symm
    by_cases hkm : k = m
    · subst hkm; exact (h1.suspects_ne k hkn).2.trans h2.suspects.symm
    rw [(h1.suspects_ne k hkn).2, (h2.suspects_ne k hkm).1, (h2.suspects_ne k hkm).2,
      (h1.suspects_ne k hkn).1]
  localNodeName := by
    rw [h1.localNodeName.2, h2.localNodeName.1, h2.localNodeName.2, h1.localNodeName.1]
  localNodeSeq := by
    obtain ⟨j, h1a, h1b, -⟩ := h1.seq
    obtain ⟨j', h2a, h2b, -⟩ := h2.seq
    omega
  leaving := by rw [h1.leaving.2, h2.leaving.1, h2.leaving.2, h1.leaving.1]
  queue := by
    obtain ⟨q, h1a, h1b⟩ := h1.queue
    obtain ⟨q', h2a, h2b⟩ := h2.queue
    rw [h1b, h2a, h2b, h1a, List.append_assoc, List.append_assoc]
    exact List.perm_append_comm.append_left _
  events := by
    obtain ⟨e, h1a, h1b⟩ := h1.events
    obtain ⟨e', h2a, h2b⟩ := h2.events
    rw [h1b, h2a, h2b, h1a, List.append_assoc, List.append_assoc]
    exact List.perm_append_comm.append_left _

/-- What a handler about `m` leaves reads as the state before to a handler about another name,
when the name on the local record is unchanged. -/
theorem SameView.of_other (hnm : n ≠ m) (hw : SameWrites m v v w w)
    (hl : w.localRecord.map Node.name = v.localRecord.map Node.name) : SameView n v w where
  record := (hw.record_ne n hnm).2
  suspects := (hw.suspects_ne n hnm).2
  localNodeName := hw.localNodeName.2
  leaving := hw.leaving.2
  localName := hl
  seq hL := by
    obtain ⟨j, -, h2, hj⟩ := hw.seq
    rcases hj with rfl | hm
    · exact h2
    · exact absurd (Option.some.inj (hL.symm.trans hm)) hnm

/-- **Two handlers about different names commute.** `f` about `n` and `g` about `m` act on what
they read about their names only, and on `v` neither changes the name on the local record. Then
`g` after `f` and `f` after `g` agree. -/
theorem agree_of_twins (hnm : n ≠ m) {f g : Members → Ret Members}
    (hf : ∀ {v w}, SameView n v w → Twin n v w (f v) (f w))
    (hg : ∀ {v w}, SameView m v w → Twin m v w (g v) (g w))
    (hlf : (f v).state.localRecord.map Node.name = v.localRecord.map Node.name)
    (hlg : (g v).state.localRecord.map Node.name = v.localRecord.map Node.name) :
    Agree (g (f v).state).state (f (g v).state).state :=
  agree_of_sameWrites hnm (hf (.of_other hnm (hg (.refl v)).state hlg)).state
    (hg (.of_other hnm.symm (hf (.refl v)).state hlf)).state

end Members

namespace Call

variable {L : String} {s : NodeManager} {n : String} {c : Call} {v w : Members}

/-- A call about `n` reads no timer: it does the same on names whatever state it is made in. -/
theorem onMembers_of_about (hc : c.About n) (s s' : NodeManager) : c.onMembers L s = c.onMembers L s' := by
  cases c <;> first | rfl | cases hc

open Members in
/-- A call about `n` acts on what it reads about `n` only. -/
theorem twin_onMembers (hc : c.About n) (h : SameView n v w) :
    Twin n v w (c.onMembers L s v) (c.onMembers L s w) := by
  cases c with
  | alive => cases hc; exact twin_onNodeAlive h _ _ _ _
  | suspect => cases hc; exact twin_onNodeSuspect h _ _
  | dead => cases hc; exact twin_onNodeDead h _
  | _ => cases hc

end Call

end Tattle
