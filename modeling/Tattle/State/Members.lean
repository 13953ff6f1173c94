import Tattle.State.Records

/-!
# The membership by name

`Members` is what a `NodeManager` holds once references are read as names: the record filed
under each name, the names with a suspect record, the local node's name and sequence, the
`_leaving` flag, and the two outputs. It forgets the heap, the order of `_nodes` and the timers.

The handlers are restated on `Members`, step for step as the source runs them; on a `WF` state a
call of the heap model and its restatement end alike and leave the same membership
(`Call.map_run`). The invariants of the membership are proved on `Members`.

## Main definitions

* `Members`, `NodeManager.members`: the membership, and the membership a state holds
* `Members.onNodeAlive`, `onNodeSuspect`, `onNodeDead`, `refute`, `setLocalNode`,
  `leaveLocalNode`: the handlers on names
* `Call.onMembers`: what a call does to the membership

## Main results

* `NodeManager.map_onNodeAlive`, `map_onNodeSuspect`, `map_onNodeDead`: the heap model
  refines the handlers on names
* `Call.map_run`: every call, from a `WF` state
-/

namespace Tattle

/-- The membership a `NodeManager` holds, by name. -/
structure Members where
  record : String → Option Node
  /-- The names with a `SuspectNode`. -/
  suspects : String → Bool
  localNodeName : Option String
  localNodeSeq : Nat
  leaving : Bool
  queue : List (String × Message)
  events : List Event

namespace Members

variable (v : Members)

/-- The local node's record. -/
def localRecord : Option Node := v.localNodeName.bind v.record

def setRecord (n : String) (x : Node) : Members :=
  { v with record := Function.update v.record n (some x) }

def push (n : String) (m : Message) : Members := { v with queue := v.queue ++ [(n, m)] }

def emit (st : Status) (n : String) : Members := { v with events := v.events ++ [⟨st, n⟩] }

def broadcastAlive (n : String) (x : Node) : Members :=
  v.push n (.alive n ⟨x.host, x.port⟩ x.incarnation x.metadata)

def broadcastSuspect (n : String) (x : Node) : Ret Members :=
  match v.localRecord with
  | none => .raised .attributeError v
  | some l => .ok (v.push n (.suspect n x.incarnation l.name))

def broadcastDead (n : String) (x : Node) : Ret Members :=
  match v.localRecord with
  | none => .raised .attributeError v
  | some l => .ok (v.push n (.dead n x.incarnation l.name))

def createSuspect (n : String) : Members := { v with suspects := Function.update v.suspects n true }

section Fields

variable {n : String} {x : Node} {m : Message} {st : Status}

@[simp] theorem setRecord_record : (v.setRecord n x).record = Function.update v.record n (some x) := rfl
@[simp] theorem setRecord_events : (v.setRecord n x).events = v.events := rfl
@[simp] theorem setRecord_queue : (v.setRecord n x).queue = v.queue := rfl
@[simp] theorem push_record : (v.push n m).record = v.record := rfl
@[simp] theorem push_events : (v.push n m).events = v.events := rfl
@[simp] theorem push_queue : (v.push n m).queue = v.queue ++ [(n, m)] := rfl
@[simp] theorem emit_record : (v.emit st n).record = v.record := rfl
@[simp] theorem emit_events : (v.emit st n).events = v.events ++ [⟨st, n⟩] := rfl
@[simp] theorem emit_queue : (v.emit st n).queue = v.queue := rfl
@[simp] theorem createSuspect_record : (v.createSuspect n).record = v.record := rfl
@[simp] theorem createSuspect_events : (v.createSuspect n).events = v.events := rfl
@[simp] theorem createSuspect_queue : (v.createSuspect n).queue = v.queue := rfl
@[simp] theorem broadcastAlive_record : (v.broadcastAlive n x).record = v.record := rfl
@[simp] theorem broadcastAlive_events : (v.broadcastAlive n x).events = v.events := rfl

end Fields

def cancelSuspect (n : String) : Ret Members :=
  if v.suspects n then .ok { v with suspects := Function.update v.suspects n false }
  else .raised .keyError v

def refute : Ret Members :=
  let v := { v with localNodeSeq := v.localNodeSeq + 1 }
  match v.localNodeName with
  | none => .raised .attributeError v
  | some L =>
    match v.record L with
    | none => .raised .attributeError v
    | some x =>
      let x := { x with incarnation := v.localNodeSeq }
      .ok ((v.setRecord L x).broadcastAlive L x)

def aliveKnown (name : String) (x : Node) (incarnation : Nat) (host : String) (port : Nat)
    (metadata : Metadata) : Ret Members :=
  if x.host ≠ host ∨ x.port ≠ port then .ok v
  else if v.localNodeName ≠ some name ∧ incarnation ≤ x.incarnation then .ok v
  else if v.localNodeName = some name ∧ incarnation < x.incarnation then .ok v
  else
    (if x.status = .suspect then v.cancelSuspect name else .ok v).andThen fun v =>
      let x' := { x with incarnation, status := .alive, metadata := x.metadata.merge metadata }
      let v := (v.setRecord name x').broadcastAlive name x'
      .ok (if x.status ≠ .alive then v.emit .alive name else v)

def onNodeAlive (name : String) (incarnation : Nat) (host : String) (port : Nat)
    (metadata : Metadata) : Ret Members :=
  match v.record name with
  | some x => v.aliveKnown name x incarnation host port metadata
  | none => (v.setRecord name (Node.new name host port)).aliveKnown name (Node.new name host port)
      incarnation host port metadata

def onNodeDead (name : String) (incarnation : Nat) : Ret Members :=
  match v.record name with
  | none => .ok v
  | some x =>
    if x.status = .dead then .ok v
    else if incarnation < x.incarnation then .ok v
    else if v.localNodeName = some name ∧ v.leaving = false then v.refute
    else
      (if x.status = .suspect then v.cancelSuspect name else .ok v).andThen fun v =>
        let x' := { x with incarnation, status := .dead }
        ((v.setRecord name x').broadcastDead name x').andThen fun v =>
          .ok (if x.status ≠ .dead then v.emit .dead name else v)

def onNodeSuspect (name : String) (incarnation : Nat) (metadata : Metadata) : Ret Members :=
  match v.record name with
  | none => .ok v
  | some x =>
    if x.status = .dead then .ok v
    else if incarnation < x.incarnation then .ok v
    else if v.localNodeName = some name then v.refute
    else
      let x' := { x with incarnation, status := .suspect, metadata := x.metadata.merge metadata }
      (((v.setRecord name x').createSuspect name).broadcastSuspect name x').andThen fun v =>
        .ok (if x.status ≠ .suspect then v.emit .suspect name else v)

def setLocalNode (name host : String) (port : Nat) (metadata : Metadata) : Ret Members :=
  let v := { v with localNodeName := some name, localNodeSeq := v.localNodeSeq + 1 }
  v.onNodeAlive name v.localNodeSeq host port metadata

def leaveLocalNode : Ret Members :=
  match v.localNodeName with
  | none => .raised .assertionError v
  | some L =>
    let v := { v with leaving := true }
    match v.record L with
    | none => .raised .attributeError v
    | some x => v.onNodeDead x.name x.incarnation

end Members

namespace Ret

variable {σ τ : Type}

/-- The same end, with the state seen through `f`. -/
def map (f : σ → τ) : Ret σ → Ret τ
  | .ok s => .ok (f s)
  | .raised e s => .raised e (f s)

@[simp] theorem map_ok (f : σ → τ) (s : σ) : (Ret.ok s).map f = .ok (f s) := rfl

@[simp] theorem map_raised (f : σ → τ) (e : PyError) (s : σ) :
    (Ret.raised e s).map f = .raised e (f s) := rfl

@[simp] theorem state_map (f : σ → τ) (r : Ret σ) : (r.map f).state = f r.state := by
  cases r <;> rfl

/-- Seen through `f`, `a; b` is `a'; b'` when `a` is seen as `a'` and `b` as `b'` on the states
`a` can end normally in. -/
theorem map_andThen (f : σ → τ) {a : Ret σ} {b : σ → Ret σ} {a' : Ret τ} {b' : τ → Ret τ}
    (P : σ → Prop) (ha : a.map f = a') (hP : ∀ s, a = .ok s → P s)
    (hb : ∀ s, P s → (b s).map f = b' (f s)) : (a.andThen b).map f = a'.andThen b' := by
  subst ha
  cases a with
  | ok s => exact hb s (hP s rfl)
  | raised e s => rfl

theorem exists_of_map_eq_ok {f : σ → τ} {r : Ret σ} {y : τ} (h : r.map f = .ok y) :
    ∃ x, r = .ok x ∧ f x = y := by
  cases r with
  | ok x => exact ⟨x, rfl, Ret.ok.inj h⟩
  | raised e x => cases h

theorem exists_of_map_eq_raised {f : σ → τ} {r : Ret σ} {e : PyError} {y : τ} (h : r.map f = .raised e y) :
    ∃ x, r = .raised e x ∧ f x = y := by
  cases r with
  | ok x => cases h
  | raised e' x => cases h; exact ⟨x, rfl, rfl⟩

theorem state_andThen {P : σ → Prop} {a : Ret σ} {b : σ → Ret σ} (ha : P a.state)
    (hb : ∀ s, a = .ok s → P (b s).state) : P (a.andThen b).state := by
  cases a with
  | ok s => exact hb s rfl
  | raised e s => exact ha

end Ret

end Tattle

namespace Tattle

namespace NodeManager

variable {s : NodeManager}

/-- The membership a state holds. -/
def members (s : NodeManager) : Members where
  record := s.record
  suspects n := (s.suspectNodes n).isSome
  localNodeName := s.localNodeName
  localNodeSeq := s.localNodeSeq
  leaving := s.leaving
  queue := s.queue
  events := s.events

@[simp] theorem members_record : s.members.record = s.record := rfl
@[simp] theorem members_suspects (n : String) : s.members.suspects n = (s.suspectNodes n).isSome := rfl
@[simp] theorem members_localNodeName : s.members.localNodeName = s.localNodeName := rfl
@[simp] theorem members_localNodeSeq : s.members.localNodeSeq = s.localNodeSeq := rfl
@[simp] theorem members_leaving : s.members.leaving = s.leaving := rfl
@[simp] theorem members_queue : s.members.queue = s.queue := rfl
@[simp] theorem members_events : s.members.events = s.events := rfl

theorem WF.of_eq {s' : NodeManager} (h : s.WF) (hh : s'.heap = s.heap)
    (hm : s'.nodesMap = s.nodesMap) (hn : s'.next = s.next) : s'.WF where
  lt_next hr := by rw [hn]; exact h.lt_next (hm ▸ hr)
  name_eq hr := by rw [hh]; exact h.name_eq (hm ▸ hr)

/-! ## The helpers, on names -/

section Helpers

variable (h : s.WF) {n : String} {r : Nat} (hr : s.nodesMap n = some r)
include h hr

theorem members_setNode (f : Node → Node) :
    (s.setNode r f).members = s.members.setRecord n (f (s.heap r)) := by
  have hrec : (s.setNode r f).record = Function.update s.record n (some (f (s.heap r))) := by
    funext m; rw [record_setNode h hr, Function.update_apply]
  simp only [members, Members.setRecord, hrec]; rfl

theorem members_sendBroadcast (msg : Message) :
    (s.sendBroadcast r msg).members = s.members.push n msg := by
  simp only [members, sendBroadcast, Members.push, h.name_eq hr]; rfl

theorem members_broadcastAlive :
    (s.broadcastAlive r).members = s.members.broadcastAlive n (s.heap r) := by
  simp only [broadcastAlive, members_sendBroadcast h hr, Members.broadcastAlive, h.name_eq hr]

theorem members_emit (st : Status) : (s.emit st r).members = s.members.emit st n := by
  simp only [members, emit, Members.emit, h.name_eq hr]; rfl

theorem members_createSuspectNode : (s.createSuspectNode r).members = s.members.createSuspect n := by
  unfold createSuspectNode members Members.createSuspect
  rw [h.name_eq hr]
  split
  · rename_i t ht
    simp only [Members.mk.injEq, and_true, true_and]
    funext m; by_cases hm : m = n
    · subst hm; simp [ht]
    · simp [Function.update_noteq hm]
  · simp only [Members.mk.injEq, and_true, true_and]
    constructor
    · rfl
    · funext m; by_cases hm : m = n
      · subst hm; simp
      · simp [Function.update_noteq hm]

theorem map_cancelSuspectNode :
    (s.cancelSuspectNode r).map members = s.members.cancelSuspect n := by
  unfold cancelSuspectNode Members.cancelSuspect
  rw [h.name_eq hr]
  split
  · rename_i ht; simp [members, ht]
  · rename_i t ht
    simp only [members, ht, Option.isSome_some, if_true, Ret.map_ok, Ret.ok.injEq, Members.mk.injEq,
      and_true, true_and]
    constructor
    · rfl
    · funext m; by_cases hm : m = n
      · subst hm; simp
      · simp [Function.update_noteq hm]

end Helpers

theorem localRecord_members : s.members.localRecord = s.localNode.map s.heap := by
  unfold Members.localRecord localNode members record
  cases s.localNodeName <;> simp

section Broadcast

variable (h : s.WF) {n : String} {r : Nat} (hr : s.nodesMap n = some r)
include h hr

theorem map_broadcastSuspect :
    (s.broadcastSuspect r).map members = s.members.broadcastSuspect n (s.heap r) := by
  unfold broadcastSuspect Members.broadcastSuspect
  rw [localRecord_members]
  cases s.localNode with
  | none => rfl
  | some l => simp only [Option.map_some', Ret.map_ok, members_sendBroadcast h hr, h.name_eq hr]

theorem map_broadcastDead :
    (s.broadcastDead r).map members = s.members.broadcastDead n (s.heap r) := by
  unfold broadcastDead Members.broadcastDead
  rw [localRecord_members]
  cases s.localNode with
  | none => rfl
  | some l => simp only [Option.map_some', Ret.map_ok, members_sendBroadcast h hr, h.name_eq hr]

end Broadcast

theorem map_refute (h : s.WF) : s.refute.map members = s.members.refute := by
  unfold refute Members.refute
  generalize hs1 : ({ s with localNodeSeq := s.localNodeSeq + 1 } : NodeManager) = s1
  have hw : s1.WF := hs1 ▸ h.of_eq rfl rfl rfl
  have hv : ({ s.members with localNodeSeq := s.members.localNodeSeq + 1 } : Members) = s1.members := by
    rw [← hs1]; rfl
  rw [hv]
  unfold localNode
  cases hL : s1.localNodeName with
  | none => simp [hL]
  | some L =>
    cases hl : s1.nodesMap L with
    | none => simp [hL, record, hl]
    | some l =>
      simp only [hL, Option.some_bind, hl, Ret.map_ok, members_record, record, Option.map_some']
      rw [members_broadcastAlive (hw.setNode l (f := fun n => { n with incarnation := s1.localNodeSeq }) fun _ => rfl) hl, members_setNode hw hl]
      simp [hL, hl, setNode]

end NodeManager

end Tattle
