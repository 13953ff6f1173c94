import Mathlib.Data.List.Nodup
import Tattle.Cluster.Probe

/-!
# The probe table `_probe_status`, at the grain of the event loop

`Cluster._probe_node`, `_probe_node_indirect_via` and `_handle_ping_request_message` each take
the next sequence number from `_probe_seq`, send, and await `_wait_for_probe(seq)`, which
registers a future in `_probe_status[seq]` and waits for it under `asyncio.wait_for`. The send
does not suspend, so the registration follows the allocation at once. `_handle_ack_message` and
`_handle_nack_message` call `set_result` on the future of a registered `seq`, and ignore an
unknown one. The `finally` of `_wait_for_probe` deletes the entry when the task resumes.

`Cluster.Probe` deletes a waiter at its timeout in one step. Here the timeout is two: the
timeout of `wait_for` cancels the future (`expire`), and the task resumes later, when its
`finally` deletes the entry (`resume`). Between the two the entry holds a cancelled future, and
an ACK or NACK handled then finds it registered, raises `InvalidStateError` from `set_result`,
and is lost: the wait raises `TimeoutError`. So the result of a wait is decided by the first
thing its waiter hears, an ACK or NACK or its timeout (`probe_table_invariant`), and not by the
first ACK or NACK it hears while registered (`late_ack_after_timeout`).

Each waiter's history is kept as ghost state (`heard`): what it heard while registered. The
results of the waits are what the tasks go on with.

## Main definitions

* `Fut`, `ProbeEvent`, `ProbeTable`: a registered future, the steps, and the table with the tasks
  waiting on it
* `ProbeTable.step`, `ProbeTable.run`: a step, and a run of steps in any interleaving
* `ProbeTable.Refines`: the table of `Cluster.Probe` as a view of this one

## Main results

* `ProbeTable.TableInv.run`: the invariant of the table holds after every run
* `probe_table_invariant`: sequence numbers are never shared, an entry exists exactly while its
  task waits, a wait returns what its waiter heard first, and an ACK or NACK for an unknown
  sequence number changes nothing
* `ProbeTable.Refines.register`, `.resolve`, `.expire_pending`, `.resume`: each step is a step of
  the table of `Cluster.Probe`, or leaves it as it is
-/

namespace Tattle

/-- The future `_wait_for_probe` registers: pending, resolved by `set_result`, or cancelled by
the timeout of `asyncio.wait_for`. -/
inductive Fut
  | pending
  | resolved (result : Bool)
  | cancelled
  deriving DecidableEq, Repr

/-- What a wait returns: the result its future was resolved with, or `none` for the
`TimeoutError` it raises. -/
def Fut.result : Fut → Option Bool
  | .resolved b => some b
  | _ => none

/-- What a registered waiter hears: an ACK (`true`) or NACK (`false`) handled while it is
registered, or its timeout. -/
inductive Heard
  | reply (result : Bool)
  | expiry
  deriving DecidableEq, Repr

namespace Heard

/-- The future after a waiter heard `hs`: the first thing heard decides it. -/
def fut : List Heard → Fut
  | [] => .pending
  | reply b :: _ => .resolved b
  | expiry :: _ => .cancelled

theorem fut_eq_pending {hs : List Heard} (h : fut hs = .pending) : hs = [] := by
  rcases hs with _ | ⟨_ | _, _⟩ <;> first | rfl | cases h

/-- Once a waiter has heard something, what it hears next does not change its future. -/
theorem fut_append {hs : List Heard} (h : hs ≠ []) (x : Heard) : fut (hs ++ [x]) = fut hs := by
  rcases hs with _ | ⟨_ | _, _⟩
  · exact absurd rfl h
  all_goals rfl

end Heard

/-- A step of the probe table. -/
inductive ProbeEvent
  /-- A probe task takes the next `seq` from `_probe_seq`, sends, and awaits
  `_wait_for_probe(seq)`, which registers a pending future. -/
  | probe
  /-- `_handle_ack_message` (`true`) or `_handle_nack_message` (`false`) for `seq`. -/
  | reply (seq : Nat) (result : Bool)
  /-- The timeout of the `wait_for` of `seq` fires. -/
  | expire (seq : Nat)
  /-- The task waiting on `seq` resumes. -/
  | resume (seq : Nat)
  deriving DecidableEq, Repr

/-- The probe state of one `Cluster`, with the tasks waiting in `_wait_for_probe`. -/
structure ProbeTable where
  /-- The last value `_probe_seq` returned. -/
  probeSeq : Nat
  /-- `_probe_status`. -/
  probeStatus : Nat → Option Fut
  /-- The sequence numbers of the tasks suspended in `_wait_for_probe`, oldest first. -/
  waiting : List Nat
  /-- What each finished wait returned, in order. -/
  results : List (Nat × Option Bool)
  /-- Ghost: what each waiter heard while it was registered, in order. -/
  heard : Nat → List Heard

namespace ProbeTable

variable (t : ProbeTable)

/-- A `Cluster` before any probe. -/
def init : ProbeTable := ⟨0, fun _ => none, [], [], fun _ => []⟩

/-- Ghost: the waiter of `seq` hears `h`. -/
def hear (seq : Nat) (h : Heard) : ProbeTable :=
  { t with heard := Function.update t.heard seq (t.heard seq ++ [h]) }

/-- `_probe_status[seq]` becomes `f`. -/
def setStatus (seq : Nat) (f : Option Fut) : ProbeTable :=
  { t with probeStatus := Function.update t.probeStatus seq f }

/-- `self._probe_seq.increment()`, and the pending future `_wait_for_probe` registers for it. -/
def register : ProbeTable :=
  { t with probeSeq := t.probeSeq + 1
           probeStatus := Function.update t.probeStatus (t.probeSeq + 1) (some .pending)
           waiting := t.waiting ++ [t.probeSeq + 1] }

/-- `self._probe_status[ack_seq].set_result(result)` if `ack_seq in self._probe_status`; on a
future that is done already it raises `InvalidStateError`. -/
def resolve (seq : Nat) (result : Bool) : Ret ProbeTable :=
  match t.probeStatus seq with
  | none => .ok t
  | some .pending => .ok ((t.hear seq (.reply result)).setStatus seq (some (.resolved result)))
  | some _ => .raised .invalidStateError (t.hear seq (.reply result))

/-- The timeout of `wait_for` cancels the future if it is still pending. A timer whose future is
done changes nothing: `wait_for` returns the result. -/
def expire (seq : Nat) : ProbeTable :=
  match t.probeStatus seq with
  | some .pending => (t.hear seq .expiry).setStatus seq (some .cancelled)
  | _ => t

/-- The task waiting on `seq` resumes with `result`, and `del self._probe_status[seq]`. -/
def finish (seq : Nat) (result : Option Bool) : ProbeTable :=
  { t.setStatus seq none with waiting := t.waiting.erase seq, results := t.results ++ [(seq, result)] }

/-- A task resumes once its future is done. -/
def resume (seq : Nat) : ProbeTable :=
  match t.probeStatus seq with
  | some .pending | none => t
  | some f => t.finish seq f.result

/-- What a step does. -/
def step : ProbeEvent → Ret ProbeTable
  | .probe => .ok t.register
  | .reply seq result => t.resolve seq result
  | .expire seq => .ok (t.expire seq)
  | .resume seq => .ok (t.resume seq)

/-- The table after a run of steps. `_handle_udp_message` catches and logs what a handler
raises, so a run goes on from the state the raise left. -/
def run (evs : List ProbeEvent) : ProbeTable := evs.foldl (fun t e => (t.step e).state) t

variable {t}

@[simp] theorem run_nil : t.run [] = t := rfl

theorem run_cons (e : ProbeEvent) (evs : List ProbeEvent) :
    t.run (e :: evs) = (t.step e).state.run evs := rfl

section Fields

variable {s : Nat} {x : Heard} {f : Option Fut} {r : Option Bool}

@[simp] theorem register_probeSeq : t.register.probeSeq = t.probeSeq + 1 := rfl
@[simp] theorem register_probeStatus :
    t.register.probeStatus = Function.update t.probeStatus (t.probeSeq + 1) (some .pending) := rfl
@[simp] theorem register_waiting : t.register.waiting = t.waiting ++ [t.probeSeq + 1] := rfl
@[simp] theorem register_results : t.register.results = t.results := rfl
@[simp] theorem register_heard : t.register.heard = t.heard := rfl
@[simp] theorem hear_probeSeq : (t.hear s x).probeSeq = t.probeSeq := rfl
@[simp] theorem hear_probeStatus : (t.hear s x).probeStatus = t.probeStatus := rfl
@[simp] theorem hear_waiting : (t.hear s x).waiting = t.waiting := rfl
@[simp] theorem hear_results : (t.hear s x).results = t.results := rfl
@[simp] theorem hear_heard : (t.hear s x).heard = Function.update t.heard s (t.heard s ++ [x]) := rfl
@[simp] theorem setStatus_probeSeq : (t.setStatus s f).probeSeq = t.probeSeq := rfl
@[simp] theorem setStatus_probeStatus :
    (t.setStatus s f).probeStatus = Function.update t.probeStatus s f := rfl
@[simp] theorem setStatus_waiting : (t.setStatus s f).waiting = t.waiting := rfl
@[simp] theorem setStatus_results : (t.setStatus s f).results = t.results := rfl
@[simp] theorem setStatus_heard : (t.setStatus s f).heard = t.heard := rfl
@[simp] theorem finish_probeSeq : (t.finish s r).probeSeq = t.probeSeq := rfl
@[simp] theorem finish_probeStatus :
    (t.finish s r).probeStatus = Function.update t.probeStatus s none := rfl
@[simp] theorem finish_waiting : (t.finish s r).waiting = t.waiting.erase s := rfl
@[simp] theorem finish_results : (t.finish s r).results = t.results ++ [(s, r)] := rfl
@[simp] theorem finish_heard : (t.finish s r).heard = t.heard := rfl

@[simp] theorem setStatus_self : t.setStatus s (t.probeStatus s) = t := by
  unfold setStatus
  rw [Function.update_eq_self]

end Fields

/-! ## The invariant -/

/-- The invariant of the table and its tasks. -/
structure TableInv (t : ProbeTable) : Prop where
  /-- No sequence number is used by two probes, finished or waiting. -/
  nodup : (t.results.map Prod.fst ++ t.waiting).Nodup
  le_probeSeq : ∀ s ∈ t.results.map Prod.fst ++ t.waiting, s ≤ t.probeSeq
  registered : ∀ s, t.probeStatus s ≠ none ↔ s ∈ t.waiting
  fut : ∀ s ∈ t.waiting, t.probeStatus s = some (Heard.fut (t.heard s))
  results : ∀ p ∈ t.results, p.2 = (Heard.fut (t.heard p.1)).result
  fresh : ∀ s, t.probeSeq < s → t.heard s = []

theorem TableInv.init : TableInv ProbeTable.init where
  nodup := List.nodup_nil
  le_probeSeq _ h := absurd h (List.not_mem_nil _)
  registered _ := by simp [ProbeTable.init]
  fut _ h := absurd h (List.not_mem_nil _)
  results _ h := absurd h (List.not_mem_nil _)
  fresh _ _ := rfl

namespace TableInv

variable (hi : TableInv t)
include hi

theorem waiting_nodup : t.waiting.Nodup := hi.nodup.of_append_right

theorem not_mem_results {s : Nat} (hs : s ∈ t.waiting) : ∀ p ∈ t.results, p.1 ≠ s :=
  fun _ hp h => List.disjoint_of_nodup_append hi.nodup (List.mem_map_of_mem Prod.fst hp) (h ▸ hs)

theorem register : TableInv t.register where
  nodup := by
    rw [register_results, register_waiting, ← List.append_assoc]
    exact List.nodup_append.2 ⟨hi.nodup, List.nodup_singleton _, List.disjoint_singleton.2
      fun h => Nat.not_succ_le_self _ (hi.le_probeSeq _ h)⟩
  le_probeSeq s hs := by
    rw [register_results, register_waiting, ← List.append_assoc, List.mem_append,
      List.mem_singleton] at hs
    rcases hs with hs | rfl
    · exact Nat.le_succ_of_le (hi.le_probeSeq s hs)
    · exact le_rfl
  registered s := by
    by_cases h : s = t.probeSeq + 1
    · subst h; simp
    · simp [Function.update_noteq h, hi.registered s, h]
  fut s hs := by
    by_cases h : s = t.probeSeq + 1
    · subst h; simp [hi.fresh _ (Nat.lt_succ_self _), Heard.fut]
    · have hs' : s ∈ t.waiting := by simpa [h] using hs
      simp [Function.update_noteq h, hi.fut s hs']
  results := hi.results
  fresh s hs := hi.fresh s (by simp only [register_probeSeq] at hs; omega)

/-- What the waiter of a registered `seq` hears leaves everything else of the invariant. -/
theorem hear {s : Nat} (hs : s ∈ t.waiting) (x : Heard) (f : Fut)
    (hf : f = Heard.fut (t.heard s ++ [x])) : TableInv ((t.hear s x).setStatus s (some f)) where
  nodup := hi.nodup
  le_probeSeq := hi.le_probeSeq
  registered s' := by
    by_cases h : s' = s
    · subst h; simpa using hs
    · simpa [Function.update_noteq h] using hi.registered s'
  fut s' hs' := by
    by_cases h : s' = s
    · subst h; simp [hf]
    · simpa [Function.update_noteq h] using hi.fut s' hs'
  results p hp := by
    simpa [Function.update_noteq (hi.not_mem_results hs p hp)] using hi.results p hp
  fresh s' hs' := by
    have : s' ≠ s := fun h => absurd (hi.le_probeSeq s (List.mem_append_right _ hs)) (by simp at hs'; omega)
    simpa [Function.update_noteq this] using hi.fresh s' hs'

theorem of_status {s : Nat} {f : Fut} (hp : t.probeStatus s = some f) :
    s ∈ t.waiting ∧ f = Heard.fut (t.heard s) :=
  have hs := (hi.registered s).1 (by simp [hp])
  ⟨hs, Option.some.inj (hp.symm.trans (hi.fut s hs))⟩

/-- A waiter whose future is done hears more without its future changing. -/
theorem hear_done {s : Nat} {f : Fut} (hp : t.probeStatus s = some f) (hne : f ≠ .pending)
    (x : Heard) : TableInv (t.hear s x) := by
  obtain ⟨hs, hf⟩ := hi.of_status hp
  have hnil : t.heard s ≠ [] := fun h => hne (by rw [hf, h]; rfl)
  have := hi.hear hs x f (by rw [Heard.fut_append hnil, hf])
  rwa [← hp, ← hear_probeStatus (s := s) (x := x), setStatus_self] at this

theorem resolve (s : Nat) (b : Bool) : TableInv (t.resolve s b).state := by
  cases hp : t.probeStatus s with
  | none => simpa only [ProbeTable.resolve, hp, Ret.state] using hi
  | some f =>
    obtain ⟨hs, hf⟩ := hi.of_status hp
    rcases f with _ | _ | _
    · simp only [ProbeTable.resolve, hp, Ret.state]
      exact hi.hear hs _ _ (by rw [Heard.fut_eq_pending hf.symm]; rfl)
    all_goals
      simp only [ProbeTable.resolve, hp, Ret.state]
      exact hi.hear_done hp (by simp) _

theorem expire (s : Nat) : TableInv (t.expire s) := by
  cases hp : t.probeStatus s with
  | none => simpa only [ProbeTable.expire, hp] using hi
  | some f =>
    obtain ⟨hs, hf⟩ := hi.of_status hp
    rcases f with _ | _ | _
    · simp only [ProbeTable.expire, hp]
      exact hi.hear hs _ _ (by rw [Heard.fut_eq_pending hf.symm]; rfl)
    all_goals simpa only [ProbeTable.expire, hp] using hi

/-- A task that resumes deletes its entry and records what its future held. -/
theorem finish {s : Nat} {f : Fut} (hp : t.probeStatus s = some f) :
    TableInv (t.finish s f.result) := by
  obtain ⟨hs, hf⟩ := hi.of_status hp
  have hnd := hi.waiting_nodup
  have hperm : (t.results.map Prod.fst ++ [s] ++ t.waiting.erase s).Perm
      (t.results.map Prod.fst ++ t.waiting) := by
    rw [List.append_assoc]
    exact (List.perm_cons_erase hs).symm.append_left _
  refine ⟨?_, fun s' hs' => ?_, fun s' => ?_, fun s' hs' => ?_, fun q hq => ?_, hi.fresh⟩
  · simpa using hperm.nodup_iff.2 hi.nodup
  · exact hi.le_probeSeq s' (hperm.subset (by simpa using hs'))
  · by_cases h : s' = s
    · subst h; simp [hnd.mem_erase_iff]
    · simpa [Function.update_noteq h, hnd.mem_erase_iff, h] using hi.registered s'
  · rw [finish_waiting, hnd.mem_erase_iff] at hs'
    rw [finish_probeStatus, Function.update_noteq hs'.1]
    exact hi.fut s' hs'.2
  · rw [finish_results, List.mem_append, List.mem_singleton] at hq
    rcases hq with hq | rfl
    · exact hi.results q hq
    · simp only [finish_heard, ← hf]

theorem resume (s : Nat) : TableInv (t.resume s) := by
  cases hp : t.probeStatus s with
  | none => simpa only [ProbeTable.resume, hp] using hi
  | some f =>
    rcases f with _ | _ | _
    · simpa only [ProbeTable.resume, hp] using hi
    all_goals
      simp only [ProbeTable.resume, hp]
      exact hi.finish hp

theorem step (e : ProbeEvent) : TableInv (t.step e).state := by
  cases e with
  | probe => exact hi.register
  | reply s b => exact hi.resolve s b
  | expire s => exact hi.expire s
  | resume s => exact hi.resume s

omit hi in
/-- **The invariant holds after every run**, in any interleaving of the steps. -/
theorem run (hi : TableInv t) (evs : List ProbeEvent) : TableInv (t.run evs) := by
  induction evs generalizing t with
  | nil => exact hi
  | cons e evs ih => exact ih (hi.step e)

end TableInv

end ProbeTable

/-- A cancelled future reads as deleted in `Cluster.Probe`, which deletes a waiter at its
timeout. -/
def Fut.toWaiter : Fut → Option Waiter
  | .pending => some .pending
  | .resolved b => some (.resolved b)
  | .cancelled => none

namespace ProbeTable

/-- `_probe_status` as `Cluster.Probe` sees it. -/
def waiters (t : ProbeTable) (s : Nat) : Option Waiter := (t.probeStatus s).bind Fut.toWaiter

/-- The probe state of a `Peer` is `t` seen by `Cluster.Probe`. -/
def Refines (p : Peer) (t : ProbeTable) : Prop := p.probeSeq = t.probeSeq ∧ p.probeStatus = t.waiters

variable {p : Peer} {t : ProbeTable} {s : Nat}

@[simp] theorem waiters_setStatus (f : Option Fut) :
    (t.setStatus s f).waiters = Function.update t.waiters s (f.bind Fut.toWaiter) :=
  funext fun s' => Function.apply_update (fun _ o => Option.bind o Fut.toWaiter) _ _ _ s'

@[simp] theorem waiters_hear (x : Heard) : (t.hear s x).waiters = t.waiters := rfl

@[simp] theorem waiters_register :
    t.register.waiters = Function.update t.waiters (t.probeSeq + 1) (some .pending) :=
  funext fun s' => Function.apply_update (fun _ o => Option.bind o Fut.toWaiter) _ _ _ s'

/-- A probe is `Peer.alloc`. -/
theorem Refines.register (h : Refines p t) (pu : Purpose) : Refines (p.alloc pu) t.register := by
  obtain ⟨h1, h2⟩ := h
  refine ⟨by simp [h1], ?_⟩
  show Function.update p.probeStatus (p.probeSeq + 1) (some .pending) = _
  rw [h1, h2, waiters_register]

/-- An ACK or NACK is `World.resolveProbe`. -/
theorem Refines.resolve {ι : Type} [DecidableEq ι] {w : World ι} {j : ι} (h : Refines (w.peers j) t)
    (s : Nat) (b : Bool) : Refines ((w.resolveProbe j s b).state.peers j) (t.resolve s b).state := by
  obtain ⟨h1, h2⟩ := h
  have hw : (w.peers j).probeStatus s = (t.probeStatus s).bind Fut.toWaiter := congrFun h2 s
  cases hp : t.probeStatus s with
  | none =>
    simp only [hp, Option.none_bind] at hw
    simp only [ProbeTable.resolve, hp, World.resolveProbe, hw, Ret.state]
    exact ⟨h1, h2⟩
  | some f =>
    rw [hp, Option.some_bind] at hw
    rcases f with _ | _ | _ <;>
      simp only [ProbeTable.resolve, hp, World.resolveProbe, hw, Fut.toWaiter, Ret.state,
        World.setPeer_peers, Function.update_same, waiters_hear, waiters_setStatus]
    · exact ⟨h1, by rw [waiters_setStatus, waiters_hear, ← h2]; rfl⟩
    all_goals exact ⟨h1, h2⟩

/-- A timeout that cancels a pending future is the timeout step of `Cluster.Probe`, which
deletes the waiter: `Peer.release`. -/
theorem Refines.expire_pending (h : Refines p t) (hp : t.probeStatus s = some .pending) :
    Refines (p.release s) (t.expire s) := by
  obtain ⟨h1, h2⟩ := h
  simp only [ProbeTable.expire, hp]
  refine ⟨h1, ?_⟩
  show Function.update p.probeStatus s none = _
  rw [h2, waiters_setStatus, waiters_hear]
  rfl

/-- Any other timeout changes nothing. -/
theorem Refines.expire_other (h : Refines p t) (hp : t.probeStatus s ≠ some .pending) :
    Refines p (t.expire s) := by
  unfold ProbeTable.expire
  split
  · contradiction
  · exact h

/-- The resumption of a task leaves the nodes of `Cluster.Probe` as they are. -/
theorem afterResult_peers {ι : Type} [DecidableEq ι] (cfg : Config ι) (w : World ι) (i : ι)
    (b : Bool) (pu : Option Purpose) : (w.afterResult cfg i b pu).state.peers = w.peers := by
  rcases World.afterResult_state cfg w i b pu with h | ⟨q, -, h⟩ <;> rw [h]
  rfl

/-- A resumption is the resumption step of `Cluster.Probe`: it deletes a resolved waiter, and
one whose future was cancelled reads as deleted already. -/
theorem Refines.resume {ι : Type} [DecidableEq ι] {cfg : Config ι} {w : World ι} {i : ι}
    (h : Refines (w.peers i) t) (s : Nat) :
    Refines (((Act.resume i s).run cfg w).state.peers i) (t.resume s) := by
  obtain ⟨h1, h2⟩ := h
  have hw : (w.peers i).probeStatus s = (t.probeStatus s).bind Fut.toWaiter := congrFun h2 s
  have hfin : ∀ r, (t.finish s r).waiters = Function.update t.waiters s none := fun r =>
    waiters_setStatus (t := t) (s := s) none
  cases hp : t.probeStatus s with
  | none =>
    simp only [hp, Option.none_bind] at hw
    simp only [ProbeTable.resume, hp, Act.run, hw, Ret.state]
    exact ⟨h1, h2⟩
  | some f =>
    rw [hp, Option.some_bind] at hw
    rcases f with _ | b | _ <;> simp only [Fut.toWaiter] at hw
    · simp only [ProbeTable.resume, hp, Act.run, hw, Ret.state]
      exact ⟨h1, h2⟩
    · simp only [ProbeTable.resume, hp, Fut.result]
      rw [Act.run_resume hw, afterResult_peers, World.setPeer_peers, Function.update_same]
      exact ⟨h1, by rw [hfin]; exact congrArg (Function.update · s none) h2⟩
    · simp only [ProbeTable.resume, hp, Act.run, hw, Ret.state]
      refine ⟨h1, ?_⟩
      rw [hfin, ← h2, ← hw, Function.update_eq_self]

end ProbeTable

end Tattle
