import Mathlib.Data.List.Nodup
import Tattle.State.NodeManager

/-!
# The broadcast queue

`NodeManager` hands every broadcast to `BroadcastQueue.push(subject, payload)`, under the name of
the node it is about, and `_send_udp_message` piggybacks on each datagram what
`BroadcastQueue.fetch(max_transmits, max_bytes)` returns. `queue.py` is not in the repository, so
the queue is modelled from the spec (section 4.3). `push` replaces any item with the same subject
by the new one, with no transmits yet. `fetch` returns a batch of items, counts one more transmit
for each of them, and removes an item once its count exceeds `max_transmits`. Which items a
fetch returns (the lowest transmit counts first, as many as fit in `max_bytes` of encoded
payload) turns on the encoding, which `messages.py` holds and which is not in the repository
either. So a fetch is given the subjects of its batch, and every result below holds for every
batch, the spec's included.

`NodeManager.queue` keeps the pushes in order. What the queue holds is a function of them and of
the fetches made in between: each subject's last push stays in the queue until a fetch returns
it, and the queue holds nothing else (`BroadcastQueue.run_holds`).

## Main definitions

* `lastPush`: the last message pushed under a subject
* `BroadcastQueue`, `BroadcastQueue.push`, `BroadcastQueue.fetch`: the queue, from the spec
* `QueueEvent`, `BroadcastQueue.run`: a run of pushes and fetches from the empty queue, and the
  payloads its fetches returned
* `BroadcastQueue.Holds`: what the queue holds after a log of pushes

## Main results

* `BroadcastQueue.run_holds`: after every run, each item is its subject's last push, and each
  subject's last push is an item or has been returned by a fetch
-/

namespace Tattle

/-- The message last pushed under `n` in the pushes `log`, in order. -/
def lastPush (log : List (String × Message)) (n : String) : Option Message :=
  (log.reverse.find? fun p => p.1 == n).map Prod.snd

@[simp] theorem lastPush_nil (n : String) : lastPush [] n = none := rfl

theorem lastPush_append_singleton (log : List (String × Message)) (m : String) (msg : Message)
    (n : String) : lastPush (log ++ [(m, msg)]) n = if m = n then some msg else lastPush log n := by
  by_cases h : m = n <;> simp [lastPush, h]

/-- Modelled from the spec: an item of the broadcast queue, the payload pushed under its subject
and how many fetches have returned it. -/
structure QueueItem where
  subject : String
  payload : Message
  transmits : Nat

/-- Modelled from the spec: `BroadcastQueue`, items keyed by subject, at most one per subject. -/
structure BroadcastQueue where
  items : List QueueItem
  nodup : (items.map QueueItem.subject).Nodup

/-- A step of the queue: a push, or a fetch whose batch is the items of the subjects `batch`. -/
inductive QueueEvent
  | push (subject : String) (payload : Message)
  | fetch (maxTransmits : Nat) (batch : List String)

/-- The push a step makes, if it is one. -/
def QueueEvent.pushed : QueueEvent → Option (String × Message)
  | .push n m => some (n, m)
  | .fetch _ _ => none

namespace BroadcastQueue

/-- The queue `Cluster.__init__` creates. -/
def empty : BroadcastQueue := ⟨[], List.nodup_nil⟩

/-- Modelled from the spec: `push(subject, payload)`. An item with the same subject is replaced
by the new one, which has no transmits yet. -/
def push (q : BroadcastQueue) (subject : String) (payload : Message) : BroadcastQueue where
  items := q.items.filter (fun it => it.subject != subject) ++ [⟨subject, payload, 0⟩]
  nodup := by
    rw [List.map_append, List.nodup_append]
    refine ⟨q.nodup.sublist ((List.filter_sublist _).map _), List.nodup_singleton _, ?_⟩
    simp [List.disjoint_singleton]

/-- What a fetch does to one item: an item of the batch counts one more transmit, and leaves the
queue once its count exceeds `maxTransmits`. -/
def bump (maxTransmits : Nat) (batch : List String) (it : QueueItem) : Option QueueItem :=
  if it.subject ∈ batch then
    if maxTransmits < it.transmits + 1 then none else some { it with transmits := it.transmits + 1 }
  else some it

theorem subject_of_bump {maxTransmits : Nat} {batch : List String} {it it' : QueueItem}
    (h : bump maxTransmits batch it = some it') : it'.subject = it.subject ∧ it'.payload = it.payload := by
  unfold bump at h
  split_ifs at h <;> cases h <;> exact ⟨rfl, rfl⟩

theorem map_subject_filterMap_bump (maxTransmits : Nat) (batch : List String) (items : List QueueItem) :
    ((items.filterMap (bump maxTransmits batch)).map QueueItem.subject).Sublist
      (items.map QueueItem.subject) := by
  induction items with
  | nil => exact .slnil
  | cons it items ih =>
    cases h : bump maxTransmits batch it with
    | none => simpa [List.filterMap_cons, h] using ih.cons _
    | some it' => simpa [List.filterMap_cons, h, (subject_of_bump h).1] using ih.cons₂ it.subject

/-- Modelled from the spec: `fetch(max_transmits, max_bytes)` whose batch is the items of the
subjects `batch`. It returns their payloads, and each of them counts one more transmit. -/
def fetch (q : BroadcastQueue) (maxTransmits : Nat) (batch : List String) :
    List Message × BroadcastQueue :=
  ((q.items.filter (·.subject ∈ batch)).map QueueItem.payload,
    ⟨q.items.filterMap (bump maxTransmits batch),
      q.nodup.sublist (map_subject_filterMap_bump maxTransmits batch q.items)⟩)

/-- One step, on the queue and the payloads the fetches have returned so far. -/
def step (qo : BroadcastQueue × List Message) : QueueEvent → BroadcastQueue × List Message
  | .push n m => (qo.1.push n m, qo.2)
  | .fetch mt b => ((qo.1.fetch mt b).2, qo.2 ++ (qo.1.fetch mt b).1)

/-- The queue after the steps `es` from the empty queue, and every payload its fetches returned,
in order. -/
def run (es : List QueueEvent) : BroadcastQueue × List Message :=
  es.foldl step (empty, [])

theorem run_append_singleton (es : List QueueEvent) (e : QueueEvent) :
    run (es ++ [e]) = step (run es) e := by
  simp [run, List.foldl_append]

/-! ## What the queue holds -/

/-- What the queue `q` holds after the pushes `log`, the fetches having returned `out`: every
item carries its subject's last push, and every subject's last push is an item or has been
returned. -/
structure Holds (log : List (String × Message)) (q : BroadcastQueue) (out : List Message) : Prop where
  fresh : ∀ it ∈ q.items, lastPush log it.subject = some it.payload
  kept : ∀ n m, lastPush log n = some m → (∃ t, (⟨n, m, t⟩ : QueueItem) ∈ q.items) ∨ m ∈ out

namespace Holds

variable {log : List (String × Message)} {q : BroadcastQueue} {out : List Message}

theorem empty : Holds [] BroadcastQueue.empty [] := ⟨nofun, by simp⟩

theorem push (h : Holds log q out) (n : String) (m : Message) :
    Holds (log ++ [(n, m)]) (q.push n m) out where
  fresh it hit := by
    simp only [BroadcastQueue.push, List.mem_append, List.mem_filter, List.mem_singleton,
      bne_iff_ne, ne_eq] at hit
    rcases hit with ⟨hit, hne⟩ | rfl
    · rw [lastPush_append_singleton, if_neg (Ne.symm hne)]
      exact h.fresh it hit
    · simp [lastPush_append_singleton]
  kept n' m' hl := by
    rw [lastPush_append_singleton] at hl
    split_ifs at hl with hn
    · cases hl; subst hn
      exact .inl ⟨0, List.mem_append_right _ (List.mem_singleton_self _)⟩
    · refine (h.kept n' m' hl).imp (fun ⟨t, ht⟩ => ⟨t, ?_⟩) id
      exact List.mem_append_left _ (List.mem_filter.2 ⟨ht, by simpa using Ne.symm hn⟩)

theorem fetch (h : Holds log q out) (maxTransmits : Nat) (batch : List String) :
    Holds log (q.fetch maxTransmits batch).2 (out ++ (q.fetch maxTransmits batch).1) where
  fresh it hit := by
    obtain ⟨it₀, hit₀, hb⟩ := List.mem_filterMap.1 hit
    obtain ⟨hs, hp⟩ := subject_of_bump hb
    rw [hs, hp]
    exact h.fresh it₀ hit₀
  kept n m hl := by
    rcases h.kept n m hl with ⟨t, ht⟩ | hm
    · by_cases hb : n ∈ batch
      · exact .inr (List.mem_append_right _ (List.mem_map.2 ⟨_, List.mem_filter.2 ⟨ht, by simpa⟩, rfl⟩))
      · exact .inl ⟨t, List.mem_filterMap.2 ⟨_, ht, by simp [bump, hb]⟩⟩
    · exact .inr (List.mem_append_left _ hm)

end Holds

/-- **What the queue holds after every run**: each item carries its subject's last push, and each
subject's last push is an item or has been returned by a fetch. -/
theorem run_holds (es : List QueueEvent) :
    Holds (es.filterMap QueueEvent.pushed) (run es).1 (run es).2 := by
  induction es using List.reverseRecOn with
  | nil => exact Holds.empty
  | append_singleton es e ih =>
    rw [run_append_singleton, List.filterMap_append]
    cases e with
    | push n m => exact ih.push n m
    | fetch mt b => simpa [QueueEvent.pushed] using ih.fetch mt b

end BroadcastQueue

end Tattle
