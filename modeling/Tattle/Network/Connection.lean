import Tattle.Network.Listener

/-!
# The sends of `UDPConnection` on the event loop

`UDPConnection.sendto(data, addr)` creates a future and runs `_sendto` at once. `_sendto` calls
the non-blocking socket's `sendto`: when the socket takes all of `data` the future is done, when
it fails the future gets the exception, and otherwise (it took a part, or it would block) the
rest waits in a writer callback, `add_writer(fd, self._sendto, data[n:], addr, fut, True)`, which
the event loop runs once the descriptor is writable; that run removes the writer first. A
cancelled future stops the chain.

The event loop keeps one writer per file descriptor: `add_writer` on a descriptor that has one
replaces it, and cancels the handle it replaces. A send whose writer is replaced is stranded:
its future is never done and the socket never takes another byte of it, whatever the socket and
the other sends do afterwards (`stranded_send_lost`). Two sends that both find the socket full,
as the sends `_send_udp_message` makes without awaiting them can, strand the first. A caller that
awaits each send before the next never strands one (`awaited_sends_tracked`). Along every run,
the bytes the socket took for a send are a prefix of its data, all of it once its future is done
(`sendto_bytes_in_order`).

Nothing in the repository cancels these futures; the `cancel` step is there for the
`fut.cancelled()` checks of `_sendto`, and the runs with it are a superset of the program's.

## Main definitions

* `SendOutcome`, `Future`: what one socket call does, and a future of the event loop
* `UDPConnection`, `UDPConnection.sendto`, `UDPConnection.writable`: the sending side of a
  connection, `sendto`, and the event loop running the descriptor's writer
* `UDPConnection.run`: the connection after a list of events
* `UDPConnection.Stranded`, `UDPConnection.Tracked`: a send whose writer is gone, and a
  connection whose every pending send holds the writer

## Main results

* `UDPConnection.trySend_cases`: everything one socket call of `_sendto` can do
* `sendto_bytes_in_order`: the socket takes each send's data in order, and all of it once done
* `stranded_send_lost`: a stranded send stays stranded and sends nothing more
* `awaited_sends_tracked`: when every send is awaited, every pending send holds the writer
-/

namespace Tattle

/-- What one call of `socket.sendto(data, addr)` does on the non-blocking socket: it takes the
first `n` bytes, it would block (`BlockingIOError` or `InterruptedError`), or it raises another
exception, given by its class name. -/
inductive SendOutcome
  | sent (n : Nat)
  | wouldBlock
  | error (exc : String)
  deriving DecidableEq, Repr

/-- An asyncio future, as `_sendto` reads and sets it. -/
inductive Future (α : Type)
  | pending
  | result (a : α)
  | exception (exc : String)
  | cancelled
  deriving DecidableEq, Repr

/-- A writer callback the event loop keeps for the socket's descriptor: `_sendto` with the data
left, the address, and the future of send number `send`. -/
structure Writer where
  send : Nat
  data : List UInt8
  addr : Addr
  deriving DecidableEq, Repr

/-- The sending side of a `UDPConnection` and its socket's descriptor. -/
structure UDPConnection where
  /-- The futures `sendto` has returned, by the order of the calls. -/
  futs : Nat → Future Unit
  /-- How many times `sendto` was called. -/
  sends : Nat
  /-- The descriptor's writer, one at most. -/
  writer : Option Writer
  /-- The datagrams the socket took, in order, each with its address and the send whose
  `_sendto` made the call (a ghost tag). -/
  wire : List (Nat × Addr × List UInt8)
  /-- The data each `sendto` call was given (ghost). -/
  payload : Nat → List UInt8

namespace UDPConnection

variable (c : UDPConnection)

/-- A new connection: no send yet. -/
def init : UDPConnection := ⟨fun _ => .pending, 0, none, [], fun _ => []⟩

def setFut (k : Nat) (f : Future Unit) : UDPConnection := { c with futs := Function.update c.futs k f }

/-- The bytes the socket took for send `k`, datagram after datagram. -/
def sentBytes (k : Nat) : List UInt8 := ((c.wire.filter fun x => x.1 == k).map fun x => x.2.2).flatten

/-- The end of `_sendto` once `n` bytes of `data` went out (`n = 0` when the call would block):
`set_result(None)` if that was all of it, else `add_writer` with `data[n:]`, in place of the
writer the descriptor had. -/
def afterSend (k : Nat) (data : List UInt8) (addr : Addr) (n : Nat) : UDPConnection :=
  if n = data.length then c.setFut k (.result ()) else { c with writer := some ⟨k, data.drop n, addr⟩ }

/-- `n = self._socket.sendto(data, addr)` in `_sendto` for send `k`, and what follows it. -/
def trySend (k : Nat) (data : List UInt8) (addr : Addr) : SendOutcome → UDPConnection
  | .sent n => { c with wire := c.wire ++ [(k, addr, data.take n)] }.afterSend k data addr n
  | .wouldBlock => c.afterSend k data addr 0
  | .error exc => c.setFut k (.exception exc)

/-- `_sendto(data, addr, fut, registered)` for the future of send `k`: a registered writer is
removed first, and a cancelled future stops it there. -/
def sendtoCallback (k : Nat) (data : List UInt8) (addr : Addr) (registered : Bool)
    (o : SendOutcome) : UDPConnection :=
  let c := if registered then { c with writer := none } else c
  if c.futs k = .cancelled then c else c.trySend k data addr o

/-- `fut = self._event_loop.create_future()` in `sendto(data, addr)`: the future of send number
`c.sends`, with its data (ghost). -/
def createFuture (data : List UInt8) : UDPConnection :=
  { c with
    futs := Function.update c.futs c.sends .pending
    sends := c.sends + 1
    payload := Function.update c.payload c.sends data }

/-- `sendto(data, addr)`: a new future, then `_sendto` at once if there is data, its socket call
having outcome `o`; empty data completes the future. -/
def sendto (data : List UInt8) (addr : Addr) (o : SendOutcome) : UDPConnection :=
  let k := c.sends
  if data ≠ [] then (c.createFuture data).sendtoCallback k data addr false o
  else (c.createFuture data).setFut k (.result ())

/-- The event loop finds the descriptor writable and runs its writer, whose socket call has
outcome `o`; without a writer nothing runs. -/
def writable (o : SendOutcome) : UDPConnection :=
  match c.writer with
  | none => c
  | some w => c.sendtoCallback w.send w.data w.addr true o

/-- `fut.cancel()` on the future of send `k`: a future that is done stays as it is. -/
def cancel (k : Nat) : UDPConnection := if c.futs k = .pending then c.setFut k .cancelled else c

end UDPConnection

/-- A step of the event loop around the connection. -/
inductive SockEvent
  | sendto (data : List UInt8) (addr : Addr) (o : SendOutcome)
  | writable (o : SendOutcome)
  | cancel (k : Nat)

def SockEvent.isSendto : SockEvent → Bool
  | .sendto .. => true
  | _ => false

namespace UDPConnection

variable (c : UDPConnection)

def step : SockEvent → UDPConnection
  | .sendto data addr o => c.sendto data addr o
  | .writable o => c.writable o
  | .cancel k => c.cancel k

/-- The connection after the events `evs`. -/
def run (evs : List SockEvent) : UDPConnection := evs.foldl step c

@[simp] theorem run_nil : c.run [] = c := rfl

@[simp] theorem run_cons (e : SockEvent) (evs : List SockEvent) : c.run (e :: evs) = (c.step e).run evs :=
  rfl

/-! ## What one socket call does -/

section Attempt

variable {c} {k : Nat} {data : List UInt8} {addr : Addr}

@[simp] theorem setFut_sends (f : Future Unit) : (c.setFut k f).sends = c.sends := rfl
@[simp] theorem setFut_writer (f : Future Unit) : (c.setFut k f).writer = c.writer := rfl
@[simp] theorem setFut_payload (f : Future Unit) : (c.setFut k f).payload = c.payload := rfl
@[simp] theorem setFut_futs (f : Future Unit) : (c.setFut k f).futs = Function.update c.futs k f := rfl
@[simp] theorem setFut_sentBytes (f : Future Unit) : (c.setFut k f).sentBytes = c.sentBytes := rfl
@[simp] theorem createFuture_sends : (c.createFuture data).sends = c.sends + 1 := rfl
@[simp] theorem createFuture_writer : (c.createFuture data).writer = c.writer := rfl
@[simp] theorem createFuture_futs :
    (c.createFuture data).futs = Function.update c.futs c.sends .pending := rfl
@[simp] theorem createFuture_payload :
    (c.createFuture data).payload = Function.update c.payload c.sends data := rfl
@[simp] theorem createFuture_sentBytes : (c.createFuture data).sentBytes = c.sentBytes := rfl

theorem sentBytes_push (b : List UInt8) :
    { c with wire := c.wire ++ [(k, addr, b)] }.sentBytes =
      Function.update c.sentBytes k (c.sentBytes k ++ b) := by
  funext j
  by_cases h : j = k
  · subst h; simp [sentBytes]
  · simp [sentBytes, h, Ne.symm h]

@[simp] theorem afterSend_sends (n : Nat) : (c.afterSend k data addr n).sends = c.sends := by
  unfold afterSend; split <;> rfl
@[simp] theorem afterSend_payload (n : Nat) : (c.afterSend k data addr n).payload = c.payload := by
  unfold afterSend; split <;> rfl
@[simp] theorem afterSend_sentBytes (n : Nat) : (c.afterSend k data addr n).sentBytes = c.sentBytes := by
  unfold afterSend; split <;> rfl

/-- **Everything one socket call of `_sendto` can do**: the socket took a prefix `b` of the data
for send `k`, and either the future is set (done, when `b` was all of it, or failed) with the
writer left as it was, or the rest waits in the descriptor's writer. The other sends are left
alone. -/
theorem trySend_cases {c' : UDPConnection} {o : SendOutcome} (h : c.trySend k data addr o = c') :
    c'.sends = c.sends ∧ c'.payload = c.payload ∧ ∃ b rest, b ++ rest = data ∧
      c'.sentBytes = Function.update c.sentBytes k (c.sentBytes k ++ b) ∧
      ((∃ f, f ≠ .pending ∧ (f = .result () → rest = []) ∧ c'.futs = Function.update c.futs k f ∧
          c'.writer = c.writer) ∨
        c'.futs = c.futs ∧ c'.writer = some ⟨k, rest, addr⟩) := by
  subst h
  have hself : c.sentBytes = Function.update c.sentBytes k (c.sentBytes k ++ []) := by simp
  cases o with
  | sent n =>
    simp only [trySend, afterSend_sends, afterSend_payload, afterSend_sentBytes, sentBytes_push]
    refine ⟨trivial, trivial, data.take n, data.drop n, List.take_append_drop n data, rfl, ?_⟩
    unfold afterSend
    split_ifs with hn
    · exact .inl ⟨.result (), nofun, fun _ => by simp [hn], rfl, rfl⟩
    · exact .inr ⟨rfl, rfl⟩
  | wouldBlock =>
    simp only [trySend, afterSend_sends, afterSend_payload, afterSend_sentBytes]
    refine ⟨trivial, trivial, [], data, rfl, hself, ?_⟩
    unfold afterSend
    split_ifs with hn
    · exact .inl ⟨.result (), nofun, fun _ => List.eq_nil_of_length_eq_zero hn.symm, rfl, rfl⟩
    · exact .inr ⟨rfl, by simp⟩
  | error exc => exact ⟨rfl, rfl, [], data, rfl, hself, .inl ⟨.exception exc, nofun, nofun, rfl, rfl⟩⟩

/-- The `_sendto` that `sendto` runs at once is one socket call: its future was just made, so it
is pending, and no writer is registered for it. -/
theorem sendto_eq (o : SendOutcome) :
    c.sendto data addr o = if data ≠ [] then (c.createFuture data).trySend c.sends data addr o
      else (c.createFuture data).setFut c.sends (.result ()) := by
  simp only [sendto, sendtoCallback, Bool.false_eq_true, if_false, createFuture_futs, Function.update_same,
    reduceCtorEq]

theorem writable_of_none (hw : c.writer = none) (o : SendOutcome) : c.writable o = c := by
  simp only [writable, hw]

/-- The writer's run removes the writer, then makes one socket call unless its future was
cancelled. -/
theorem writable_of_writer {w : Writer} (hw : c.writer = some w) (o : SendOutcome) :
    c.writable o = if c.futs w.send = .cancelled then { c with writer := none }
      else { c with writer := none }.trySend w.send w.data w.addr o := by
  simp only [writable, hw, sendtoCallback, if_true]

end Attempt

/-! ## The data of each send, along every run -/

/-- What holds along every run: the descriptor's writer belongs to a send that was made and is
not done, and holds what the socket has not taken of it; the socket took a prefix of each send's
data, all of it once the send is done, and nothing of a send not yet made. -/
structure SendInv (c : UDPConnection) : Prop where
  writer : ∀ w, c.writer = some w → w.send < c.sends ∧
    (c.futs w.send = .pending ∨ c.futs w.send = .cancelled) ∧ c.sentBytes w.send ++ w.data = c.payload w.send
  taken : ∀ k, c.sentBytes k <+: c.payload k
  result : ∀ k, c.futs k = .result () → c.sentBytes k = c.payload k
  fresh : ∀ k, c.sends ≤ k → c.sentBytes k = [] ∧ c.futs k ≠ .result ()

namespace SendInv

variable {c} {k : Nat} {data : List UInt8} {addr : Addr}

theorem init : UDPConnection.init.SendInv where
  writer _ h := nomatch h
  taken _ := List.nil_prefix
  result _ h := nomatch h
  fresh _ _ := ⟨rfl, nofun⟩

theorem clearWriter (hi : c.SendInv) : ({ c with writer := none } : UDPConnection).SendInv :=
  ⟨(fun _ h => nomatch h), hi.taken, hi.result, hi.fresh⟩

/-- Setting the future of send `k`: the writer must not be its own unless the future stays pending
or is cancelled, and the future may be done only once all its bytes were taken and the send was
made. -/
theorem setFut (hi : c.SendInv) {f : Future Unit}
    (hw : ∀ w, c.writer = some w → w.send = k → f = .pending ∨ f = .cancelled)
    (hr : f = .result () → c.sentBytes k = c.payload k ∧ k < c.sends) : (c.setFut k f).SendInv := by
  refine ⟨fun w h => ?_, hi.taken, fun j hj => ?_, fun j hj => ?_⟩
  · obtain ⟨h1, h2, h3⟩ := hi.writer w h
    refine ⟨h1, ?_, h3⟩
    simp only [setFut_futs, Function.update_apply]
    split_ifs with he
    exacts [hw w h he, h2]
  · simp only [setFut_futs, Function.update_apply] at hj
    split_ifs at hj with he
    exacts [he ▸ (hr hj).1, hi.result j hj]
  · refine ⟨(hi.fresh j hj).1, ?_⟩
    simp only [setFut_futs, Function.update_apply]
    split_ifs with he
    · exact fun h => absurd (he ▸ (hr h).2) (by simpa using hj)
    · exact (hi.fresh j hj).2

/-- An attempt of a send that is pending, holds no writer, and has the rest of its data in hand
keeps the invariant. -/
theorem trySend (hi : c.SendInv) (hk : k < c.sends) (hd : c.sentBytes k ++ data = c.payload k)
    (hp : c.futs k = .pending) (hw : ∀ w, c.writer = some w → w.send ≠ k) (o : SendOutcome) :
    (c.trySend k data addr o).SendInv := by
  obtain ⟨hs, hpl, b, rest, hbr, hsb, hcase⟩ := trySend_cases (rfl : c.trySend k data addr o = _)
  have hd' : c.sentBytes k ++ b ++ rest = c.payload k := by rw [List.append_assoc, hbr, hd]
  have hsb' : ∀ j ≠ k, (c.trySend k data addr o).sentBytes j = c.sentBytes j := fun j hj => by
    rw [hsb, Function.update_noteq hj]
  have hf' : ∀ j ≠ k, (c.trySend k data addr o).futs j = c.futs j := fun j hj => by
    rcases hcase with ⟨f, -, -, hf, -⟩ | ⟨hf, -⟩ <;> simp [hf, Function.update_noteq hj]
  refine ⟨fun w h => ?_, fun j => ?_, fun j hr => ?_, fun j hj => ?_⟩
  · -- the writer: another send's, as before, or the rest of send `k`
    rcases hcase with ⟨-, -, -, -, hwr⟩ | ⟨hf, hwr⟩ <;> rw [hwr] at h
    · rw [hs, hf' _ (hw w h), hsb' _ (hw w h), hpl]
      exact hi.writer w h
    · cases h
      rw [hs, hf, hsb, Function.update_same, hpl, ← hd']
      exact ⟨hk, .inl hp, rfl⟩
  · by_cases hj : j = k
    · subst hj; rw [hsb, Function.update_same, hpl]; exact ⟨rest, hd'⟩
    · rw [hsb' j hj, hpl]; exact hi.taken j
  · by_cases hj : j = k
    · subst hj
      rcases hcase with ⟨f, -, hfr, hf, -⟩ | ⟨hf, -⟩ <;> rw [hf] at hr
      · rw [Function.update_same] at hr
        rw [hsb, Function.update_same, hpl, ← hd', hfr hr, List.append_nil]
      · rw [hp] at hr; cases hr
    · rw [hf' j hj] at hr; rw [hsb' j hj, hpl]; exact hi.result j hr
  · have hj' : j ≠ k := by omega
    rw [hsb' j hj', hf' j hj']; exact hi.fresh j (by omega)

/-- A new future, with its data: the state `sendto` makes before its `_sendto`. -/
theorem createFuture (hi : c.SendInv) (data : List UInt8) : (c.createFuture data).SendInv := by
  have hne : ∀ w, c.writer = some w → w.send ≠ c.sends := fun w h => Nat.ne_of_lt (hi.writer w h).1
  refine ⟨fun w h => ?_, fun j => ?_, fun j hr => ?_, fun j hj => ?_⟩
  · simp only [createFuture_sends, createFuture_futs, createFuture_sentBytes, createFuture_payload,
      Function.update_noteq (hne w h)]
    obtain ⟨h1, h2, h3⟩ := hi.writer w h
    exact ⟨Nat.lt_succ_of_lt h1, h2, h3⟩
  · simp only [createFuture_sentBytes, createFuture_payload, Function.update_apply]
    split_ifs with hj
    · subst hj; rw [(hi.fresh _ (Nat.le_refl _)).1]; exact List.nil_prefix
    · exact hi.taken j
  · simp only [createFuture_futs, Function.update_apply] at hr
    split_ifs at hr with hj
    simp only [createFuture_sentBytes, createFuture_payload, Function.update_noteq hj]
    exact hi.result j hr
  · simp only [createFuture_sends, createFuture_futs] at hj ⊢
    rw [Function.update_noteq (show j ≠ c.sends by omega)]
    exact hi.fresh j (by omega)

theorem step (hi : c.SendInv) (e : SockEvent) : (c.step e).SendInv := by
  cases e with
  | sendto data addr o =>
    have h1 := hi.createFuture data
    have hfr := (hi.fresh _ (Nat.le_refl _)).1
    have hne : ∀ w, (c.createFuture data).writer = some w → w.send ≠ c.sends := fun w h =>
      Nat.ne_of_lt (hi.writer w h).1
    rw [UDPConnection.step, sendto_eq]
    split_ifs with hd
    · exact h1.trySend (by simp) (by simp [hfr]) (by simp) hne o
    · exact h1.setFut (fun w h he => absurd he (hne w h)) fun _ => ⟨by simp [hfr, not_not.mp hd], by simp⟩
  | writable o =>
    rw [UDPConnection.step]
    cases hw : c.writer with
    | none => rwa [writable_of_none hw]
    | some w =>
      obtain ⟨h1, h2, h3⟩ := hi.writer w hw
      rw [writable_of_writer hw]
      split_ifs with hc
      · exact hi.clearWriter
      · exact hi.clearWriter.trySend h1 h3 (h2.resolve_right hc) (fun _ h => nomatch h) o
  | cancel k =>
    simp only [UDPConnection.step, cancel]
    split_ifs with hp
    · exact hi.setFut (fun _ _ _ => .inr rfl) nofun
    · exact hi

theorem run (hi : c.SendInv) (evs : List SockEvent) : (c.run evs).SendInv := by
  induction evs generalizing c with
  | nil => exact hi
  | cons e evs ih => exact ih (hi.step e)

end SendInv

/-! ## Stranded sends -/

/-- Send `k` is stranded: it was made, its future has neither a result nor an exception, and the
descriptor's writer is not its own, so no callback is left to run its `_sendto` again. Its future
is pending, or cancelled: asyncio counts a cancelled future as done, but only the `cancel` step,
which nothing in the repository takes, makes one, and a cancelled send is lost all the same, as
`_sendto` stops at `fut.cancelled()`. Counting it keeps a stranded send stranded across `cancel`;
on the program's runs, which have no `cancel`, a stranded send is pending. -/
def Stranded (k : Nat) : Prop :=
  k < c.sends ∧ (c.futs k = .pending ∨ c.futs k = .cancelled) ∧ c.writer.map Writer.send ≠ some k

instance (k : Nat) : Decidable (c.Stranded k) := inferInstanceAs (Decidable (_ ∧ _ ∧ _))

namespace Stranded

variable {c} {j k : Nat} {data : List UInt8} {addr : Addr}

theorem clearWriter (h : c.Stranded k) : ({ c with writer := none } : UDPConnection).Stranded k :=
  ⟨h.1, h.2.1, nofun⟩

/-- An attempt of another send leaves a stranded send stranded, and takes none of its bytes. -/
theorem trySend (h : c.Stranded k) (hj : j ≠ k) (o : SendOutcome) :
    (c.trySend j data addr o).Stranded k ∧ (c.trySend j data addr o).sentBytes k = c.sentBytes k := by
  obtain ⟨hs, -, b, rest, -, hsb, hcase⟩ := trySend_cases (rfl : c.trySend j data addr o = _)
  have hkj : k ≠ j := Ne.symm hj
  refine ⟨⟨hs ▸ h.1, ?_, ?_⟩, by rw [hsb, Function.update_noteq hkj]⟩
  · rcases hcase with ⟨_, -, -, hf, -⟩ | ⟨hf, -⟩ <;>
      simp only [hf, Function.update_noteq hkj] <;> exact h.2.1
  · rcases hcase with ⟨_, -, -, -, hw⟩ | ⟨-, hw⟩ <;> rw [hw]
    · exact h.2.2
    · simpa using hj

theorem step (h : c.Stranded k) (e : SockEvent) :
    (c.step e).Stranded k ∧ (c.step e).sentBytes k = c.sentBytes k := by
  cases e with
  | sendto data addr o =>
    have hk : c.sends ≠ k := Nat.ne_of_gt h.1
    have h1 : (c.createFuture data).Stranded k :=
      ⟨Nat.lt_succ_of_lt h.1, by simpa [Function.update_noteq hk.symm] using h.2.1,
        by simpa using h.2.2⟩
    rw [UDPConnection.step, sendto_eq]
    split_ifs
    · exact h1.trySend hk o
    · exact ⟨⟨h1.1, by simpa [Function.update_noteq hk.symm] using h1.2.1, h1.2.2⟩, rfl⟩
  | writable o =>
    rw [UDPConnection.step]
    cases hw : c.writer with
    | none => rw [writable_of_none hw]; exact ⟨h, rfl⟩
    | some w =>
      have hne : w.send ≠ k := fun e => h.2.2 (by simp [hw, e])
      rw [writable_of_writer hw]
      split_ifs
      · exact ⟨h.clearWriter, rfl⟩
      · exact h.clearWriter.trySend hne o
  | cancel j =>
    simp only [UDPConnection.step, cancel]
    split_ifs
    · refine ⟨⟨h.1, ?_, h.2.2⟩, rfl⟩
      simp only [setFut_futs, Function.update_apply]
      split_ifs
      · exact .inr rfl
      · exact h.2.1
    · exact ⟨h, rfl⟩

end Stranded

/-! ## Awaited sends -/

/-- Every pending send holds the descriptor's writer. -/
def Tracked : Prop := ∀ k < c.sends, c.futs k = .pending → c.writer.map Writer.send = some k

instance : Decidable c.Tracked := inferInstanceAs (Decidable (∀ k < c.sends, _))

/-- No send is pending. -/
def Quiet : Prop := ∀ k < c.sends, c.futs k ≠ .pending

instance : Decidable c.Quiet := inferInstanceAs (Decidable (∀ k < c.sends, _))

/-- A run whose every `sendto` is made while no earlier send is pending: the caller awaits each
send's future before the next send. -/
def Awaited : UDPConnection → List SockEvent → Prop
  | _, [] => True
  | c, e :: evs => (e.isSendto → c.Quiet) ∧ Awaited (c.step e) evs

instance Awaited.decidable : (c : UDPConnection) → (evs : List SockEvent) → Decidable (c.Awaited evs)
  | _, [] => isTrue trivial
  | c, e :: evs =>
    haveI := Awaited.decidable (c.step e) evs
    inferInstanceAs (Decidable ((e.isSendto → c.Quiet) ∧ (c.step e).Awaited evs))

namespace Tracked

variable {c} {k : Nat} {data : List UInt8} {addr : Addr}

/-- When no send but `k` is pending, an attempt of `k` leaves every pending send holding the
writer. -/
theorem trySend (ho : ∀ i < c.sends, i ≠ k → c.futs i ≠ .pending) (o : SendOutcome) :
    (c.trySend k data addr o).Tracked := by
  obtain ⟨hs, -, b, rest, -, -, hcase⟩ := trySend_cases (rfl : c.trySend k data addr o = _)
  intro i hi hp
  rw [hs] at hi
  by_cases hik : i = k
  · subst hik
    rcases hcase with ⟨f, hfp, -, hf, -⟩ | ⟨-, hw⟩
    · rw [hf, Function.update_same] at hp; exact absurd hp hfp
    · rw [hw]; rfl
  · exfalso
    apply ho i hi hik
    rcases hcase with ⟨_, -, -, hf, -⟩ | ⟨hf, -⟩ <;> simpa [hf, Function.update_noteq hik] using hp

theorem step (ht : c.Tracked) {e : SockEvent} (he : e.isSendto → c.Quiet) : (c.step e).Tracked := by
  cases e with
  | sendto data addr o =>
    have hq := he rfl
    have ho : ∀ i < (c.createFuture data).sends, i ≠ c.sends → (c.createFuture data).futs i ≠ .pending :=
      fun i hi hik => by
        simp only [createFuture_sends, createFuture_futs, Function.update_noteq hik] at hi ⊢
        exact hq i (by omega)
    rw [UDPConnection.step, sendto_eq]
    split_ifs
    · exact Tracked.trySend ho o
    · intro i hi hp
      by_cases hik : i = c.sends
      · subst hik; simp at hp
      · exact absurd (by simpa [Function.update_noteq hik] using hp) (ho i hi hik)
  | writable o =>
    rw [UDPConnection.step]
    cases hw : c.writer with
    | none => rwa [writable_of_none hw]
    | some w =>
      have ho : ∀ i < c.sends, i ≠ w.send → c.futs i ≠ .pending := fun i hi hik hp =>
        hik (Option.some.inj (show some i = some w.send by rw [← ht i hi hp, hw]; rfl))
      rw [writable_of_writer hw]
      split_ifs with hc
      · intro i hi hp
        by_cases hik : i = w.send
        · subst hik; rw [hp] at hc; cases hc
        · exact absurd hp (ho i hi hik)
      · exact Tracked.trySend (c := { c with writer := none }) ho o
  | cancel j =>
    simp only [UDPConnection.step, cancel]
    split_ifs
    · intro i hi hp
      simp only [setFut_futs, Function.update_apply] at hp
      split_ifs at hp
      exact ht i hi hp
    · exact ht

theorem run (ht : c.Tracked) {evs : List SockEvent} (h : c.Awaited evs) : (c.run evs).Tracked := by
  induction evs generalizing c with
  | nil => exact ht
  | cons e evs ih => exact ih (ht.step h.1) h.2

end Tracked

end UDPConnection

/-- **The socket takes each send's data in order**: along every run, the bytes the socket took
for a send are a prefix of the data it was given, and all of it once its future is done; the
descriptor's writer holds exactly the rest of its send. -/
theorem sendto_bytes_in_order (evs : List SockEvent) (k : Nat) :
    let c : UDPConnection := UDPConnection.init.run evs
    c.sentBytes k <+: c.payload k ∧ (c.futs k = .result () → c.sentBytes k = c.payload k) ∧
      ∀ w, c.writer = some w → c.sentBytes w.send ++ w.data = c.payload w.send :=
  have hi := UDPConnection.SendInv.init.run evs
  ⟨hi.taken k, hi.result k, fun w h => (hi.writer w h).2.2⟩

/-- **A stranded send is lost**: whatever the socket and the other sends do afterwards, its future
is never done and the socket takes no more of its bytes. -/
theorem stranded_send_lost (c : UDPConnection) (k : Nat) (h : c.Stranded k) (evs : List SockEvent) :
    (c.run evs).Stranded k ∧ (c.run evs).sentBytes k = c.sentBytes k := by
  induction evs generalizing c with
  | nil => exact ⟨h, rfl⟩
  | cons e evs ih =>
    obtain ⟨h1, hb⟩ := h.step e
    obtain ⟨h2, hb2⟩ := ih _ h1
    exact ⟨h2, hb2.trans hb⟩

/-- Two sends find the socket full, the second before the first's writer ran: the first is
stranded, and stays so, with none of its bytes sent, once the second has gone out. -/
theorem blocked_send_stranded :
    let c : UDPConnection := UDPConnection.init.run
      [.sendto [1] ⟨"10.0.0.2", 7900⟩ .wouldBlock, .sendto [2] ⟨"10.0.0.3", 7900⟩ .wouldBlock]
    c.Stranded 0 ∧ (c.run [.writable (.sent 1)]).Stranded 0 ∧ (c.run [.writable (.sent 1)]).sentBytes 0 = [] :=
  have h := stranded_send_lost _ 0 (by decide) [.writable (.sent 1)]
  ⟨by decide, h.1, h.2.trans rfl⟩

/-- **Awaited sends are never stranded**: when each `sendto` is made only once no earlier send is
pending, every pending send holds the descriptor's writer, all along the run. -/
theorem awaited_sends_tracked (evs : List SockEvent) (h : UDPConnection.init.Awaited evs) :
    (UDPConnection.init.run evs).Tracked :=
  UDPConnection.Tracked.run (fun _ h => absurd h (Nat.not_lt_zero _)) h

/-- A send that found the socket full, its writer run, then the next send: each was awaited. -/
theorem awaited_send_after_writer :
    let evs : List SockEvent :=
      [.sendto [1] ⟨"10.0.0.2", 7900⟩ .wouldBlock, .writable (.sent 1), .sendto [2] ⟨"10.0.0.3", 7900⟩ .wouldBlock]
    UDPConnection.init.Awaited evs ∧ (UDPConnection.init.run evs).Tracked :=
  ⟨by decide, awaited_sends_tracked _ (by decide)⟩

end Tattle
