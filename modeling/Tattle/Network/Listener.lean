import Tattle.State.NodeManager

/-!
# The receive loop of `UDPListener`

A started `UDPListener` keeps one receive pending: `_read_data` schedules `recvfrom(read_size)`
with `_handle_data` as the done callback, and `_handle_data` calls `_read_data` again after it
has handled the receive. A datagram is handed to the callback through `_run_callback`, which
catches whatever the callback raises, so a datagram always leads to a new receive, and a run of
datagrams is delivered in order (`trace_datagrams`).

A receive that fails is different. `UDPConnection._recvfrom` sets the socket's exception on the
future, and `_handle_data` logs it and returns from inside its `try`, which skips the trailing
`self._read_data()`. No receive is pending afterwards and none is ever scheduled again: whatever
the socket does next, the listener delivers nothing more (`recv_error_stops_listener`). On
Windows, with a selector event loop, `recvfrom` on a UDP socket raises `ConnectionResetError`
(`WSAECONNRESET`) after an earlier `sendto` drew an ICMP port-unreachable, as a PING to a node
that has gone away does.

A cancelled future, which only `stop` causes, is left out: the loop is about a listener that has
not been stopped.

## Main definitions

* `RecvOutcome`: how a receive completes
* `UDPListener`, `UDPListener.handleData`: the listener, and `_handle_data`
* `UDPListener.trace`: the listener after the first `n` outcomes of a sequence

## Main results

* `UDPListener.trace_datagrams`: a run of datagrams keeps a receive pending and delivers them all
* `recv_error_stops_listener`: after a failed receive the listener never receives again
-/

namespace Tattle

/-- How the future of a `recvfrom` completes: with a datagram and its sender, or with the
exception the socket raised, by its class name (an `OSError` such as `ConnectionResetError`). -/
inductive RecvOutcome
  | datagram (data : List UInt8) (addr : Addr)
  | error (exc : String)

/-- A `UDPListener` after `start`, as its receive loop sees it. -/
structure UDPListener where
  /-- `_task`: a `recvfrom` is pending, with `_handle_data` as its done callback. -/
  pending : Bool
  /-- The datagrams handed to the callback, in order. -/
  delivered : List (List UInt8 × Addr)

namespace UDPListener

variable (l : UDPListener)

/-- `_read_data`: schedule a receive, with `_handle_data` as its done callback. -/
def readData : UDPListener := { l with pending := true }

/-- `_run_callback(data, addr)`: the callback gets the datagram; whatever it raises is caught and
logged, and a coroutine it returns runs as a task of its own. -/
def runCallback (data : List UInt8) (addr : Addr) : UDPListener :=
  { l with delivered := l.delivered ++ [(data, addr)] }

/-- `_handle_data(future)`, when the pending receive completes. On an exception it logs and
returns from inside the `try`, before the `self._read_data()` after it. -/
def handleData : RecvOutcome → UDPListener
  | .error _ => { l with pending := false }
  | .datagram data addr => ({ l with pending := false }.runCallback data addr).readData

/-- The listener after the first `n` outcomes of `σ`. An outcome comes only while a receive is
pending; once none is, the listener waits for ever. -/
def trace (σ : Nat → RecvOutcome) : Nat → UDPListener
  | 0 => l
  | n + 1 =>
    let l' := trace σ n
    if l'.pending then l'.handleData (σ n) else l'

variable {l}

@[simp] theorem handleData_datagram_pending (data : List UInt8) (addr : Addr) :
    (l.handleData (.datagram data addr)).pending = true := rfl

@[simp] theorem handleData_datagram_delivered (data : List UInt8) (addr : Addr) :
    (l.handleData (.datagram data addr)).delivered = l.delivered ++ [(data, addr)] := rfl

@[simp] theorem handleData_error_pending (exc : String) : (l.handleData (.error exc)).pending = false :=
  rfl

@[simp] theorem trace_zero (σ : Nat → RecvOutcome) : l.trace σ 0 = l := rfl

theorem trace_succ (σ : Nat → RecvOutcome) (n : Nat) :
    l.trace σ (n + 1) = if (l.trace σ n).pending then (l.trace σ n).handleData (σ n) else l.trace σ n :=
  rfl

/-- A listener with no receive pending stays as it is. -/
theorem trace_idle (σ : Nat → RecvOutcome) (h : l.pending = false) (n : Nat) : l.trace σ n = l := by
  induction n with
  | zero => rfl
  | succ n ih => rw [trace_succ, ih, h, if_neg Bool.false_ne_true]

/-- The trace goes on from the state it reached. -/
theorem trace_add (σ : Nat → RecvOutcome) (m j : Nat) :
    l.trace σ (m + j) = (l.trace σ m).trace (fun i => σ (m + i)) j := by
  induction j with
  | zero => rfl
  | succ j ih => rw [← Nat.add_assoc, trace_succ, trace_succ, ih]

/-- **A run of datagrams keeps a receive pending and delivers them all**, in order, whatever the
callback does with them. -/
theorem trace_datagrams (σ : Nat → RecvOutcome) (data : Nat → List UInt8 × Addr) (n : Nat)
    (hσ : ∀ k < n, σ k = .datagram (data k).1 (data k).2) (h : l.pending = true) :
    (l.trace σ n).pending = true ∧
      (l.trace σ n).delivered = l.delivered ++ (List.range n).map data := by
  induction n with
  | zero => exact ⟨h, by simp⟩
  | succ n ih =>
    obtain ⟨h1, h2⟩ := ih fun k hk => hσ k (Nat.lt_succ_of_lt hk)
    rw [trace_succ, if_pos h1, hσ n (Nat.lt_succ_self n)]
    exact ⟨rfl, by simp [h2, List.range_succ]⟩

end UDPListener

open UDPListener in
/-- **After a failed receive the listener never receives again.** Take a started listener and any
sequence of receive outcomes whose first `k` are datagrams and whose next is an exception. The
listener hands the `k` datagrams to its callback, whatever the callback raises; from the failed
receive on, no receive is pending and it hands over nothing more, whatever the socket does. -/
theorem recv_error_stops_listener (l : UDPListener) (hl : l.pending = true) (σ : Nat → RecvOutcome)
    (data : Nat → List UInt8 × Addr) (k : Nat) (hσ : ∀ j < k, σ j = .datagram (data j).1 (data j).2)
    (exc : String) (he : σ k = .error exc) (n : Nat) (hn : k < n) :
    (l.trace σ n).pending = false ∧ (l.trace σ n).delivered = l.delivered ++ (List.range k).map data := by
  obtain ⟨h1, h2⟩ := trace_datagrams σ data k hσ hl
  have hk : l.trace σ (k + 1) = (l.trace σ k).handleData (.error exc) := by
    rw [trace_succ, if_pos h1, he]
  obtain ⟨j, rfl⟩ : ∃ j, n = k + 1 + j := ⟨n - (k + 1), by omega⟩
  rw [trace_add, hk, trace_idle _ rfl]
  exact ⟨rfl, h2⟩

/-- One datagram, then the `ConnectionResetError` that `recvfrom` raises on Windows once an ICMP
port-unreachable has come back: the datagram is delivered and nothing after it. -/
theorem recv_error_after_datagram :
    let σ : Nat → RecvOutcome := fun j =>
      if j = 0 then .datagram [1] ⟨"10.0.0.2", 7900⟩ else .error "ConnectionResetError"
    let data : Nat → List UInt8 × Addr := fun _ => ([1], ⟨"10.0.0.2", 7900⟩)
    ((true = true ∧ ∀ j < 1, σ j = .datagram (data j).1 (data j).2) ∧
      σ 1 = .error "ConnectionResetError" ∧ 1 < 4) ∧
      ((⟨true, []⟩ : UDPListener).trace σ 4).pending = false ∧
      ((⟨true, []⟩ : UDPListener).trace σ 4).delivered = [] ++ (List.range 1).map data := by
  intro σ data
  have hσ : ∀ j < 1, σ j = .datagram (data j).1 (data j).2 := fun j hj => by
    obtain rfl : j = 0 := by omega
    rfl
  exact ⟨⟨⟨rfl, hσ⟩, rfl, by decide⟩,
    recv_error_stops_listener ⟨true, []⟩ rfl σ data 1 hσ "ConnectionResetError" rfl 4 (by decide)⟩

end Tattle
