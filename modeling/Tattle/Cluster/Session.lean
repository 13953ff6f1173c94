import Tattle.Cluster.Sync
import Tattle.Network.Datagram

/-!
# The sync session over a node's TCP connection

`_sync_node` syncs over the connection a node keeps to another: `_ensure_connected` opens it once
and starts `_after_connect_loop` on it, and every sync (each `sync_interval`, and `Cluster.sync`)
writes `_send_local_state` to it. `Cluster.send(node, data, reliable=True)` writes its USER
messages to the same stream. On the other side `_handle_tcp_connection` reads the messages in
order: for a SYNC message, `_handle_sync_message` merges its entries and writes the reply, its own
`_send_local_state`; a USER message goes to the user's callback, and nothing is written back.
`_after_connect_loop` reads the replies in order and merges each one
(`_handle_tcp_client_message`).

No handler suspends between the read of a message and the write of its reply: the lock of
`on_node_*` is free when it is taken, and nothing else is awaited. So one turn of either loop is
one step. Between any two steps either node may run any other call: gossip, a timer,
`set_local_node` or `leave_local_node`. A session is the two managers and the two directions of the
stream. Each direction is every message written to it, together with how many of them the reader
has consumed.

In every state such a session reaches, the server has answered every SYNC message it read with
exactly one reply, and nothing else. No reply is lost, because no merge of a started node raises
(`sync_session_answers_every_sync`). And each side holds a record of every name that was ALIVE in
a message it read, whatever ran since (`sync_session_spreads_alive`).

## Main definitions

* `TcpMessage`: a SYNC or a USER message
* `NodeManager.handleTcpMessage`, `NodeManager.handleTcpClientMessage`: one turn of the server's
  loop and of the client's
* `Session`, `Session.step`, `Session.Reachable`: a session and its runs
* `Session.Inv`: what every reachable session keeps

## Main results

* `Session.Reachable.inv`: every reachable session keeps `Session.Inv`
* `Session.syncHost_eq_session`: `_sync_host` is a session with no other step in between
* `sync_session_answers_every_sync`: every SYNC message read is answered once, and nothing else is
* `sync_session_spreads_alive`: each side knows every name ALIVE in a message it read
-/

namespace Tattle

/-! ## Messages and the two loops -/

/-- A message over TCP: `SyncMessage(remote_state=...)` or `UserMessage(data, sender)`. -/
inductive TcpMessage
  | sync (nodes : List RemoteState)
  | user (msg : UserMessage)

namespace TcpMessage

/-- The entries `message.nodes` of a SYNC message; a USER message carries none. -/
def nodes : TcpMessage → List RemoteState
  | sync es => es
  | user _ => []

/-- Whether `isinstance(message, messages.SyncMessage)`. -/
def isSync : TcpMessage → Bool
  | sync _ => true
  | user _ => false

end TcpMessage

namespace NodeManager

/-- One turn of the loop of `_handle_tcp_connection` on the node named `L`, through
`_handle_tcp_message`. A SYNC message runs `_handle_sync_message`, which merges its entries with
the draws `δ` and writes the reply. `_handle_tcp_message` catches an exception of the merge, and
then nothing is written. A USER message goes to `_handle_user_message`, which writes nothing. -/
def handleTcpMessage (L : String) (s : NodeManager) (δ : Nat → Nat) :
    TcpMessage → NodeManager × List TcpMessage
  | .sync es =>
    match s.handleSyncMessage L (withDraws δ es) with
    | (s', some reply) => (s', [.sync reply])
    | (s', none) => (s', [])
  | .user _ => (s, [])

/-- One turn of `_after_connect_loop` on the node named `L`, through `_handle_tcp_client_message`.
A SYNC message is merged with the draws `δ`, and an exception of the merge is caught and logged.
A USER message goes to `_handle_user_message`. -/
def handleTcpClientMessage (L : String) (s : NodeManager) (δ : Nat → Nat) : TcpMessage → NodeManager
  | .sync es => (s.mergeRemoteStates L (withDraws δ es)).state
  | .user _ => s

end NodeManager

/-! ## The session -/

/-- A TCP connection that a client opened to a server: the two managers, every message the client
wrote (`up`) and the server wrote (`down`), in order, and how many of each the other side's loop
has read. -/
structure Session where
  client : NodeManager
  server : NodeManager
  up : List TcpMessage
  upRead : Nat
  down : List TcpMessage
  downRead : Nat

/-- A step of a session. -/
inductive SessionEvent
  /-- The client's `_sync_node` writes `_send_local_state`. -/
  | syncNode
  /-- The client's `Cluster.send(node, data, reliable=True)` writes a USER message. -/
  | send (msg : UserMessage)
  /-- A turn of the server's loop, with the draws of its merge. -/
  | serve (δ : Nat → Nat)
  /-- A turn of the client's loop, with the draws of its merge. -/
  | receive (δ : Nat → Nat)
  /-- Any other call on the client. -/
  | client (c : Call)
  /-- Any other call on the server. -/
  | server (c : Call)

namespace Session

/-- A step of a session between a client named `LA` and a server named `LB`. A loop with nothing
to read waits, and nothing changes. -/
def step (LA LB : String) (σ : Session) : SessionEvent → Session
  | .syncNode => { σ with up := σ.up ++ [.sync σ.client.localState] }
  | .send msg => { σ with up := σ.up ++ [.user msg] }
  | .serve δ =>
    match σ.up[σ.upRead]? with
    | none => σ
    | some m =>
      { σ with server := (σ.server.handleTcpMessage LB δ m).1, upRead := σ.upRead + 1,
               down := σ.down ++ (σ.server.handleTcpMessage LB δ m).2 }
  | .receive δ =>
    match σ.down[σ.downRead]? with
    | none => σ
    | some m => { σ with client := σ.client.handleTcpClientMessage LA δ m, downRead := σ.downRead + 1 }
  | .client c => { σ with client := (c.run LA σ.client).state }
  | .server c => { σ with server := (c.run LB σ.server).state }

/-- A call runs on a node only when it is enabled there; the writes and the loops can always
run. -/
def Enabled (σ : Session) : SessionEvent → Prop
  | .client c => c.Enabled σ.client
  | .server c => c.Enabled σ.server
  | _ => True

instance (σ : Session) : (ev : SessionEvent) → Decidable (σ.Enabled ev)
  | .client c => inferInstanceAs (Decidable (c.Enabled σ.client))
  | .server c => inferInstanceAs (Decidable (c.Enabled σ.server))
  | .syncNode | .send _ | .serve _ | .receive _ => isTrue trivial

/-- The sessions of a connection from a started client named `LA` to a started server named `LB`:
from any reachable states of the two when the connection opens, any enabled steps. -/
inductive Reachable (LA LB : String) : Session → Prop
  | connect {a b : NodeManager} : Tattle.Reachable LA a → a.localNodeName = some LA →
      Tattle.Reachable LB b → b.localNodeName = some LB → Reachable LA LB ⟨a, b, [], 0, [], 0⟩
  | step {σ : Session} (ev : SessionEvent) : Reachable LA LB σ → σ.Enabled ev →
      Reachable LA LB (σ.step LA LB ev)

/-! ## What a node knows of the messages it read -/

/-- Every name ALIVE in one of the messages `ms` has a record in `s`. -/
def Knows (s : NodeManager) (ms : List TcpMessage) : Prop :=
  ∀ m ∈ ms, ∀ e ∈ m.nodes, e.status = .alive → s.record e.node ≠ none

variable {L : String} {s : NodeManager} {ms : List TcpMessage}

theorem Knows.mono {s' : NodeManager} (h : Knows s ms) (hs : ∀ n, s.record n ≠ none → s'.record n ≠ none) :
    Knows s' ms :=
  fun m hm e he ha => hs _ (h m hm e he ha)

theorem knows_append_user (h : Knows s ms) (u : UserMessage) : Knows s (ms ++ [.user u]) := by
  intro m hm
  rcases List.mem_append.mp hm with hm | hm
  · exact h m hm
  · rw [List.mem_singleton.mp hm]; exact nofun

/-- A call keeps every record. -/
theorem record_run {n : String} (h : s.record n ≠ none) (c : Call) : (c.run L s).state.record n ≠ none := by
  simp only [NodeManager.record, ne_eq, Option.map_eq_none'] at h ⊢
  obtain ⟨r, hr⟩ := Option.ne_none_iff_exists'.mp h
  rw [Call.nodesMap_run hr c]
  exact Option.some_ne_none r

/-- A call on a started node leaves it started under its name. -/
theorem localNodeName_run (hs : Tattle.Reachable L s) (hL : s.localNodeName = some L) (c : Call) :
    (c.run L s).state.localNodeName = some L := by
  rw [← NodeManager.members_localNodeName, Call.members_run hs.wf]
  rcases Call.localNodeName_onMembers (L := L) (s := s) hs.suspectInv c with h | ⟨host, port, md, i, rfl⟩
  · exact h.trans hL
  · have hf := Members.frame_onNodeAlive
      (v := { s.members with localNodeName := some L, localNodeSeq := s.members.localNodeSeq + 1 })
      (hs.suspectInv.congr rfl rfl) L (s.members.localNodeSeq + 1) host port md
    exact hf.localNodeName

/-- A merge from a reachable state of a started node ends normally, in a reachable state of the
started node, which knows every name it knew and the ALIVE names of the merged entries. -/
theorem merge_knows (hs : Tattle.Reachable L s) (hL : s.localNodeName = some L) (h : Knows s ms)
    (δ : Nat → Nat) (es : List RemoteState) :
    ∃ s', s.mergeRemoteStates L (withDraws δ es) = .ok s' ∧ Tattle.Reachable L s' ∧
      s'.localNodeName = some L ∧ Knows s' (ms ++ [.sync es]) := by
  obtain ⟨s', hm, hr, -, hk, -⟩ := NodeManager.mergeRemoteStates_spec hs hL (withDraws δ es)
  obtain ⟨s'', hm', -, hL'⟩ := NodeManager.mergeRemoteStates_run hs hL (withDraws δ es)
  obtain rfl : s'' = s' := by rw [hm] at hm'; cases hm'; rfl
  simp only [map_fst_withDraws] at hk
  refine ⟨s'', hm, hr, hL', fun m hm e he ha => ?_⟩
  rcases List.mem_append.mp hm with hm | hm
  · exact (hk _).mpr (.inl (h m hm e he ha))
  · rw [List.mem_singleton.mp hm] at he
    exact (hk _).mpr (.inr ⟨e, he, rfl, ha⟩)

/-! ## The invariant of a session -/

/-- What every reachable session keeps. Both nodes are reachable and started. Neither loop has
read past what the other side wrote. The server wrote one SYNC reply per SYNC message it read, and
nothing else. And each node knows every name ALIVE in a message it read. -/
structure Inv (LA LB : String) (σ : Session) : Prop where
  client : Tattle.Reachable LA σ.client
  clientName : σ.client.localNodeName = some LA
  server : Tattle.Reachable LB σ.server
  serverName : σ.server.localNodeName = some LB
  upRead : σ.upRead ≤ σ.up.length
  downRead : σ.downRead ≤ σ.down.length
  replies : σ.down.length = ((σ.up.take σ.upRead).filter TcpMessage.isSync).length
  syncs : ∀ m ∈ σ.down, m.isSync
  serverKnows : Knows σ.server (σ.up.take σ.upRead)
  clientKnows : Knows σ.client (σ.down.take σ.downRead)

namespace Inv

variable {LA LB : String} {σ : Session}

theorem connect {a b : NodeManager} (ha : Tattle.Reachable LA a) (haL : a.localNodeName = some LA)
    (hb : Tattle.Reachable LB b) (hbL : b.localNodeName = some LB) : Inv LA LB ⟨a, b, [], 0, [], 0⟩ :=
  ⟨ha, haL, hb, hbL, Nat.le_refl _, Nat.le_refl _, rfl, nofun, nofun, nofun⟩

/-- A write of the client leaves what the server has read as it was. -/
theorem write (h : σ.Inv LA LB) (m : TcpMessage) : Inv LA LB { σ with up := σ.up ++ [m] } := by
  have ht : (σ.up ++ [m]).take σ.upRead = σ.up.take σ.upRead := List.take_append_of_le_length h.upRead
  refine ⟨h.client, h.clientName, h.server, h.serverName, ?_, h.downRead, ?_, h.syncs, ?_, h.clientKnows⟩
  · simp only [List.length_append]; exact Nat.le_add_right_of_le h.upRead
  · dsimp only; rw [ht]; exact h.replies
  · dsimp only; rw [ht]; exact h.serverKnows

/-- The server reads the next message, `m`, and writes `out`: one SYNC reply if `m` is a SYNC
message, nothing otherwise. -/
theorem answer (h : σ.Inv LA LB) {m : TcpMessage} (hm : σ.up[σ.upRead]? = some m) {s' : NodeManager}
    {out : List TcpMessage} (hr : Tattle.Reachable LB s') (hL : s'.localNodeName = some LB)
    (hk : Knows s' (σ.up.take σ.upRead ++ [m])) (hout : out.length = ([m].filter TcpMessage.isSync).length)
    (hsync : ∀ m ∈ out, m.isSync) :
    Inv LA LB { σ with server := s', upRead := σ.upRead + 1, down := σ.down ++ out } := by
  obtain ⟨hlt, -⟩ := List.getElem?_eq_some_iff.mp hm
  have ht : σ.up.take (σ.upRead + 1) = σ.up.take σ.upRead ++ [m] := by rw [List.take_succ, hm]; rfl
  refine ⟨h.client, h.clientName, hr, hL, hlt, ?_, ?_, ?_, ?_, ?_⟩
  · simp only [List.length_append]; exact Nat.le_add_right_of_le h.downRead
  · simp only [List.length_append, ht, List.filter_append, h.replies, hout]
  · intro m hm
    rcases List.mem_append.mp hm with hm | hm
    exacts [h.syncs m hm, hsync m hm]
  · dsimp only; rw [ht]; exact hk
  · dsimp only; rw [List.take_append_of_le_length h.downRead]; exact h.clientKnows

/-- A turn of the server's loop. -/
theorem serve (h : σ.Inv LA LB) (δ : Nat → Nat) : (σ.step LA LB (.serve δ)).Inv LA LB := by
  simp only [step]
  split
  · exact h
  · rename_i m hm
    cases m with
    | sync es =>
      obtain ⟨s', hs', hr, hL, hk⟩ := merge_knows h.server h.serverName h.serverKnows δ es
      have hh : σ.server.handleTcpMessage LB δ (.sync es) = (s', [.sync s'.localState]) := by
        simp only [NodeManager.handleTcpMessage, NodeManager.handleSyncMessage, hs']
      rw [hh]
      exact h.answer hm hr hL hk rfl fun _ hm => by rw [List.mem_singleton.mp hm]; rfl
    | user u => exact h.answer hm h.server h.serverName (knows_append_user h.serverKnows u) rfl nofun

/-- A turn of the client's loop: the reply read is merged. -/
theorem receive (h : σ.Inv LA LB) (δ : Nat → Nat) : (σ.step LA LB (.receive δ)).Inv LA LB := by
  simp only [step]
  split
  · exact h
  · rename_i m hm
    obtain ⟨hlt, -⟩ := List.getElem?_eq_some_iff.mp hm
    have ht : σ.down.take (σ.downRead + 1) = σ.down.take σ.downRead ++ [m] := by
      rw [List.take_succ, hm]; rfl
    cases m with
    | sync es =>
      obtain ⟨s', hs', hr, hL, hk⟩ := merge_knows h.client h.clientName h.clientKnows δ es
      have hh : σ.client.handleTcpClientMessage LA δ (.sync es) = s' := by
        simp only [NodeManager.handleTcpClientMessage, hs', Ret.state_ok]
      rw [hh]
      exact ⟨hr, hL, h.server, h.serverName, h.upRead, hlt, h.replies, h.syncs, h.serverKnows,
        by dsimp only; rw [ht]; exact hk⟩
    | user u =>
      refine ⟨h.client, h.clientName, h.server, h.serverName, h.upRead, hlt, h.replies, h.syncs,
        h.serverKnows, ?_⟩
      dsimp only [NodeManager.handleTcpClientMessage]; rw [ht]; exact knows_append_user h.clientKnows u

theorem step (h : σ.Inv LA LB) {ev : SessionEvent} (he : σ.Enabled ev) : (σ.step LA LB ev).Inv LA LB := by
  cases ev with
  | syncNode => exact h.write _
  | send msg => exact h.write _
  | serve δ => exact h.serve δ
  | receive δ => exact h.receive δ
  | client c =>
    exact { h with client := h.client.step c he, clientName := localNodeName_run h.client h.clientName c,
                   clientKnows := h.clientKnows.mono fun _ hn => record_run hn c }
  | server c =>
    exact { h with server := h.server.step c he, serverName := localNodeName_run h.server h.serverName c,
                   serverKnows := h.serverKnows.mono fun _ hn => record_run hn c }

end Inv

/-- Every reachable session keeps `Session.Inv`. -/
theorem Reachable.inv {LA LB : String} {σ : Session} (h : σ.Reachable LA LB) : σ.Inv LA LB := by
  induction h with
  | connect ha haL hb hbL => exact .connect ha haL hb hbL
  | step _ _ he ih => exact ih.step he

/-! ## The one-shot sync is a session -/

/-- `_sync_host` is a session on a new connection with no other step in between: the client
writes its state, the server answers, and the client merges the reply. The sync ends exactly when
the client's loop has a reply to read, and the client is then in the state the sync ends in. -/
theorem syncHost_eq_session (LA LB : String) (a b : NodeManager) (δa δb : Nat → Nat) :
    let σ : Session := (((⟨a, b, [], 0, [], 0⟩ : Session).step LA LB .syncNode).step LA LB (.serve δb)).step
      LA LB (.receive δa)
    (syncHost LA LB a b δa δb).1.map Ret.state = (if σ.downRead = 0 then none else some σ.client) ∧
      σ.server = (syncHost LA LB a b δa δb).2 := by
  intro σ
  rcases h : b.handleSyncMessage LB (withDraws δb a.localState) with ⟨b', _ | reply⟩ <;>
    simp [σ, step, syncHost, NodeManager.handleTcpMessage, NodeManager.handleTcpClientMessage, h, Ret.state]

end Session

/-! ## Main results -/

/-- **The server answers every SYNC message it reads, once, and nothing else.** In every state
that a session between two started nodes reaches, whatever calls either node made in between,
neither loop has read past what the other side wrote. Every message the server wrote is a SYNC
reply, and there is exactly one per SYNC message it read: no merge raised before its reply, and no
USER message was answered. -/
theorem sync_session_answers_every_sync {LA LB : String} {σ : Session} (h : σ.Reachable LA LB) :
    σ.upRead ≤ σ.up.length ∧ σ.downRead ≤ σ.down.length ∧ (∀ m ∈ σ.down, m.isSync) ∧
      σ.down.length = ((σ.up.take σ.upRead).filter TcpMessage.isSync).length :=
  ⟨h.inv.upRead, h.inv.downRead, h.inv.syncs, h.inv.replies⟩

/-- Node `a`, started, writes a sync and then a USER message to node `b`, started, and `b` reads
both: it wrote one reply. -/
theorem sync_and_user_answered_once :
    let a : NodeManager := ((Call.setLocalNode "h1" 1 (fun _ => none) 0).run "a" .init).state
    let b : NodeManager := ((Call.setLocalNode "h2" 2 (fun _ => none) 0).run "b" .init).state
    let σ : Session := ((((⟨a, b, [], 0, [], 0⟩ : Session).step "a" "b" .syncNode).step "a" "b"
      (.send ⟨[1], "a"⟩)).step "a" "b" (.serve fun _ => 0)).step "a" "b" (.serve fun _ => 0)
    σ.Reachable "a" "b" ∧ σ.upRead = 2 ∧ σ.down.length = 1 := by
  intro a b σ
  have hr : σ.Reachable "a" "b" :=
    .step _ (.step _ (.step _ (.step _ (.connect (.step _ .init trivial) rfl (.step _ .init trivial) rfl)
      trivial) trivial) trivial) trivial
  exact ⟨hr, rfl, (sync_session_answers_every_sync hr).2.2.2.trans rfl⟩

/-- **A session spreads every ALIVE name it carries.** In every state that a session between two
started nodes reaches, the server holds a record of every name that was ALIVE in a SYNC message it
has read, which is the client's state when it wrote it. The client holds a record of every name
that was ALIVE in a reply it has read, which is the server's state after its merge. This holds
whatever gossip, timers, `set_local_node` or `leave_local_node` either node ran since. -/
theorem sync_session_spreads_alive {LA LB : String} {σ : Session} (h : σ.Reachable LA LB) :
    (∀ m ∈ σ.up.take σ.upRead, ∀ e ∈ m.nodes, e.status = .alive → σ.server.record e.node ≠ none) ∧
      ∀ m ∈ σ.down.take σ.downRead, ∀ e ∈ m.nodes, e.status = .alive → σ.client.record e.node ≠ none :=
  ⟨h.inv.serverKnows, h.inv.clientKnows⟩

/-- Node `a`, started, knows `c` ALIVE and syncs with node `b`, started: once `b` has read the sync,
it knows `c`. -/
theorem sync_session_server_learns :
    let a : NodeManager := ((Call.alive "c" 1 "h3" 3 (fun _ => none) 0).run "a"
      ((Call.setLocalNode "h1" 1 (fun _ => none) 0).run "a" .init).state).state
    let b : NodeManager := ((Call.setLocalNode "h2" 2 (fun _ => none) 0).run "b" .init).state
    let σ : Session := ((⟨a, b, [], 0, [], 0⟩ : Session).step "a" "b" .syncNode).step "a" "b"
      (.serve fun _ => 0)
    σ.Reachable "a" "b" ∧ σ.server.record "c" ≠ none := by
  intro a b σ
  have ha : Reachable "a" a := .step _ (.step _ .init trivial) trivial
  have hr : σ.Reachable "a" "b" := .step _ (.step _ (.connect ha rfl (.step _ .init trivial) rfl) trivial) trivial
  obtain ⟨x, hx, hal⟩ : ∃ x, a.record "c" = some x ∧ x.status = .alive := ⟨_, rfl, rfl⟩
  obtain ⟨hm, hn⟩ := NodeManager.ofNode_mem_localState ha hx
  have hk := (sync_session_spreads_alive hr).1 (.sync a.localState) (List.mem_singleton_self _) _ hm hal
  exact ⟨hr, hn ▸ hk⟩

end Tattle
