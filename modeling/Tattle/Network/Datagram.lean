import Mathlib.Data.Fintype.BigOperators
import Mathlib.Data.List.OfFn
import Tattle.Network.Framing

/-!
# Datagrams: what `_handle_udp_data` dispatches, and what a receive holds

`_handle_udp_data` reads the frames of a datagram one by one and hands each to
`_decode_message`. A frame that does not decode (`MessageDecodeError`, which `_decode_message`
logs and turns into `None`) is skipped, and `_handle_udp_message` catches whatever a dispatch
raises, so neither ends the loop: the frames of a datagram of well-formed frames all reach
`_decode_message`, in order, and every one that decodes is dispatched. Every read that returns a
frame consumes bytes, so the loop ends on every byte string.

On the sending side, `Cluster.send` carries a USER message of up to 65000 bytes over UDP, and
`_send_udp_message` puts it whole in one datagram, gossip after it. The `UDPListener` that
`Cluster` builds reads `read_size = 1024` bytes per `recvfrom`, and the rest of a longer datagram
is dropped. No encoding from which a message can be decoded back keeps every payload of 2048 bytes
within 1024 bytes, so some USER message reaches its receiver cut short.

`messages.py` and `queue.py` are not in the repository: the encoding of a message, which frames
decode, and the payloads `BroadcastQueue.fetch` returns are parameters.

## Main definitions

* `udpFrames`, `handleUdpData`: what `_handle_udp_data` hands to `_decode_message`, and dispatches
* `sendUdpMessage`, `Cluster.sendTransport`: the datagram of `_send_udp_message`, and the
  transport `Cluster.send` picks
* `recvfrom`, `udpReadSize`: a receive of the `UDPListener` of a `Cluster`

## Main results

* `readUdpMessages_fuel`: the read loop ends by itself on every byte string
* `udp_frames_dispatched`: a datagram of frames is decoded frame by frame, and every frame that
  decodes is dispatched
* `long_encoding_exists`: an encoding that can be decoded back makes some payload of 2048 bytes
  longer than 1024
* `user_datagram_truncated`: so a USER message sent over UDP can be cut short
-/

namespace Tattle

/-! ## The read loop of `_handle_udp_data` ends -/

/-- A read leaves no more bytes than it found. -/
theorem bufferedRead_length {rest buf rest' : List UInt8} {n : Int}
    (h : bufferedRead rest n = .ok (buf, rest')) : rest'.length ≤ rest.length := by
  unfold bufferedRead at h
  split_ifs at h <;> cases h <;> simp

theorem decodeMessageHeader_length {H length : Nat} {raw : List UInt8}
    (h : decodeMessageHeader H raw = .ok length) : raw.length = H := by
  unfold decodeMessageHeader at h
  split_ifs at h with e
  exact e

/-- A read that returns a frame consumes bytes: the header it reads is not empty. -/
theorem readUdpMessage_shrinks {H : Nat} {data rest raw : List UInt8}
    (h : readUdpMessage H data = (.ok (some raw), rest)) : rest.length < data.length := by
  simp only [readUdpMessage, bufferedRead_ofNat] at h
  split_ifs at h with h0
  · cases h
  split at h
  · cases h
  rename_i hd
  split at h
  · cases h
  rename_i hb
  cases h
  have hH := decodeMessageHeader_length hd
  have hpos : 0 < H := Nat.pos_of_ne_zero fun e => h0 (by simp [e])
  have := bufferedRead_length hb
  simp only [List.length_take, List.length_drop] at hH this
  omega

/-- A loop whose every read that returns a message consumes some of `size` ends by itself:
allowed more reads than `size`, more reads change nothing. -/
theorem readMessages_fuel {σ : Type} (read : σ → Except PyError (Option (List UInt8)) × σ)
    (size : σ → Nat) (hread : ∀ s raw s', read s = (.ok (some raw), s') → size s' < size s)
    {fuel k : Nat} {s : σ} (h : size s < fuel) (h' : size s < k) :
    readMessages read fuel s = readMessages read k s := by
  induction fuel generalizing k s with
  | zero => omega
  | succ fuel ih =>
    obtain ⟨k, rfl⟩ : ∃ j, k = j + 1 := ⟨k - 1, by omega⟩
    rcases hr : read s with ⟨_ | _ | raw, s'⟩ <;> simp only [readMessages, hr]
    have := hread s raw s' hr
    rw [ih (k := k) (by omega) (by omega)]

/-- The read loop of `_handle_udp_data` ends by itself on every byte string. -/
theorem readUdpMessages_fuel {H fuel : Nat} {data : List UInt8} (h : data.length < fuel) :
    readUdpMessages H fuel data = readUdpMessages H (data.length + 1) data :=
  readMessages_fuel _ List.length (fun _ _ _ => readUdpMessage_shrinks) h (Nat.lt_succ_self _)

/-! ## What the loop decodes and dispatches -/

/-- The frames `_handle_udp_data` hands to `_decode_message`, in order: those its reads return. -/
def udpFrames (H fuel : Nat) (data : List UInt8) : List (List UInt8) :=
  (readUdpMessages H fuel data).filterMap fun r =>
    match r with
    | .ok (some raw) => some raw
    | _ => none

/-- `_handle_udp_data(data, client_addr)`: the messages it dispatches, in order. `decode` is
`_decode_message`, `None` for a frame that raises `MessageDecodeError`, which the loop skips;
`_handle_udp_message` catches whatever a dispatch raises, so a dispatch never ends the loop. -/
def handleUdpData {α : Type} (decode : List UInt8 → Option α) (H fuel : Nat) (data : List UInt8) :
    List α :=
  (udpFrames H fuel data).filterMap decode

/-- **A datagram of frames is decoded frame by frame, and every frame that decodes is
dispatched.** For frames `f₁ … fₖ`, each at least a header long with its own length in its
length field, `_handle_udp_data` on their concatenation hands exactly `f₁ … fₖ` to
`_decode_message`, in order, and dispatches the message of every frame that decodes, whatever
became of the frames before it. On every byte string its read loop ends by itself: allowed more
reads than there are bytes, it makes no more. -/
theorem udp_frames_dispatched {α : Type} (decode : List UInt8 → Option α) {H : Nat} (hH : 4 ≤ H) :
    (∀ (fs : List (Frame H)) (fuel : Nat), fs.length < fuel →
      udpFrames H fuel (Frame.join fs) = fs.map Frame.bytes ∧
        handleUdpData decode H fuel (Frame.join fs) = (fs.map Frame.bytes).filterMap decode) ∧
    ∀ (data : List UInt8) (fuel : Nat), data.length < fuel →
      readUdpMessages H fuel data = readUdpMessages H (data.length + 1) data := by
  refine ⟨fun fs fuel h => ?_, fun _ _ h => readUdpMessages_fuel h⟩
  have hf : udpFrames H fuel (Frame.join fs) = fs.map Frame.bytes := by
    simp only [udpFrames, readUdpMessages_frames hH fs h, List.filterMap_append, List.filterMap_map]
    show List.filterMap (some ∘ Frame.bytes) fs ++ [] = _
    rw [List.append_nil]
    exact congrFun (List.filterMap_eq_map Frame.bytes) fs
  exact ⟨hf, by rw [handleUdpData, hf]⟩

/-- Frames with a header of six bytes, decoded to their first byte. -/
theorem udp_frames_dispatched_header_six :
    let decode : List UInt8 → Option UInt8 := List.head?
    4 ≤ 6 ∧
    (∀ (fs : List (Frame 6)) (fuel : Nat), fs.length < fuel →
      udpFrames 6 fuel (Frame.join fs) = fs.map Frame.bytes ∧
        handleUdpData decode 6 fuel (Frame.join fs) = (fs.map Frame.bytes).filterMap decode) ∧
    ∀ (data : List UInt8) (fuel : Nat), data.length < fuel →
      readUdpMessages 6 fuel data = readUdpMessages 6 (data.length + 1) data :=
  by intro decode; exact ⟨by decide, udp_frames_dispatched decode (by decide)⟩

/-! ## The size of a datagram -/

/-- `messages.UserMessage(data=data, sender=sender)`. -/
structure UserMessage where
  data : List UInt8
  sender : String

/-- How `Cluster.send` carries a USER message. -/
inductive Transport
  | udp
  | tcp
  deriving DecidableEq, Repr

/-- `Cluster.send(node, data, reliable)`: over TCP when asked to be reliable or when the payload
is over 65000 bytes, over UDP otherwise. -/
def Cluster.sendTransport (data : List UInt8) (reliable : Bool) : Transport :=
  if reliable || decide (65000 < data.length) then .tcp else .udp

/-- `_send_udp_message(host, port, msg)`: the datagram handed to `sendto` is the encoded message,
then the gossip payloads `BroadcastQueue.fetch` returned, already encoded. -/
def sendUdpMessage {α : Type} (encode : α → List UInt8) (msg : α) (gossip : List (List UInt8)) :
    List UInt8 :=
  encode msg ++ gossip.flatten

/-- The `read_size` of the `UDPListener` that `Cluster` builds: it passes none, so the default. -/
def udpReadSize : Nat := 1024

/-- `sock.recvfrom(bufsize)` on a datagram: its first `bufsize` bytes; the rest is discarded. -/
def recvfrom (bufsize : Nat) (datagram : List UInt8) : List UInt8 := datagram.take bufsize

/-- Byte strings as naturals, in bijective base 257. -/
def byteCode : List UInt8 → Nat
  | [] => 0
  | b :: bs => b.toNat + 1 + 257 * byteCode bs

theorem byteCode_lt : ∀ l : List UInt8, byteCode l < 257 ^ l.length
  | [] => by simp [byteCode]
  | b :: bs => by
    have := byteCode_lt bs
    have : b.toNat < 256 := b.toNat_lt_size
    rw [byteCode, List.length_cons, pow_succ]
    omega

theorem byteCode_injective : Function.Injective byteCode := by
  intro l l' h
  induction l generalizing l' with
  | nil => cases l' with
    | nil => rfl
    | cons b bs => simp only [byteCode] at h; omega
  | cons b bs ih => cases l' with
    | nil => simp only [byteCode] at h; omega
    | cons b' bs' =>
      have : b.toNat < 256 := b.toNat_lt_size
      have : b'.toNat < 256 := b'.toNat_lt_size
      simp only [byteCode] at h
      rw [UInt8.toNat.inj (by omega : b.toNat = b'.toNat), ih (by omega : byteCode bs = byteCode bs')]

/-- The payload of `L` bytes with the values `v`. -/
def payload {L : Nat} (v : Fin L → Fin 256) : List UInt8 := List.ofFn fun i => UInt8.ofNat (v i)

theorem payload_injective {L : Nat} : Function.Injective (payload (L := L)) := fun v w h =>
  funext fun i => Fin.ext <| by
    rw [← UInt8.toNat_ofNat_of_lt (v i).isLt, ← UInt8.toNat_ofNat_of_lt (w i).isLt,
      congrFun (List.ofFn_injective h) i]

/-- An encoding that can be decoded back makes some payload of `L` bytes longer than `N` bytes
when there are more such payloads than byte strings of at most `N` bytes. -/
theorem long_encoding_of_lt {L N : Nat} (hLN : 257 ^ N < 256 ^ L) (encode : List UInt8 → List UInt8)
    (hinj : Function.Injective encode) : ∃ data : List UInt8, data.length = L ∧ N < (encode data).length := by
  by_contra hall
  push_neg at hall
  have hcode (v : Fin L → Fin 256) : byteCode (encode (payload v)) < 257 ^ N :=
    (byteCode_lt _).trans_le (Nat.pow_le_pow_right (n := 257) (by decide) (hall _ (List.length_ofFn _)))
  have hle := Fintype.card_le_of_injective (fun v => (⟨_, hcode v⟩ : Fin (257 ^ N)))
    fun v w h => payload_injective (hinj (byteCode_injective (congrArg Fin.val h)))
  simp only [Fintype.card_fun, Fintype.card_fin] at hle
  exact absurd hle (Nat.not_le.mpr hLN)

/-- There are more byte strings of `2k` bytes than of at most `k`, counted in base 257. -/
theorem pow_gap {k : Nat} (hk : k ≠ 0) : 257 ^ k < 256 ^ (2 * k) := by
  rw [pow_mul]
  exact Nat.pow_lt_pow_left (by decide) hk

/-- **An encoding that can be decoded back cannot keep every payload of 2048 bytes within 1024
bytes.** -/
theorem long_encoding_exists (encode : List UInt8 → List UInt8) (hinj : Function.Injective encode) :
    ∃ data : List UInt8, data.length = 2048 ∧ 1024 < (encode data).length :=
  let ⟨data, hl, hlong⟩ := long_encoding_of_lt (pow_gap (k := 1024) (by decide)) encode hinj
  ⟨data, hl.trans rfl, hlong⟩

/-- **A USER message sent over UDP can be cut short at the receiver.** For every encoding of
USER messages from which the payload can be decoded back, and whatever gossip the queue adds,
`Cluster.send` with `reliable=False` carries some payload of 2048 bytes over UDP, in a datagram
longer than the 1024 bytes the receiving `UDPListener` reads: `recvfrom` returns a prefix. -/
theorem user_datagram_truncated (encode : UserMessage → List UInt8) (sender : String)
    (hinj : ∀ d d', encode ⟨d, sender⟩ = encode ⟨d', sender⟩ → d = d') (gossip : List (List UInt8)) :
    ∃ data : List UInt8, data.length ≤ 65000 ∧ Cluster.sendTransport data false = .udp ∧
      udpReadSize < (sendUdpMessage encode ⟨data, sender⟩ gossip).length ∧
      recvfrom udpReadSize (sendUdpMessage encode ⟨data, sender⟩ gossip) ≠
        sendUdpMessage encode ⟨data, sender⟩ gossip := by
  obtain ⟨data, hl, hlong⟩ := long_encoding_exists (fun d => encode ⟨d, sender⟩) hinj
  have hlen : udpReadSize < (sendUdpMessage encode ⟨data, sender⟩ gossip).length := by
    simp only [sendUdpMessage, List.length_append, udpReadSize]
    omega
  refine ⟨data, by omega, by simp [Cluster.sendTransport, hl], hlen, fun h => ?_⟩
  have := congrArg List.length h
  simp only [recvfrom, List.length_take] at this
  omega

/-- Encoding a USER message as its payload: one such message is cut short. -/
theorem user_datagram_truncated_plain :
    let encode : UserMessage → List UInt8 := UserMessage.data
    (∀ d d', encode ⟨d, "a"⟩ = encode ⟨d', "a"⟩ → d = d') ∧
    ∃ data : List UInt8, data.length ≤ 65000 ∧ Cluster.sendTransport data false = .udp ∧
      udpReadSize < (sendUdpMessage encode ⟨data, "a"⟩ []).length ∧
      recvfrom udpReadSize (sendUdpMessage encode ⟨data, "a"⟩ []) ≠ sendUdpMessage encode ⟨data, "a"⟩ [] :=
  by intro encode; exact ⟨fun _ _ h => h, user_datagram_truncated encode "a" (fun _ _ h => h) []⟩

end Tattle
