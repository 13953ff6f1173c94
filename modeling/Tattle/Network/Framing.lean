import Mathlib.Data.Nat.Defs
import Tattle.State.NodeManager

/-!
# Framing of messages on UDP and TCP

Every message on the wire is a frame: a fixed-length header whose first field is the total
length of the frame, then the body. A UDP datagram carries frames one after another, and so does
a TCP stream. `_read_udp_message` and `_read_tcp_message` read a frame the same way: a header's
worth of bytes, then the rest of the length the header names.

They differ in what a read returns. `_handle_udp_data` reads through an `io.BufferedReader` over
the datagram, whose `read(n)` returns `n` bytes unless the data ends first. `_read_tcp_message`
calls `StreamReader.read(n)`, which returns as soon as any bytes are there: at most `n`, and only
as many as the transport has delivered. So the frames of a datagram are read back one by one
(`readUdpMessages_frames`), and so are those of a stream whose every read gets all it asks for
(`readTcpMessages_whole`). But a read of a body that comes back short ends the frame early
(`readTcpMessage_short_body`), and the next header is then read from the middle of the body.

`messages.py` is not in the repository: the length of a header, `MESSAGE_HEADER_LENGTH`, is a
parameter `H`, and its first field is, as the spec has it, a little-endian u32.

## Main definitions

* `Frame H`: a well-formed frame
* `readUdpMessage`, `readTcpMessage`: `_read_udp_message` and `_read_tcp_message`
* `readMessages`: the reads of the loop of `_handle_udp_data` or `_handle_tcp_connection`

## Main results

* `readUdpMessages_frames`: a datagram of frames is read back frame by frame, then `None`
* `readTcpMessages_whole`: so is a stream whose reads all return whole
* `readTcpMessage_short_body`: a short read of a body truncates the frame
-/

namespace Tattle

/-! ## Headers and frames -/

/-- The natural with the given little-endian bytes. -/
def ofBytesLE : List UInt8 → Nat
  | [] => 0
  | b :: bs => b.toNat + 256 * ofBytesLE bs

/-- Modelled from the spec: the first field of a header is the frame's total length, a
little-endian u32. -/
def headerLength (raw : List UInt8) : Nat := ofBytesLE (raw.take 4)

/-- `_decode_message_header(raw)`: `struct.unpack(MESSAGE_HEADER_FORMAT, raw)` raises
`struct.error` unless `raw` is exactly a header long. Of its fields only the length is read. -/
def decodeMessageHeader (H : Nat) (raw : List UInt8) : Except PyError Nat :=
  if raw.length = H then .ok (headerLength raw) else .error .structError

/-- A frame as `_send_tcp_message` writes it and a datagram carries it: at least a header long,
with its own length in its length field. -/
structure Frame (H : Nat) where
  bytes : List UInt8
  header_le : H ≤ bytes.length
  headerLength_eq : headerLength bytes = bytes.length

/-- Frames sent one after another. -/
def Frame.join {H : Nat} (fs : List (Frame H)) : List UInt8 := (fs.map Frame.bytes).flatten

@[simp] theorem Frame.join_nil {H : Nat} : Frame.join ([] : List (Frame H)) = [] := rfl

@[simp] theorem Frame.join_cons {H : Nat} (f : Frame H) (fs : List (Frame H)) :
    Frame.join (f :: fs) = f.bytes ++ Frame.join fs := rfl

section Frame

variable {H : Nat} (hH : 4 ≤ H) (f : Frame H) (rest : List UInt8)

include hH in
/-- The header of a frame, followed by anything, decodes to the frame's length. -/
theorem Frame.decode_take : decodeMessageHeader H ((f.bytes ++ rest).take H) = .ok f.bytes.length := by
  rw [List.take_append_of_le_length f.header_le, decodeMessageHeader,
    if_pos (by rw [List.length_take]; exact Nat.min_eq_left f.header_le), headerLength,
    List.take_take, Nat.min_eq_left hH, ← headerLength, f.headerLength_eq]

include hH in
theorem Frame.take_ne_nil : (f.bytes ++ rest).take H ≠ [] := by
  have := f.header_le
  rw [Ne, ← List.length_eq_zero, List.length_take, List.length_append]
  omega

/-- A frame is its header, read first, and a body of the length the header names less `H`. -/
theorem Frame.split :
    (f.bytes ++ rest).take H ++ (((f.bytes ++ rest).drop H).take (f.bytes.length - H)) =
      f.bytes ∧ ((f.bytes ++ rest).drop H).drop (f.bytes.length - H) = rest := by
  have hl := f.header_le
  have hd : (f.bytes.drop H).length = f.bytes.length - H := List.length_drop _ _
  rw [List.drop_append_of_le_length hl, List.take_append_of_le_length hl,
    List.take_left' hd, List.drop_left' hd]
  exact ⟨List.take_append_drop _ _, rfl⟩

end Frame

/-! ## Reading a datagram -/

/-- `io.BufferedReader(io.BytesIO(data)).read(n)` over the unread bytes `rest`: `n` bytes, or as
many as remain, for `n ≥ 0`; all that remain for `-1`; below, `ValueError`. -/
def bufferedRead (rest : List UInt8) (n : Int) : Except PyError (List UInt8 × List UInt8) :=
  if n < -1 then .error .valueError
  else if n = -1 then .ok (rest, [])
  else .ok (rest.take n.toNat, rest.drop n.toNat)

@[simp] theorem bufferedRead_ofNat (rest : List UInt8) (n : Nat) :
    bufferedRead rest n = .ok (rest.take n, rest.drop n) := by
  simp only [bufferedRead, Int.toNat_ofNat]
  rw [if_neg (by omega), if_neg (by omega)]

/-- `_read_udp_message(reader)` over the unread bytes `rest`: what it returns, or raises, and the
bytes left. -/
def readUdpMessage (H : Nat) (rest : List UInt8) :
    Except PyError (Option (List UInt8)) × List UInt8 :=
  match bufferedRead rest H with
  | .error e => (.error e, rest)
  | .ok (buf, rest) =>
    if buf = [] then (.ok none, rest)
    else match decodeMessageHeader H buf with
      | .error e => (.error e, rest)
      | .ok length =>
        match bufferedRead rest (length - H) with
        | .error e => (.error e, rest)
        | .ok (body, rest) => (.ok (some (buf ++ body)), rest)

theorem readUdpMessage_nil (H : Nat) : readUdpMessage H [] = (.ok none, []) := by
  simp [readUdpMessage]

/-- A datagram that starts with a frame gives that frame, and the bytes after it. -/
theorem readUdpMessage_frame {H : Nat} (hH : 4 ≤ H) (f : Frame H) (rest : List UInt8) :
    readUdpMessage H (f.bytes ++ rest) = (.ok (some f.bytes), rest) := by
  have hn : ((f.bytes.length : Int) - H) = ((f.bytes.length - H : Nat) : Int) := by
    have := f.header_le; omega
  simp only [readUdpMessage, bufferedRead_ofNat, if_neg (f.take_ne_nil hH rest),
    f.decode_take hH, hn, (f.split rest).1, (f.split rest).2]

/-! ## Reading a stream -/

/-- An `asyncio.StreamReader` of a connection: the bytes still to come, and how many bytes each
read that finds data gets, as the transport delivered them. Once `chunks` runs out, a read gets all
it asks for. -/
structure StreamReader where
  rest : List UInt8
  chunks : List Nat

/-- `StreamReader.read(n)`: `b''` for `n = 0` and everything up to EOF for `n < 0`; otherwise at
least one byte and at most `n` while any remain, and `b''` at EOF. -/
def StreamReader.read (r : StreamReader) (n : Int) : List UInt8 × StreamReader :=
  if n = 0 then ([], r)
  else if n < 0 then (r.rest, ⟨[], r.chunks⟩)
  else
    let m := match r.chunks with
      | [] => n.toNat
      | k :: _ => max 1 (min k n.toNat)
    (r.rest.take m, ⟨r.rest.drop m, r.chunks.tail⟩)

/-- A read with no chunk left gets all it asks for. -/
@[simp] theorem StreamReader.read_whole (rest : List UInt8) (n : Nat) :
    (⟨rest, []⟩ : StreamReader).read n = (rest.take n, ⟨rest.drop n, []⟩) := by
  rcases n with _ | n
  · rfl
  · simp only [read, Int.toNat_ofNat]
    rw [if_neg (by omega), if_neg (by omega)]
    rfl

/-- A read of `n` bytes that finds only `k` of them delivered. -/
theorem StreamReader.read_chunk (rest : List UInt8) {k n : Nat} (hk : 0 < k) (hkn : k ≤ n)
    (ks : List Nat) : (⟨rest, k :: ks⟩ : StreamReader).read n = (rest.take k, ⟨rest.drop k, ks⟩) := by
  simp only [read, Int.toNat_ofNat]
  rw [if_neg (by omega), if_neg (by omega), Nat.min_eq_left hkn, Nat.max_eq_right hk]
  rfl

/-- `_read_tcp_message(stream_reader)`: what it returns, or raises, and the reader after it. -/
def readTcpMessage (H : Nat) (r : StreamReader) :
    Except PyError (Option (List UInt8)) × StreamReader :=
  let (data, r) := r.read H
  if data = [] then (.ok none, r)
  else match decodeMessageHeader H data with
    | .error e => (.error e, r)
    | .ok length =>
      let (body, r) := r.read (length - H)
      (.ok (some (data ++ body)), r)

theorem readTcpMessage_nil (H : Nat) : readTcpMessage H ⟨[], []⟩ = (.ok none, ⟨[], []⟩) := by
  simp [readTcpMessage]

/-- A stream that starts with a frame, read whole, gives that frame, and the bytes after it. -/
theorem readTcpMessage_whole {H : Nat} (hH : 4 ≤ H) (f : Frame H) (rest : List UInt8) :
    readTcpMessage H ⟨f.bytes ++ rest, []⟩ = (.ok (some f.bytes), ⟨rest, []⟩) := by
  have hn : ((f.bytes.length : Int) - H) = ((f.bytes.length - H : Nat) : Int) := by
    have := f.header_le; omega
  simp only [readTcpMessage, StreamReader.read_whole, if_neg (f.take_ne_nil hH rest),
    f.decode_take hH, hn, (f.split rest).1, (f.split rest).2]

/-- **A short read of a body truncates the frame.** When the header arrives whole but only
`k` bytes of a longer body have been delivered, `_read_tcp_message` returns the header and those
`k` bytes as the message, and leaves the rest of the body to be read as the next header. -/
theorem readTcpMessage_short_body {H : Nat} (hH : 4 ≤ H) (f : Frame H) (rest : List UInt8)
    {k : Nat} (hk : 0 < k) (hlt : H + k < f.bytes.length) :
    readTcpMessage H ⟨f.bytes ++ rest, [H, k]⟩ =
      (.ok (some (f.bytes.take (H + k))), ⟨f.bytes.drop (H + k) ++ rest, []⟩) := by
  have hl := f.header_le
  have hn : ((f.bytes.length : Int) - H) = ((f.bytes.length - H : Nat) : Int) := by omega
  have hd : k ≤ (f.bytes.drop H).length := by rw [List.length_drop]; omega
  simp only [readTcpMessage, StreamReader.read_chunk _ (by omega : 0 < H) (Nat.le_refl H),
    if_neg (f.take_ne_nil hH rest), f.decode_take hH, hn,
    StreamReader.read_chunk _ hk (by omega : k ≤ f.bytes.length - H)]
  rw [List.take_append_of_le_length hl, List.drop_append_of_le_length hl,
    List.take_append_of_le_length hd, List.drop_append_of_le_length hd, List.drop_drop,
    ← List.take_add]

/-! ## The reading loops -/

/-- The reads of the loop of `_handle_udp_data` or `_handle_tcp_connection`, by what each read
returns, for at most `fuel` messages: the loop stops after `None` and after an exception (an
`IOError` breaks it, and any other ends the handler). -/
def readMessages {σ : Type} (read : σ → Except PyError (Option (List UInt8)) × σ) :
    Nat → σ → List (Except PyError (Option (List UInt8)))
  | 0, _ => []
  | fuel + 1, s =>
    match read s with
    | (.ok (some raw), s) => .ok (some raw) :: readMessages read fuel s
    | (res, _) => [res]

/-- `_handle_udp_data`'s reads of a datagram. -/
def readUdpMessages (H fuel : Nat) (data : List UInt8) : List (Except PyError (Option (List UInt8))) :=
  readMessages (readUdpMessage H) fuel data

/-- `_handle_tcp_connection`'s reads of a stream. -/
def readTcpMessages (H fuel : Nat) (r : StreamReader) : List (Except PyError (Option (List UInt8))) :=
  readMessages (readTcpMessage H) fuel r

/-- A reader that gives back the frames it was made of, one per read, and then `None`, gives
them all and `None` to a loop with enough fuel. -/
theorem readMessages_frames {H : Nat} {σ : Type} (read : σ → Except PyError (Option (List UInt8)) × σ)
    (enc : List (Frame H) → σ)
    (hcons : ∀ f fs, read (enc (f :: fs)) = (.ok (some f.bytes), enc fs))
    (hnil : (read (enc [])).1 = .ok none) (fs : List (Frame H)) {fuel : Nat} (h : fs.length < fuel) :
    readMessages read fuel (enc fs) = fs.map (fun f => .ok (some f.bytes)) ++ [.ok none] := by
  induction fs generalizing fuel with
  | nil =>
    obtain ⟨fuel, rfl⟩ : ∃ n, fuel = n + 1 := ⟨fuel - 1, by simp at h; omega⟩
    simp only [readMessages]
    split <;> simp_all
  | cons f fs ih =>
    obtain ⟨fuel, rfl⟩ : ∃ n, fuel = n + 1 := ⟨fuel - 1, by simp at h; omega⟩
    simp only [readMessages, hcons, ih (show fs.length < fuel by simp at h; omega), List.map_cons,
      List.cons_append]

/-- **A datagram of frames is read back frame by frame**, and then `None`. -/
theorem readUdpMessages_frames {H : Nat} (hH : 4 ≤ H) (fs : List (Frame H)) {fuel : Nat}
    (h : fs.length < fuel) :
    readUdpMessages H fuel (Frame.join fs) = fs.map (fun f => .ok (some f.bytes)) ++ [.ok none] :=
  readMessages_frames (readUdpMessage H) Frame.join (fun f _ => readUdpMessage_frame hH f _)
    (congrArg Prod.fst (readUdpMessage_nil H)) fs h

/-- **A stream of frames whose reads all return whole is read back frame by frame**, and then
`None`. -/
theorem readTcpMessages_whole {H : Nat} (hH : 4 ≤ H) (fs : List (Frame H)) {fuel : Nat}
    (h : fs.length < fuel) :
    readTcpMessages H fuel ⟨Frame.join fs, []⟩ = fs.map (fun f => .ok (some f.bytes)) ++ [.ok none] :=
  readMessages_frames (readTcpMessage H) (fun fs => (⟨Frame.join fs, []⟩ : StreamReader))
    (fun f _ => readTcpMessage_whole hH f _) (congrArg Prod.fst (readTcpMessage_nil H)) fs h

/-- Two frames of eight bytes on one connection, whose reads all return whole, are read back as
they were written, then `None`. -/
theorem tcp_frames_whole :
    let f : Frame 6 := ⟨[8, 0, 0, 0, 1, 1, 0, 0], by decide, by decide⟩
    (4 ≤ 6 ∧ [f, f].length < 3) ∧
      readTcpMessages 6 3 ⟨Frame.join [f, f], []⟩ = [.ok (some f.bytes), .ok (some f.bytes), .ok none] :=
  ⟨⟨by decide, by decide⟩, readTcpMessages_whole (by decide) _ (by decide)⟩

/-- Two frames of eight bytes on one connection, whose second read gets one byte of a two-byte
body: the first message is cut short, and the second is read from the middle of the first. -/
theorem tcp_frames_split :
    let f : Frame 6 := ⟨[8, 0, 0, 0, 1, 1, 0, 0], by decide, by decide⟩
    readTcpMessages 6 3 ⟨Frame.join [f, f], [6, 1]⟩ =
      [.ok (some [8, 0, 0, 0, 1, 1, 0]), .ok (some [0, 8, 0, 0, 0, 1, 1, 0, 0]), .ok none] := by
  rfl

end Tattle
