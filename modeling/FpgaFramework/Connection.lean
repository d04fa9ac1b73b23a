/-
One connection.  The two transfer loops over a socket that cuts every
transfer as it likes, and the message calls built on them.
-/
import FpgaFramework.Message

namespace FpgaFramework

/-- `boost::system::error_code`, when it is set. -/
inductive ErrorCode where
  | eof
  | fault
  | other (value : Nat)
deriving Repr, DecidableEq

/-- The number of bytes one transfer call moves: what the socket would like,
but at least one byte and at most what is asked for and there. -/
def pieceLength (wish length available : Nat) : Nat :=
  min (max 1 wish) (min length available)

theorem pieceLength_pos {wish length available : Nat} (hlength : 0 < length)
    (havailable : 0 < available) : 0 < pieceLength wish length available := by
  simp only [pieceLength]
  omega

theorem pieceLength_le_length (wish length available : Nat) :
    pieceLength wish length available ≤ length := by
  simp only [pieceLength]
  omega

/-- The receiving direction.  `pending` is what the peer sent before it closed
and is not yet read, `script` answers each `async_read_some` call, and `memory`
is what each allocated block held before. -/
structure Inbound where
  pending : List UInt8
  script : Nat → Except ErrorCode Nat
  reads : Nat
  memory : Nat → Message.Memory
  allocs : Nat

/-- The sending direction: `wire` is what the peer has been sent so far. -/
structure Outbound where
  wire : List UInt8
  script : Nat → Except ErrorCode Nat
  writes : Nat

/-- A byte stream that arrives whole and is then closed. -/
def Inbound.ofStream (stream : List UInt8) (cut : Nat → Nat)
    (memory : Nat → Message.Memory) : Inbound :=
  ⟨stream, fun i => .ok (cut i), 0, memory, 0⟩

/-- A fresh socket whose writes do not fail. -/
def Outbound.ofCut (cut : Nat → Nat) : Outbound :=
  ⟨[], fun i => .ok (cut i), 0⟩

/-- What one `async_read_some` into a buffer of `length` bytes can deliver. -/
abbrev Piece (length : Nat) :=
  { bytes : List UInt8 // bytes.length ≤ length ∧ (0 < length → 0 < bytes.length) }

/-- `_sock.async_read_some(asio::buffer(buf, length))`. -/
def Inbound.asyncReadSome (socket : Inbound) (length : Nat) :
    Except ErrorCode (Piece length) × Inbound :=
  match socket.script socket.reads with
  | .error ec => (.error ec, { socket with reads := socket.reads + 1 })
  | .ok wish =>
      if h : 0 < socket.pending.length then
        let count := pieceLength wish length socket.pending.length
        (.ok ⟨socket.pending.take count, by
            have hle := pieceLength_le_length wish length socket.pending.length
            refine ⟨(List.length_take_le _ _).trans hle, fun hlength => ?_⟩
            rw [List.length_take]
            exact lt_min (pieceLength_pos hlength h) h⟩,
          { socket with
            pending := socket.pending.drop count
            reads := socket.reads + 1 })
      else (.error .eof, { socket with reads := socket.reads + 1 })

/-- `_read_exactly`. -/
def Inbound.readExactly (socket : Inbound) (length : Nat) :
    Except ErrorCode { bytes : List UInt8 // bytes.length = length } × Inbound :=
  match socket.asyncReadSome length with
  | (.error ec, after) => (.error ec, after)
  | (.ok piece, after) =>
      if h : piece.1.length < length then
        match after.readExactly (length - piece.1.length) with
        | (.error ec, last) => (.error ec, last)
        | (.ok rest, last) =>
            (.ok ⟨piece.1 ++ rest.1, by
              rw [List.length_append, rest.2]
              omega⟩, last)
      else (.ok ⟨piece.1, by have := piece.2.1; omega⟩, after)
termination_by length
decreasing_by
  have := piece.2.2 (by omega)
  omega

/-- `new_message` on this connection's heap. -/
def Inbound.newMessage (socket : Inbound) (payloadSize : UInt32) :
    Message × Inbound :=
  (Message.newMessage (socket.memory socket.allocs) payloadSize,
    { socket with allocs := socket.allocs + 1 })

/-- `Connection::receive_message`. -/
def Inbound.receiveMessage (socket : Inbound) :
    Except ErrorCode ValidMessage × Inbound :=
  match socket.readExactly sizeofHeader with
  | (.error ec, after) => (.error ec, after)
  | (.ok bytes, after) =>
      let header := Header.ofBytes bytes.1
      if header.isValid then
        let allocated := after.newMessage header.payloadSize
        match allocated.2.readExactly header.payloadSize.toNat with
        | (.error ec, last) => (.error ec, last)
        | (.ok payload, last) =>
            let message := allocated.1.fill header.type payload.1 (by
              rw [payload.2]
              simp [allocated, Inbound.newMessage, Message.newMessage,
                Message.payloadOf])
            if h : message.isValidMessage = true then (.ok ⟨message, h⟩, last)
            else (.error .fault, last)
      else (.error .fault, after)

/-- `_sock.async_write_some(asio::buffer(buf, length))`, which returns the
number of bytes sent. -/
def Outbound.asyncWriteSome (socket : Outbound) (buf : List UInt8)
    (length : Nat) :
    Except ErrorCode { count : Nat // count ≤ length ∧ (0 < length → 0 < count) } ×
      Outbound :=
  match socket.script socket.writes with
  | .error ec => (.error ec, { socket with writes := socket.writes + 1 })
  | .ok wish =>
      let count := pieceLength wish length length
      (.ok ⟨count, pieceLength_le_length wish length length,
          fun hlength => pieceLength_pos hlength hlength⟩,
        { socket with
          wire := socket.wire ++ buf.take count
          writes := socket.writes + 1 })

/-- `_write_exactly`; `none` is success. -/
def Outbound.writeExactly (socket : Outbound) (buf : List UInt8)
    (length : Nat) : Option ErrorCode × Outbound :=
  match socket.asyncWriteSome buf length with
  | (.error ec, after) => (some ec, after)
  | (.ok sent, after) =>
      if sent.1 < length then
        after.writeExactly (buf.drop sent.1) (length - sent.1)
      else (none, after)
termination_by length
decreasing_by
  have := sent.2.2 (by omega)
  omega

/-- `Connection::send_message`. -/
def Outbound.sendMessage (socket : Outbound) (message : Message) :
    Option ErrorCode × Outbound :=
  if message.isValidMessage then
    socket.writeExactly message.asBytes message.getMessageSize.toNat
  else (some .fault, socket)

/-! Transfers over a socket whose script never answers with an error. -/

def Inbound.Clean (socket : Inbound) : Prop :=
  ∀ i, ∃ wish, socket.script i = .ok wish

def Outbound.Clean (socket : Outbound) : Prop :=
  ∀ i, ∃ wish, socket.script i = .ok wish

theorem Inbound.clean_ofStream (stream : List UInt8) (cut : Nat → Nat)
    (memory : Nat → Message.Memory) : (ofStream stream cut memory).Clean :=
  fun i => ⟨cut i, rfl⟩

theorem Outbound.clean_ofCut (cut : Nat → Nat) : (ofCut cut).Clean :=
  fun i => ⟨cut i, rfl⟩

/-- A read either fails, on a clean socket only because the stream is finished,
or takes a piece off the front of the stream. -/
theorem Inbound.asyncReadSome_spec (socket : Inbound) (length : Nat) :
    ∃ answer after, socket.asyncReadSome length = (answer, after) ∧
      after.script = socket.script ∧
      ((∃ ec, answer = .error ec ∧
          (socket.Clean → ec = .eof ∧ socket.pending = [] ∧ after.pending = [])) ∨
        ∃ piece : Piece length, answer = .ok piece ∧
          socket.pending = piece.1 ++ after.pending) := by
  cases hscript : socket.script socket.reads with
  | error ec =>
      rw [asyncReadSome, hscript]
      refine ⟨_, _, rfl, rfl, Or.inl ⟨ec, rfl, fun hclean => ?_⟩⟩
      obtain ⟨wish, hwish⟩ := hclean socket.reads
      rw [hscript] at hwish
      cases hwish
  | ok wish =>
      rw [asyncReadSome, hscript]
      by_cases h : 0 < socket.pending.length
      · simp only [h, ↓reduceDIte]
        refine ⟨_, _, rfl, rfl, Or.inr ⟨_, rfl, ?_⟩⟩
        exact (List.take_append_drop _ _).symm
      · have hnil : socket.pending = [] :=
          List.length_eq_zero_iff.mp (Nat.eq_zero_of_not_pos h)
        simp only [h, ↓reduceDIte]
        exact ⟨_, _, rfl, rfl, Or.inl ⟨.eof, rfl, fun _ => ⟨rfl, hnil, hnil⟩⟩⟩

theorem Inbound.Clean.of_script_eq {socket after : Inbound}
    (hclean : socket.Clean) (hscript : after.script = socket.script) :
    after.Clean := by
  intro i
  rw [hscript]
  exact hclean i

/-- However the reads are cut, `_read_exactly` takes exactly `length` bytes off
the stream; on a clean socket it fails only when the stream is shorter, having
used it up. -/
theorem Inbound.readExactly_spec (length : Nat) (hlength : 0 < length)
    (socket : Inbound) :
    ∃ answer after, socket.readExactly length = (answer, after) ∧
      after.script = socket.script ∧
      ((∃ ec, answer = .error ec ∧ (socket.Clean →
          ec = .eof ∧ socket.pending.length < length ∧ after.pending = [])) ∨
        ∃ bytes, answer = .ok bytes ∧
          socket.pending = bytes.1 ++ after.pending) := by
  induction length using Nat.strong_induction_on generalizing socket with
  | h length ih =>
      obtain ⟨answer, middle, hread, hmiddle, hcase⟩ :=
        socket.asyncReadSome_spec length
      rw [readExactly, hread]
      rcases hcase with ⟨ec, rfl, hend⟩ | ⟨piece, rfl, hsplit⟩
      · refine ⟨_, _, rfl, hmiddle, Or.inl ⟨ec, rfl, fun hclean => ?_⟩⟩
        obtain ⟨heof, hnil, hlast⟩ := hend hclean
        exact ⟨heof, by simp [hnil, hlength], hlast⟩
      · have hpos := piece.2.2 hlength
        by_cases hshort : piece.1.length < length
        · obtain ⟨rest, after, hrest, hafter, htail⟩ :=
            ih (length - piece.1.length) (by omega) (by omega) middle
          simp only [hshort, ↓reduceDIte, hrest]
          rcases htail with ⟨ec, rfl, hend⟩ | ⟨bytes, rfl, hbytes⟩
          · refine ⟨_, _, rfl, hafter.trans hmiddle,
              Or.inl ⟨ec, rfl, fun hclean => ?_⟩⟩
            obtain ⟨heof, hless, hlast⟩ := hend (hclean.of_script_eq hmiddle)
            refine ⟨heof, ?_, hlast⟩
            rw [hsplit, List.length_append]
            omega
          · refine ⟨_, _, rfl, hafter.trans hmiddle, Or.inr ⟨_, rfl, ?_⟩⟩
            rw [hsplit, hbytes, List.append_assoc]
        · simp only [hshort, ↓reduceDIte]
          exact ⟨_, _, rfl, hmiddle, Or.inr ⟨_, rfl, hsplit⟩⟩

/-- A clean write appends a piece of the buffer. -/
theorem Outbound.asyncWriteSome_spec (socket : Outbound)
    (hclean : socket.Clean) (buf : List UInt8) (length : Nat) :
    ∃ sent after, socket.asyncWriteSome buf length = (.ok sent, after) ∧
      after.Clean ∧ after.wire = socket.wire ++ buf.take sent.1 := by
  obtain ⟨wish, hwish⟩ := hclean socket.writes
  rw [asyncWriteSome, hwish]
  exact ⟨_, _, rfl, fun i => hclean i, rfl⟩

/-- However the writes are cut, `_write_exactly` appends exactly the first
`length` bytes of the buffer. -/
theorem Outbound.writeExactly_spec (length : Nat) (buf : List UInt8)
    (socket : Outbound) (hclean : socket.Clean) :
    ∃ after, socket.writeExactly buf length = (none, after) ∧ after.Clean ∧
      after.wire = socket.wire ++ buf.take length := by
  induction length using Nat.strong_induction_on generalizing socket buf with
  | h length ih =>
      obtain ⟨sent, middle, hwrite, hmiddle, hwire⟩ :=
        socket.asyncWriteSome_spec hclean buf length
      have hle := sent.2.1
      rw [writeExactly, hwrite]
      by_cases hshort : sent.1 < length
      · have hpos := sent.2.2 (by omega)
        obtain ⟨after, hrun, hafter, htail⟩ :=
          ih (length - sent.1) (by omega) (buf.drop sent.1) middle hmiddle
        simp only [hshort, ↓reduceIte]
        refine ⟨after, hrun, hafter, ?_⟩
        rw [htail, hwire, List.append_assoc, ← List.take_add,
          Nat.add_sub_cancel' hle]
      · have heq : sent.1 = length := by omega
        simp only [hshort, ↓reduceIte]
        exact ⟨_, rfl, hmiddle, by rw [hwire, heq]⟩

/-- The five ways in which `receive_message` can end, with the part of the
stream that each consumes. -/
inductive Received (socket : Inbound) :
    Except ErrorCode ValidMessage × Inbound → Prop
  | noHeader {ec : ErrorCode} {after : Inbound}
      (hscript : after.script = socket.script)
      (hend : socket.Clean → ec = .eof ∧
        socket.pending.length < sizeofHeader ∧ after.pending = []) :
      Received socket (.error ec, after)
  | badHeader {head : List UInt8} {after : Inbound}
      (hscript : after.script = socket.script)
      (hhead : head.length = sizeofHeader)
      (hsplit : socket.pending = head ++ after.pending)
      (hbad : (Header.ofBytes head).isValid = false) :
      Received socket (.error .fault, after)
  | noPayload {head body : List UInt8} {ec : ErrorCode} {after : Inbound}
      (hscript : after.script = socket.script)
      (hhead : head.length = sizeofHeader)
      (hsplit : socket.pending = head ++ body)
      (hgood : (Header.ofBytes head).isValid = true)
      (hend : socket.Clean → ec = .eof ∧
        body.length < (Header.ofBytes head).payloadSize.toNat ∧
          after.pending = []) :
      Received socket (.error ec, after)
  | oversized {head payload : List UInt8} {after : Inbound}
      (hscript : after.script = socket.script)
      (hhead : head.length = sizeofHeader)
      (hsplit : socket.pending = head ++ (payload ++ after.pending))
      (hgood : (Header.ofBytes head).isValid = true)
      (hpayload : payload.length = (Header.ofBytes head).payloadSize.toNat)
      (hlarge : 2 ^ 32 ≤ sizeofHeader + payload.length) :
      Received socket (.error .fault, after)
  | message {head : List UInt8} {message : ValidMessage} {after : Inbound}
      (hscript : after.script = socket.script)
      (hhead : head.length = sizeofHeader)
      (hsplit : socket.pending = head ++ (message.1.payload ++ after.pending))
      (htype : message.1.header.type = (Header.ofBytes head).type)
      (hsize : message.1.header.payloadSize = (Header.ofBytes head).payloadSize) :
      Received socket (.ok message, after)

theorem Header.payloadSize_pos_of_isValid {header : Header}
    (h : header.isValid = true) : 0 < header.payloadSize.toNat := by
  simp only [Header.isValid, Bool.and_eq_true, decide_eq_true_eq] at h
  exact h.2

theorem Inbound.receiveMessage_received (socket : Inbound) :
    Received socket socket.receiveMessage := by
  obtain ⟨answer, middle, hread, hmiddle, hcase⟩ :=
    readExactly_spec sizeofHeader (by decide) socket
  rw [receiveMessage, hread]
  rcases hcase with ⟨ec, rfl, hend⟩ | ⟨head, rfl, hsplit⟩
  · exact Received.noHeader hmiddle hend
  · cases hgood : (Header.ofBytes head.1).isValid with
    | false =>
        simp only [hgood]
        exact Received.badHeader hmiddle head.2 hsplit hgood
    | true =>
        have hpos := Header.payloadSize_pos_of_isValid hgood
        obtain ⟨answer, after, hbody, hafter, hcase⟩ := readExactly_spec
          (Header.ofBytes head.1).payloadSize.toNat hpos
          (middle.newMessage (Header.ofBytes head.1).payloadSize).2
        have hscript : after.script = socket.script := hafter.trans hmiddle
        simp only [hgood, ↓reduceIte, hbody]
        rcases hcase with ⟨ec, rfl, hend⟩ | ⟨payload, rfl, hpayload⟩
        · exact Received.noPayload hscript head.2 hsplit hgood
            fun hclean => hend (hclean.of_script_eq hmiddle)
        · have hwhole : socket.pending =
              head.1 ++ (payload.1 ++ after.pending) := by
            rw [hsplit]
            exact congrArg (head.1 ++ ·) hpayload
          dsimp only
          split
          · exact Received.message hscript head.2 hwhole rfl rfl
          · next hinvalid =>
              apply Received.oversized hscript head.2 hwhole hgood payload.2
              by_contra hsmall
              apply hinvalid
              rw [Message.isValidMessage_iff]
              refine ⟨hgood, payload.2, ?_⟩
              have hlength := payload.2
              change sizeofHeader + (Header.ofBytes head.1).payloadSize.toNat <
                2 ^ 32
              omega

/-- A call that returns a message has consumed its header and payload. -/
theorem Inbound.receiveMessage_length {socket after : Inbound}
    {message : ValidMessage}
    (h : socket.receiveMessage = (.ok message, after)) :
    socket.pending.length =
      sizeofHeader + message.1.payload.length + after.pending.length := by
  have hreceived := socket.receiveMessage_received
  rw [h] at hreceived
  cases hreceived with
  | message _ hhead hsplit _ _ =>
      rw [hsplit, List.length_append, List.length_append, hhead, Nat.add_assoc]

/-- An invalid message is refused whatever the socket does. -/
theorem Outbound.sendMessage_invalid (socket : Outbound) {message : Message}
    (h : message.isValidMessage = false) :
    socket.sendMessage message = (some .fault, socket) := by
  simp [sendMessage, h]

/-- `send_message` puts a valid message on the wire whole, and refuses any other
message without writing a byte. -/
theorem Outbound.sendMessage_spec (socket : Outbound) (hclean : socket.Clean)
    (message : Message) :
    (message.isValidMessage = true ∧
        ∃ after, socket.sendMessage message = (none, after) ∧ after.Clean ∧
          after.wire = socket.wire ++ message.asBytes) ∨
      (message.isValidMessage = false ∧
        socket.sendMessage message = (some .fault, socket)) := by
  cases hvalid : message.isValidMessage with
  | true =>
      obtain ⟨after, hrun, hafter, hwire⟩ := writeExactly_spec
        message.getMessageSize.toNat message.asBytes socket hclean
      refine Or.inl ⟨rfl, after, by rw [sendMessage, if_pos hvalid, hrun],
        hafter, ?_⟩
      rw [hwire, Message.getMessageSize_of_valid hvalid, List.take_length]
  | false => exact Or.inr ⟨rfl, socket.sendMessage_invalid hvalid⟩

end FpgaFramework
