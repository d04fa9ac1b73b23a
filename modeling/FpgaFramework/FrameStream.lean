/-
The wire format as a grammar of frames.  A reference parser states the format
without sockets; repeated `receive_message` calls give its frames for every way
the reads are cut, and give back what `send_message` was given.
-/
import FpgaFramework.Connection

namespace FpgaFramework

/-- One frame of the wire format, less the three bytes that carry nothing. -/
structure Frame where
  type : MessageType
  payloadSize : UInt32
  payload : List UInt8
deriving Repr, DecidableEq

def Message.frame (message : Message) : Frame :=
  ⟨message.header.type, message.header.payloadSize, message.payload⟩

def knownTypes : List MessageType := [.config, .configResp, .data]

/-- What a frame has to satisfy. -/
structure Frame.Valid (frame : Frame) : Prop where
  type_known : frame.type ∈ knownTypes
  size_pos : 0 < frame.payloadSize.toNat
  size_lt : frame.payloadSize.toNat + 8 < 2 ^ 32
  length_payload : frame.payload.length = frame.payloadSize.toNat

/-- The bytes of a frame around its three ignored bytes. -/
def Frame.encode (frame : Frame) (ignored : Vector UInt8 3) : List UInt8 :=
  (frame.type.byte :: ignored.toList ++ u32Bytes frame.payloadSize) ++
    frame.payload

/-- Why the reference parser stops. -/
inductive FrameError where
  | badHeader
  | oversized
  | truncated
deriving Repr, DecidableEq

/-- The error code a connection reports for it. -/
def FrameError.code : FrameError → ErrorCode
  | .badHeader => .fault
  | .oversized => .fault
  | .truncated => .eof

/-- The reference parser: one frame and the bytes behind it.  A refused frame
is consumed, a bad header only up to its end. -/
def parseFrame (bytes : List UInt8) : Except FrameError Frame × List UInt8 :=
  if bytes.length < 8 then (.error .truncated, [])
  else
    let type : MessageType := ⟨bytes.getD 0 0⟩
    let size := u32At bytes 4
    let body := bytes.drop 8
    if type ∉ knownTypes ∨ size.toNat = 0 then (.error .badHeader, body)
    else if body.length < size.toNat then (.error .truncated, [])
    else if 2 ^ 32 ≤ size.toNat + 8 then
      (.error .oversized, body.drop size.toNat)
    else (.ok ⟨type, size, body.take size.toNat⟩, body.drop size.toNat)

theorem getD_append_left {front bytes : List UInt8} (h : 0 < front.length) :
    (front ++ bytes).getD 0 0 = front.getD 0 0 := by
  simp [List.getD_eq_getElem?_getD, List.getElem?_append_left h]

theorem Header.isValid_iff (header : Header) :
    header.isValid = true ↔
      header.type ∈ knownTypes ∧ header.payloadSize.toNat ≠ 0 := by
  simp [Header.isValid, knownTypes, Nat.pos_iff_ne_zero, or_assoc]

/-- The parser on a stream whose first eight bytes are `head`. -/
theorem parseFrame_append (head body : List UInt8) (hhead : head.length = 8) :
    parseFrame (head ++ body) =
      if (Header.ofBytes head).isValid = false then (.error .badHeader, body)
      else
        let size := (Header.ofBytes head).payloadSize
        if body.length < size.toNat then (.error .truncated, [])
        else if 2 ^ 32 ≤ size.toNat + 8 then
          (.error .oversized, body.drop size.toNat)
        else (.ok ⟨(Header.ofBytes head).type, size, body.take size.toNat⟩,
          body.drop size.toNat) := by
  have hlong : ¬(head ++ body).length < 8 := by
    rw [List.length_append]
    omega
  have hdrop : (head ++ body).drop 8 = body := by
    rw [← hhead, List.drop_left]
  have hbad : ((Header.ofBytes head).isValid = false) =
      ((Header.ofBytes head).type ∉ knownTypes ∨
        (Header.ofBytes head).payloadSize.toNat = 0) := by
    rw [← Bool.not_eq_true, Header.isValid_iff, not_and_or, not_not]
  have htype : (head ++ body).getD 0 0 = head.getD 0 0 :=
    getD_append_left (by omega)
  have hsize : u32At (head ++ body) 4 = u32At head 4 :=
    u32At_append_left (by omega)
  simp only [parseFrame, hlong, ↓reduceIte, hdrop, hbad, htype, hsize]
  rfl

theorem Frame.encode_eq (frame : Frame) (ignored : Vector UInt8 3) :
    frame.encode ignored =
      (Header.mk frame.type ignored frame.payloadSize).asBytes ++
        frame.payload := rfl

/-- The reference parser accepts exactly the grammar: it returns a frame and the
rest of the stream if and only if the stream is that valid frame followed by
that rest. -/
theorem parseFrame_ok_iff (bytes : List UInt8) (frame : Frame)
    (rest : List UInt8) :
    parseFrame bytes = (.ok frame, rest) ↔
      frame.Valid ∧ ∃ ignored, bytes = frame.encode ignored ++ rest := by
  constructor
  · intro h
    by_cases hlong : bytes.length < 8
    · simp [parseFrame, hlong] at h
    · have hhead : (bytes.take 8).length = 8 := by
        rw [List.length_take]
        omega
      have hsplit := List.take_append_drop 8 bytes
      rw [← hsplit, parseFrame_append _ _ hhead] at h
      rw [← hsplit]
      generalize bytes.take 8 = head at hhead h
      generalize bytes.drop 8 = body at h
      by_cases hbad : (Header.ofBytes head).isValid = false
      · simp [hbad] at h
      · by_cases hshort : body.length < (Header.ofBytes head).payloadSize.toNat
        · simp [hbad, hshort] at h
        · by_cases hlarge :
              2 ^ 32 ≤ (Header.ofBytes head).payloadSize.toNat + 8
          · simp only [hbad, hshort, hlarge, ↓reduceIte] at h
            cases h
          · simp only [hbad, hshort, hlarge, ↓reduceIte] at h
            cases h
            rw [Bool.not_eq_false, Header.isValid_iff] at hbad
            refine ⟨⟨hbad.1, Nat.pos_of_ne_zero hbad.2,
              Nat.lt_of_not_le hlarge, ?_⟩, (Header.ofBytes head).reserved, ?_⟩
            · exact List.length_take_of_le (Nat.le_of_not_lt hshort)
            · rw [Frame.encode_eq, List.append_assoc, List.take_append_drop]
              exact congrArg (· ++ body) (Header.asBytes_ofBytes hhead).symm
  · rintro ⟨hvalid, ignored, rfl⟩
    have hsize := hvalid.length_payload
    have hlt := hvalid.size_lt
    rw [Frame.encode_eq, List.append_assoc,
      parseFrame_append _ _ (Header.length_asBytes _)]
    have hgood : (Header.ofBytes (Header.mk frame.type ignored
        frame.payloadSize).asBytes).isValid = true := by
      rw [Header.isValid_iff]
      exact ⟨by simpa using hvalid.type_known,
        by simpa using Nat.pos_iff_ne_zero.mp hvalid.size_pos⟩
    simp only [hgood, Header.ofBytes_asBytes_type,
      Header.ofBytes_asBytes_payloadSize, List.length_append, ← hsize,
      List.take_left, List.drop_left]
    rw [if_neg (by simp), if_neg (by omega), if_neg (by omega)]

theorem parseFrame_length {bytes rest : List UInt8} {frame : Frame}
    (h : parseFrame bytes = (.ok frame, rest)) : rest.length < bytes.length := by
  obtain ⟨_, ignored, rfl⟩ := (parseFrame_ok_iff bytes frame rest).mp h
  simp only [Frame.encode, List.length_append, List.length_cons]
  omega

/-- The frames of a byte stream, up to its first refused frame. -/
def frames : Source (List UInt8) FrameError Frame where
  next := parseFrame
  size := List.length
  size_next := parseFrame_length

theorem Inbound.receiveMessage_pending_lt {socket after : Inbound}
    {message : ValidMessage}
    (h : socket.receiveMessage = (.ok message, after)) :
    after.pending.length < socket.pending.length := by
  have hlength := Inbound.receiveMessage_length h
  simp only [sizeofHeader] at hlength
  omega

/-- Repeated `receive_message` calls on one connection. -/
def receiver : Source Inbound ErrorCode ValidMessage where
  next := Inbound.receiveMessage
  size socket := socket.pending.length
  size_next := Inbound.receiveMessage_pending_lt

/-- One call of `receive_message` is one step of the reference parser, however
its reads are cut. -/
theorem receiveMessage_parses (socket : Inbound) (hclean : socket.Clean) :
    SameAnswer (fun (socket : Inbound) bytes =>
        socket.Clean ∧ socket.pending = bytes)
      (fun ec (error : FrameError) => ec = error.code)
      (fun (message : ValidMessage) frame => message.1.frame = frame)
      socket.receiveMessage (parseFrame socket.pending) := by
  have hreceived := socket.receiveMessage_received
  generalize hanswer : socket.receiveMessage = answer at hreceived
  cases hreceived with
  | noHeader hscript hend =>
      obtain ⟨rfl, hshort, hnil⟩ := hend hclean
      have hparse : parseFrame socket.pending = (.error .truncated, []) := by
        simp only [sizeofHeader] at hshort
        rw [parseFrame, if_pos hshort]
      rw [hparse]
      exact .error rfl ⟨hclean.of_script_eq hscript, hnil⟩
  | badHeader hscript hhead hsplit hbad =>
      rw [hsplit, parseFrame_append _ _ hhead, if_pos hbad]
      exact .error rfl ⟨hclean.of_script_eq hscript, rfl⟩
  | noPayload hscript hhead hsplit hgood hend =>
      obtain ⟨rfl, hshort, hnil⟩ := hend hclean
      rw [hsplit, parseFrame_append _ _ hhead, if_neg (by simp [hgood]),
        if_pos hshort]
      exact .error rfl ⟨hclean.of_script_eq hscript, hnil⟩
  | oversized hscript hhead hsplit hgood hpayload hlarge =>
      simp only [sizeofHeader] at hlarge
      rw [hsplit, parseFrame_append _ _ hhead, if_neg (by simp [hgood]),
        if_neg (by rw [List.length_append]; omega), if_pos (by omega)]
      exact .error rfl ⟨hclean.of_script_eq hscript,
        by rw [← hpayload, List.drop_left]⟩
  | @message head message after hscript hhead hsplit htype hsize =>
      obtain ⟨hgood, hlength, hbound⟩ :=
        (Message.isValidMessage_iff message.1).mp message.2
      simp only [sizeofHeader] at hbound
      rw [Header.isValid_iff, htype, hsize, ← Header.isValid_iff] at hgood
      rw [hsize] at hlength hbound
      rw [hsplit, parseFrame_append _ _ hhead, if_neg (by simp [hgood]),
        if_neg (by rw [List.length_append]; omega), if_neg (by omega)]
      refine .ok ?_ ⟨hclean.of_script_eq hscript,
        by rw [← hlength, List.drop_left]⟩
      rw [← hlength, List.take_left, ← htype, ← hsize]
      rfl

/-- What one call does to the stream: a returned message is a valid frame whose
bytes, and no others, were consumed; an error is the reference parser's, with
its consumption. -/
def CallParses (socket : Inbound) :
    Except ErrorCode ValidMessage × Inbound → Prop
  | (.ok message, after) =>
      message.1.frame.Valid ∧ ∃ ignored,
        socket.pending = message.1.frame.encode ignored ++ after.pending
  | (.error ec, after) =>
      ∃ error : FrameError, ec = error.code ∧
        parseFrame socket.pending = (.error error, after.pending)

theorem receiveMessage_call (socket : Inbound) (hclean : socket.Clean) :
    CallParses socket socket.receiveMessage := by
  have hparses := receiveMessage_parses socket hclean
  generalize socket.receiveMessage = answer at hparses
  generalize hparsed : parseFrame socket.pending = parsed at hparses
  cases hparses with
  | @ok message frame after rest hframe hafter =>
      obtain ⟨_, rfl⟩ := hafter
      subst hframe
      exact (parseFrame_ok_iff _ _ _).mp hparsed
  | @error ec error after rest herror hafter =>
      obtain ⟨_, rfl⟩ := hafter
      exact ⟨error, herror, hparsed⟩

/-- Draining a connection is draining the reference parser. -/
theorem receiver_drain (stream : List UInt8) (cut : Nat → Nat)
    (memory : Nat → Message.Memory) :
    (receiver.drain (Inbound.ofStream stream cut memory)).items.map
        (fun message => message.1.frame) = (frames.drain stream).items ∧
      (receiver.drain (Inbound.ofStream stream cut memory)).error =
        (frames.drain stream).error.code ∧
      (receiver.drain (Inbound.ofStream stream cut memory)).state.pending =
        (frames.drain stream).state := by
  have hsim := Source.drain_simulates receiver frames
    (fun socket bytes => socket.Clean ∧ socket.pending = bytes)
    (fun ec error => ec = error.code)
    (fun message frame => message.1.frame = frame)
    (by
      rintro socket bytes ⟨hclean, rfl⟩
      exact receiveMessage_parses socket hclean)
    (Inbound.ofStream stream cut memory) stream
    ⟨Inbound.clean_ofStream stream cut memory, rfl⟩
  refine ⟨?_, hsim.2.1, hsim.2.2.2⟩
  rw [← List.forall₂_eq_eq_eq, List.forall₂_map_left_iff]
  exact hsim.1

/-- Framing: over a stream that arrives and is then closed, however the reads
are cut, repeated `receive_message` calls return exactly the frames of the
reference parser, then fail with the code of its error, having consumed what it
consumed; and each single call consumes exactly the frame it returns. -/
theorem receiveMessage_stream (stream : List UInt8) (cut : Nat → Nat)
    (memory : Nat → Message.Memory) :
    let received := receiver.drain (Inbound.ofStream stream cut memory)
    let parsed := frames.drain stream
    received.items.map (fun message => message.1.frame) = parsed.items ∧
      received.error = parsed.error.code ∧
      received.state.pending = parsed.state ∧
      ∀ socket : Inbound, socket.Clean →
        CallParses socket socket.receiveMessage := by
  obtain ⟨hitems, herror, hstate⟩ := receiver_drain stream cut memory
  exact ⟨hitems, herror, hstate, receiveMessage_call⟩

/-- `send_message` on each message of a list, each after the one before has
completed. -/
def Outbound.sendAll : List Message → Outbound →
    List (Option ErrorCode) × Outbound
  | [], socket => ([], socket)
  | message :: rest, socket =>
      let sent := socket.sendMessage message
      let others := sendAll rest sent.2
      (sent.1 :: others.1, others.2)

theorem Outbound.sendAll_spec (messages : List Message) (socket : Outbound)
    (hclean : socket.Clean) :
    (sendAll messages socket).1 = messages.map (fun message =>
        if message.isValidMessage then none else some .fault) ∧
      (sendAll messages socket).2.wire = socket.wire ++
        ((messages.filter Message.isValidMessage).map Message.asBytes).flatten := by
  induction messages generalizing socket with
  | nil => simp [sendAll]
  | cons message rest ih =>
      rcases socket.sendMessage_spec hclean message with
        ⟨hvalid, after, hrun, hafter, hwire⟩ | ⟨hvalid, hrun⟩
      · obtain ⟨hcodes, hrest⟩ := ih after hafter
        simp only [sendAll, hrun, hcodes, hrest, hwire, List.map_cons, hvalid,
          List.filter_cons_of_pos, List.flatten_cons, List.append_assoc,
          ↓reduceIte, and_self]
      · obtain ⟨hcodes, hrest⟩ := ih socket hclean
        constructor
        · simp [sendAll, hrun, hcodes, hvalid]
        · simp [sendAll, hrun, hrest, hvalid]

/-- A valid message on the wire is a valid frame with its reserved bytes. -/
theorem Message.frame_valid {message : Message}
    (h : message.isValidMessage = true) :
    message.frame.Valid ∧
      message.asBytes = message.frame.encode message.header.reserved := by
  obtain ⟨hgood, hlength, hbound⟩ := (isValidMessage_iff message).mp h
  rw [Header.isValid_iff] at hgood
  simp only [sizeofHeader] at hbound
  exact ⟨⟨hgood.1, Nat.pos_of_ne_zero hgood.2,
    by change message.header.payloadSize.toNat + 8 < 2 ^ 32; omega, hlength⟩, rfl⟩

/-- A valid message at the front of a clean stream is the next one received. -/
theorem receiveMessage_of_asBytes {message : Message}
    (hvalid : message.isValidMessage = true) {socket : Inbound}
    (hclean : socket.Clean) {rest : List UInt8}
    (hpending : socket.pending = message.asBytes ++ rest) :
    ∃ received after, socket.receiveMessage = (.ok received, after) ∧
      received.1.frame = message.frame ∧ after.pending = rest := by
  obtain ⟨hframe, hbytes⟩ := Message.frame_valid hvalid
  have hparsed : parseFrame socket.pending = (.ok message.frame, rest) := by
    rw [parseFrame_ok_iff]
    exact ⟨hframe, message.header.reserved, by rw [hpending, hbytes]⟩
  have hparses := receiveMessage_parses socket hclean
  rw [hparsed] at hparses
  generalize hanswer : socket.receiveMessage = answer at hparses
  cases hparses with
  | @ok received _ after _ hitem hafter =>
      exact ⟨received, after, rfl, hitem, hafter.2⟩

/-- Every valid message is received from some stream. -/
theorem receiveMessage_ofStream (message : Message)
    (hvalid : message.isValidMessage = true) (cut : Nat → Nat)
    (memory : Nat → Message.Memory) :
    ∃ received after,
      (Inbound.ofStream message.asBytes cut memory).receiveMessage =
          (.ok received, after) ∧
        received.1.frame = message.frame := by
  obtain ⟨received, after, hreceived, hframe, _⟩ := receiveMessage_of_asBytes
    hvalid (Inbound.clean_ofStream message.asBytes cut memory)
    (List.append_nil message.asBytes).symm
  exact ⟨received, after, hreceived, hframe⟩

/-- The reference parser gives back the frames of valid messages written one
after another, and then finds the stream at its end. -/
theorem frames_drain_flatten (messages : List Message)
    (hvalid : ∀ message ∈ messages, message.isValidMessage = true) :
    frames.drain (messages.map Message.asBytes).flatten =
      ⟨messages.map Message.frame, .truncated, []⟩ := by
  induction messages with
  | nil => exact frames.drain_of_error (by rfl)
  | cons message rest ih =>
      obtain ⟨hframe, hbytes⟩ :=
        Message.frame_valid (hvalid message List.mem_cons_self)
      have htail := ih fun other hother =>
        hvalid other (List.mem_cons_of_mem message hother)
      rw [List.map_cons, List.flatten_cons]
      rw [frames.drain_of_ok ((parseFrame_ok_iff _ message.frame _).mpr
        ⟨hframe, message.header.reserved, by rw [hbytes]⟩), htail]
      rfl

/-- Round trip: whatever is given to `send_message` one after another, and
however writes and reads are cut, the peer receives exactly the valid messages,
in order, and then finds the stream at its end; an invalid message is refused
without a byte. -/
theorem sendAll_receive (messages : List Message) (writeCut readCut : Nat → Nat)
    (memory : Nat → Message.Memory) :
    let sent := Outbound.sendAll messages (Outbound.ofCut writeCut)
    let received := receiver.drain (Inbound.ofStream sent.2.wire readCut memory)
    received.items.map (fun message => message.1.frame) =
        (messages.filter Message.isValidMessage).map Message.frame ∧
      received.error = .eof ∧ received.state.pending = [] ∧
      sent.1 = messages.map (fun message =>
        if message.isValidMessage then none else some .fault) ∧
      ∀ (socket : Outbound), ∀ message ∈ messages,
        message.isValidMessage = false →
          socket.sendMessage message = (some .fault, socket) := by
  have hsent := Outbound.sendAll_spec messages (Outbound.ofCut writeCut)
    (Outbound.clean_ofCut writeCut)
  have hstream := receiver_drain
    (Outbound.sendAll messages (Outbound.ofCut writeCut)).2.wire readCut memory
  have hparsed := frames_drain_flatten
    (messages.filter Message.isValidMessage) (fun message hmem =>
      (List.mem_filter.mp hmem).2)
  have hwire : (Outbound.sendAll messages (Outbound.ofCut writeCut)).2.wire =
      ((messages.filter Message.isValidMessage).map Message.asBytes).flatten :=
    hsent.2
  rw [← hwire] at hparsed
  simp only [hparsed] at hstream
  refine ⟨hstream.1, hstream.2.1, hstream.2.2, hsent.1, ?_⟩
  intro socket message _ hinvalid
  exact socket.sendMessage_invalid hinvalid

end FpgaFramework
