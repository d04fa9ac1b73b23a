/-
Messages and the memory they are allocated in.  Every way to come by a message
that is sent, compared over two runs that differ in what the allocated blocks
held before.
-/
import FpgaFramework.MessageData

namespace FpgaFramework

namespace Inbound

/-- The same connection over other memory. -/
def withMemory (socket : Inbound) (memory : Nat → Message.Memory) : Inbound :=
  { socket with memory := memory }

theorem asyncReadSome_withMemory (socket : Inbound)
    (memory : Nat → Message.Memory) (length : Nat) :
    (socket.withMemory memory).asyncReadSome length =
      ((socket.asyncReadSome length).1,
        (socket.asyncReadSome length).2.withMemory memory) := by
  cases hscript : socket.script socket.reads with
  | error ec => simp only [asyncReadSome, withMemory, hscript]
  | ok wish =>
      simp only [asyncReadSome, withMemory, hscript]
      by_cases h : 0 < socket.pending.length
      · simp only [h, ↓reduceDIte]
      · simp only [h, ↓reduceDIte]

/-- Reading does not look at the memory. -/
theorem readExactly_withMemory (length : Nat) (socket : Inbound)
    (memory : Nat → Message.Memory) :
    (socket.withMemory memory).readExactly length =
      ((socket.readExactly length).1,
        (socket.readExactly length).2.withMemory memory) := by
  induction length using Nat.strong_induction_on generalizing socket with
  | h length ih =>
      rw [readExactly, asyncReadSome_withMemory, readExactly]
      generalize socket.asyncReadSome length = answer
      obtain ⟨answer, middle⟩ := answer
      cases answer with
      | error ec => rfl
      | ok piece =>
          by_cases hshort : piece.1.length < length
          · have hpos := piece.2.2 (by omega)
            have hrest := ih (length - piece.1.length) (by omega) middle
            simp only [hshort, ↓reduceDIte, hrest]
            generalize middle.readExactly (length - piece.1.length) = last
            obtain ⟨last, after⟩ := last
            cases last with
            | error ec => rfl
            | ok rest => rfl
          · simp only [hshort, ↓reduceDIte]

/-- A message that is received is received over any memory, with the same type,
size and payload; its reserved bytes are those of the block allocated for it. -/
theorem receiveMessage_withMemory {socket after : Inbound}
    {message : ValidMessage}
    (h : socket.receiveMessage = (.ok message, after)) :
    ∃ block, ∀ memory, ∃ received last,
      (socket.withMemory memory).receiveMessage = (.ok received, last) ∧
        received.1.frame = message.1.frame ∧
        received.1.header.reserved = Message.reservedOf (memory block) := by
  rw [receiveMessage] at h
  generalize hread : socket.readExactly sizeofHeader = answer at h
  obtain ⟨answer, middle⟩ := answer
  cases answer with
  | error ec => cases h
  | ok bytes =>
      refine ⟨middle.allocs, fun memory => ?_⟩
      have hreread := readExactly_withMemory sizeofHeader socket memory
      rw [hread] at hreread
      rw [receiveMessage, hreread]
      cases hgood : (Header.ofBytes bytes.1).isValid with
      | false =>
          simp only [hgood] at h
          cases h
      | true =>
          simp only [hgood, ↓reduceIte] at h ⊢
          have hbody := readExactly_withMemory
            (Header.ofBytes bytes.1).payloadSize.toNat
            (middle.newMessage (Header.ofBytes bytes.1).payloadSize).2 memory
          change ((middle.withMemory memory).newMessage
            (Header.ofBytes bytes.1).payloadSize).2.readExactly _ = _ at hbody
          rw [hbody]
          generalize (middle.newMessage
            (Header.ofBytes bytes.1).payloadSize).2.readExactly _ = answer at h ⊢
          obtain ⟨answer, last⟩ := answer
          cases answer with
          | error ec => cases h
          | ok payload =>
              dsimp only at h ⊢
              split at h
              · next hvalid =>
                  cases h
                  refine ⟨_, _, dif_pos ?_, rfl, rfl⟩
                  rw [Message.isValidMessage_iff] at hvalid ⊢
                  exact hvalid
              · cases h

end Inbound

namespace Message

/-- The caller of `new_data` writes its whole data area. -/
def fillData (message : Message) (contents : Nat → UInt8) : Option Message :=
  message.store sizeofData ((List.range message.dataArea.length).map contents)

/-- The message that `new_data` returns where its payload is shorter than the id:
the block holds the first bytes of the id, the others are stored behind it. -/
def shortData (memory : Memory) (size : Nat) (id : UInt32) : Message where
  allocSize := sizeofAllocInfo + sizeofHeader + ((u32Bytes id).take size).length
  header := ⟨.data, reservedOf memory, UInt32.ofNat size⟩
  payload := (u32Bytes id).take size
  alloc_eq := rfl

/-- What the caller of `new_data` sends when it has filled the data area, which is
empty in a short message. -/
def filledData (memory : Memory) (dataSize dataCount id : UInt32)
    (contents : Nat → UInt8) : Option Message :=
  match newData memory dataSize dataCount id with
  | some message => message.fillData contents
  | none => some (shortData memory (dataPayloadSize dataSize dataCount).toNat id)

/-- Where a message that is sent comes from, with everything it is made of. -/
inductive Origin where
  | config (blocks : List BlockInfo) (inputSize outputSize : UInt32)
      (rbfData : List UInt8) (rbfSize : UInt32)
      (hdata : rbfData.length = rbfSize.toNat)
  | configResp (status : ConfigRespStatus)
  | data (dataSize dataCount id : UInt32) (contents : Nat → UInt8)
  | received (socket : Inbound) (message : ValidMessage) (after : Inbound)
      (hreceived : socket.receiveMessage = (.ok message, after))

namespace Origin

/-- The message made over memory whose blocks held `memory` before; `none` where
the loop counter of `new_config` overflows, and where nothing is received. -/
def build (origin : Origin) (memory : Nat → Memory) : Option Message :=
  match origin with
  | .config blocks inputSize outputSize rbfData rbfSize _ =>
      newConfig (memory 0) blocks inputSize outputSize (some rbfData) rbfSize
  | .configResp status => some (newConfigResp (memory 0) status)
  | .data dataSize dataCount id contents =>
      filledData (memory 0) dataSize dataCount id contents
  | .received socket _ _ _ =>
      match (socket.withMemory memory).receiveMessage.1 with
      | .ok message => some message.1
      | .error _ => none

/-- What `send_message` returns and the connection it leaves. -/
def send (origin : Origin) (memory : Nat → Memory) (outbound : Outbound) :
    Option (Option ErrorCode × Outbound) :=
  (origin.build memory).map outbound.sendMessage

/-- Whatever the memory held before, the same is sent. -/
def IndependentOfMemory (origin : Origin) : Prop :=
  ∀ memory memory' outbound,
    origin.send memory outbound = origin.send memory' outbound

/-- The arguments for which there is a message that can be sent. -/
def Sendable : Origin → Prop
  | .config blocks _ _ _ rbfSize _ =>
      blocks.length < 2 ^ 31 ∧ configSize blocks rbfSize + sizeofHeader < 2 ^ 32
  | .configResp _ => True
  | .data dataSize dataCount _ _ =>
      0 < dataBytes dataSize dataCount % 2 ^ 32 ∧
        dataBytes dataSize dataCount % 2 ^ 32 + sizeofHeader < 2 ^ 32
  | .received _ _ _ _ => True

/-- A message that can be sent is, up to its reserved bytes, a function of what
it is made of; the reserved bytes are those of its block. -/
structure Determined (origin : Origin) (frame : Frame) (block : Nat)
    (memory : Nat → Memory) (message : Message) : Prop where
  build_eq : origin.build memory = some message
  valid : message.isValidMessage = true
  frame_eq : message.frame = frame
  reserved_eq : message.header.reserved = reservedOf (memory block)

theorem determined_config (blocks : List BlockInfo)
    (inputSize outputSize : UInt32) (rbfData : List UInt8) (rbfSize : UInt32)
    (hdata : rbfData.length = rbfSize.toNat) (hblocks : blocks.length < 2 ^ 31)
    (hsmall : configSize blocks rbfSize + sizeofHeader < 2 ^ 32)
    (memory : Nat → Memory) :
    ∃ message,
      Determined (.config blocks inputSize outputSize rbfData rbfSize hdata)
        ⟨.config, UInt32.ofNat (configSize blocks rbfSize),
          configBytes blocks inputSize outputSize rbfData⟩ 0 memory message := by
  obtain ⟨config, hconfig, hheader, hlength, hpayload⟩ := newConfig_spec
    (memory 0) blocks inputSize outputSize (some rbfData) hblocks hdata
  have hpos : 0 < configSize blocks rbfSize := by
    simp only [configSize, sizeofConfig]
    omega
  have hrecords : blocks.length * sizeofBlockInfo < 2 ^ 32 := by
    simp only [configSize] at hsmall
    omega
  refine ⟨config, hconfig, ?_, ?_, ?_⟩
  · exact (isValidMessage_allocated (by decide) hpos hheader hlength).mpr hsmall
  · rw [Message.frame, hheader, hpayload hrecords]
    rfl
  · rw [hheader]

/-- The payload that is sent for these arguments of `new_data`. -/
def filledBytes (dataSize dataCount id : UInt32) (contents : Nat → UInt8) :
    List UInt8 :=
  (u32Bytes id).take (dataBytes dataSize dataCount % 2 ^ 32) ++
    (List.range (dataBytes dataSize dataCount % 2 ^ 32 - sizeofData)).map contents

theorem length_filledBytes (dataSize dataCount id : UInt32)
    (contents : Nat → UInt8) :
    (filledBytes dataSize dataCount id contents).length =
      dataBytes dataSize dataCount % 2 ^ 32 := by
  simp only [filledBytes, List.length_append, List.length_take, List.length_map,
    List.length_range, length_u32Bytes, sizeofData]
  omega

/-- The caller's bytes fill the message that `new_data` made. -/
theorem fillData_eq {memory : Memory} {dataSize dataCount id : UInt32}
    (contents : Nat → UInt8) {empty : Message}
    (hroom : sizeofData ≤ dataBytes dataSize dataCount % 2 ^ 32)
    (hpayload : empty.payload = u32Bytes id ++ (payloadOf memory
      (dataBytes dataSize dataCount % 2 ^ 32)).drop sizeofData) :
    ∃ message, empty.fillData contents = some message ∧
      message.header = empty.header ∧
        message.payload = filledBytes dataSize dataCount id contents := by
  have harea : empty.dataArea.length =
      dataBytes dataSize dataCount % 2 ^ 32 - sizeofData := by
    rw [dataArea, hpayload]
    simp [sizeofData, payloadOf]
  have hrest : ((payloadOf memory
      (dataBytes dataSize dataCount % 2 ^ 32)).drop sizeofData).length =
      dataBytes dataSize dataCount % 2 ^ 32 - sizeofData := by
    simp [payloadOf]
  obtain ⟨message, hstore, hsame, hfilled⟩ := store_append hpayload
    (show ((List.range (dataBytes dataSize dataCount % 2 ^ 32 -
        sizeofData)).map contents).length ≤ _ by
      rw [hrest, List.length_map, List.length_range])
  have hwhole : (u32Bytes id).take (dataBytes dataSize dataCount % 2 ^ 32) =
      u32Bytes id := by
    apply List.take_of_length_le
    rw [length_u32Bytes]
    exact hroom
  refine ⟨message, ?_, hsame, ?_⟩
  · rw [fillData, harea]
    exact hstore
  · rw [hfilled, List.length_map, List.length_range, ← hrest, List.drop_length,
      List.append_nil, hrest, filledBytes, hwhole]

theorem filledData_spec (memory : Memory) (dataSize dataCount id : UInt32)
    (contents : Nat → UInt8) :
    ∃ message, filledData memory dataSize dataCount id contents = some message ∧
      message.header = ⟨.data, reservedOf memory,
        UInt32.ofNat (dataBytes dataSize dataCount % 2 ^ 32)⟩ ∧
      message.payload = filledBytes dataSize dataCount id contents := by
  rcases newData_spec memory dataSize dataCount id with
    ⟨hshort, hnone⟩ | ⟨hroom, empty, hempty, hheader, hpayload⟩
  · refine ⟨_, by rw [filledData, hnone], ?_, ?_⟩
    · simp only [shortData, toNat_dataPayloadSize]
    · simp only [shortData, toNat_dataPayloadSize, filledBytes,
        Nat.sub_eq_zero_of_le hshort.le, List.range_zero, List.map_nil,
        List.append_nil]
  · obtain ⟨message, hfill, hsame, hfilled⟩ :=
      fillData_eq contents hroom hpayload
    refine ⟨message, ?_, hsame.trans hheader, hfilled⟩
    rw [filledData, hempty]
    exact hfill

theorem determined_data (dataSize dataCount id : UInt32)
    (contents : Nat → UInt8)
    (hpos : 0 < dataBytes dataSize dataCount % 2 ^ 32)
    (hsmall : dataBytes dataSize dataCount % 2 ^ 32 + sizeofHeader < 2 ^ 32)
    (memory : Nat → Memory) :
    ∃ message, Determined (.data dataSize dataCount id contents)
      ⟨.data, UInt32.ofNat (dataBytes dataSize dataCount % 2 ^ 32),
        filledBytes dataSize dataCount id contents⟩ 0 memory message := by
  obtain ⟨message, hbuild, hheader, hpayload⟩ :=
    filledData_spec (memory 0) dataSize dataCount id contents
  have hlength : message.payload.length =
      dataBytes dataSize dataCount % 2 ^ 32 := by
    rw [hpayload, length_filledBytes]
  refine ⟨message, hbuild, ?_, ?_, ?_⟩
  · exact (isValidMessage_allocated (by decide) hpos hheader hlength).mpr hsmall
  · rw [Message.frame, hheader, hpayload]
  · rw [hheader]

/-- Whatever can be sent is determined by what it is made of, but for the bytes
that are not written. -/
theorem Sendable.determined {origin : Origin} (h : origin.Sendable) :
    ∃ frame block, ∀ memory, ∃ message,
      Determined origin frame block memory message := by
  cases origin with
  | config blocks inputSize outputSize rbfData rbfSize hdata =>
      exact ⟨_, 0, determined_config blocks inputSize outputSize rbfData rbfSize
        hdata h.1 h.2⟩
  | configResp status =>
      refine ⟨⟨.configResp, UInt32.ofNat sizeofConfigResp, [status.byte]⟩, 0,
        fun memory => ⟨newConfigResp (memory 0) status, rfl, ?_, rfl, rfl⟩⟩
      exact newConfigResp_valid (memory 0) status
  | data dataSize dataCount id contents =>
      exact ⟨_, 0, determined_data dataSize dataCount id contents h.1 h.2⟩
  | received socket message after hreceived =>
      obtain ⟨block, hblock⟩ := Inbound.receiveMessage_withMemory hreceived
      refine ⟨message.1.frame, block, fun memory => ?_⟩
      obtain ⟨received, last, hagain, hframe, hreserved⟩ := hblock memory
      refine ⟨received.1, ?_, received.2, hframe, hreserved⟩
      rw [build, hagain]

/-- On a connection that does not fail a determined message goes out whole. -/
theorem Determined.send_eq {origin : Origin} {frame : Frame} {block : Nat}
    {memory : Nat → Memory} {message : Message}
    (h : Determined origin frame block memory message) {outbound : Outbound}
    (hclean : outbound.Clean) :
    ∃ after, origin.send memory outbound = some (none, after) ∧
      after.wire = outbound.wire ++ message.asBytes := by
  rcases outbound.sendMessage_spec hclean message with
    ⟨_, after, hsend, _, hwire⟩ | ⟨hbad, _⟩
  · refine ⟨after, ?_, hwire⟩
    rw [send, h.build_eq, Option.map_some, hsend]
  · rw [h.valid] at hbad
    cases hbad

theorem send_of_none {origin : Origin} {memory : Nat → Memory}
    (hbuild : origin.build memory = none) (outbound : Outbound) :
    origin.send memory outbound = none := by
  rw [send, hbuild, Option.map_none]

/-- A block without a payload, or whose size leaves no room for the header, is
refused. -/
theorem send_of_refused (origin : Origin) {memory : Nat → Memory}
    {message : Message} {type : MessageType} {size : Nat}
    (hbuild : origin.build memory = some message) (htype : type ∈ knownTypes)
    (hheader : message.header =
      ⟨type, reservedOf (memory 0), UInt32.ofNat size⟩)
    (hlength : message.payload.length = size)
    (hbad : ¬(0 < size ∧ size + sizeofHeader < 2 ^ 32)) (outbound : Outbound) :
    origin.send memory outbound = some (some .fault, outbound) := by
  have hrefused : message.isValidMessage = false := by
    rw [← Bool.not_eq_true]
    by_cases hpos : 0 < size
    · rw [isValidMessage_allocated htype hpos hheader hlength]
      exact fun hsmall => hbad ⟨hpos, hsmall⟩
    · rw [isValidMessage_iff, Header.isValid_iff, hheader,
        Nat.eq_zero_of_not_pos hpos]
      exact fun hvalid => hvalid.1.2 rfl
  rw [send, hbuild, Option.map_some, outbound.sendMessage_invalid hrefused]

/-- Where there is no message to send, nothing depends on the memory. -/
theorem send_of_not_sendable {origin : Origin} (h : ¬origin.Sendable) :
    ∃ outcome : Option ErrorCode, ∀ memory outbound,
      origin.send memory outbound =
        outcome.map fun ec => (some ec, outbound) := by
  cases origin with
  | config blocks inputSize outputSize rbfData rbfSize hdata =>
      by_cases hblocks : blocks.length < 2 ^ 31
      · refine ⟨some .fault, fun memory outbound => ?_⟩
        obtain ⟨config, hconfig, hheader, hlength, _⟩ := newConfig_spec
          (memory 0) blocks inputSize outputSize (some rbfData) hblocks hdata
        exact send_of_refused
          (.config blocks inputSize outputSize rbfData rbfSize hdata)
          hconfig (by decide) hheader hlength
          (fun hgood => h ⟨hblocks, hgood.2⟩) outbound
      · refine ⟨none, fun memory outbound => send_of_none ?_ outbound⟩
        exact newConfig_overflow _ _ _ _ _ _ (Nat.le_of_not_lt hblocks)
  | configResp status => exact absurd True.intro h
  | data dataSize dataCount id contents =>
      refine ⟨some .fault, fun memory outbound => ?_⟩
      obtain ⟨message, hbuild, hheader, hpayload⟩ :=
        filledData_spec (memory 0) dataSize dataCount id contents
      have hlength : message.payload.length =
          dataBytes dataSize dataCount % 2 ^ 32 := by
        rw [hpayload, length_filledBytes]
      exact send_of_refused (.data dataSize dataCount id contents) hbuild
        (by decide) hheader hlength h outbound
  | received socket message after hreceived => exact absurd True.intro h

/-- The reserved bytes can be read off the bytes of a message. -/
theorem reserved_of_asBytes {first second : Message}
    (h : first.asBytes = second.asBytes) :
    first.header.reserved = second.header.reserved := by
  have hheaders : first.header.asBytes = second.header.asBytes := by
    refine (List.append_inj h ?_).1
    rw [Header.length_asBytes, Header.length_asBytes]
  have hrest := (List.cons.inj hheaders).2
  apply Vector.toList_inj.mp
  refine (List.append_inj hrest ?_).1
  rw [Vector.length_toList, Vector.length_toList]

/-- The three reserved bytes of a header go out as the memory held them. -/
theorem Sendable.not_independent {origin : Origin} (h : origin.Sendable) :
    ¬origin.IndependentOfMemory := by
  intro hsame
  obtain ⟨frame, block, hdetermined⟩ := h.determined
  obtain ⟨zeros, hzeros⟩ := hdetermined fun _ _ => 0
  obtain ⟨ones, hones⟩ := hdetermined fun _ _ => 1
  have hclean := Outbound.clean_ofCut fun _ => 1
  obtain ⟨first, hfirst, hzeroWire⟩ := hzeros.send_eq hclean
  obtain ⟨second, hsecond, honeWire⟩ := hones.send_eq hclean
  have hsends := hsame (fun _ _ => 0) (fun _ _ => 1) (Outbound.ofCut fun _ => 1)
  rw [hfirst, hsecond, Option.some.injEq, Prod.mk.injEq] at hsends
  rw [hsends.2, honeWire] at hzeroWire
  have hreserved := reserved_of_asBytes (List.append_cancel_left hzeroWire)
  rw [hzeros.reserved_eq, hones.reserved_eq] at hreserved
  have hbyte := congrArg (fun reserved => reserved[0]) hreserved
  simp [reservedOf] at hbyte

/-- What `send_message` writes depends on the memory exactly when it writes
anything. -/
theorem independentOfMemory_iff (origin : Origin) :
    origin.IndependentOfMemory ↔ ¬origin.Sendable := by
  constructor
  · intro hsame hsendable
    exact hsendable.not_independent hsame
  · intro hnot memory memory' outbound
    obtain ⟨outcome, hsend⟩ := send_of_not_sendable hnot
    rw [hsend memory outbound, hsend memory' outbound]

/-- The memory shows already in the configuration response. -/
theorem configResp_not_independent :
    ¬(Origin.configResp .success).IndependentOfMemory :=
  Sendable.not_independent True.intro

end Origin

end Message

end FpgaFramework
