/-
The bench node.  Which configurations it takes, how it replies to an input, and
when its reply is what the server expects.
-/
import FpgaFramework.MessageData

namespace FpgaFramework

namespace BenchNode

open Message

/-- `send_config_response`. -/
def sendConfigResponse (memory : Memory) (con : Outbound)
    (status : ConfigRespStatus) : Option ErrorCode × Outbound :=
  con.sendMessage (newConfigResp memory status)

/-- `config_received`: whether the node goes on to its processing loop, and the
connection it leaves. -/
def configReceived (memory : Memory) (con : Outbound) (config : Message) :
    Bool × Outbound :=
  if config.inputSize < config.outputSize ∨ config.inputSize < 16 ∨
      config.numBlocks ≠ 0 ∨ config.getRbfSize ≠ 4 then
    (false, (sendConfigResponse memory con .error).2)
  else
    match sendConfigResponse memory con .success with
    | (some _, after) => (false, after)
    | (none, after) => (true, after)

/-- `memcpy(output->payload.as_data.data, input->payload.as_data.data, length)`;
`none` when either side leaves its block. -/
def copyData (output input : Message) (length : Nat) : Option Message :=
  (Buffer.read input.payload sizeofData length).bind fun bytes =>
    output.store sizeofData bytes

/-- The reply that `processing_loop` builds for an input.  `none` is a division by
zero or an access outside of a block. -/
def processInput (memory : Memory) (config input : Message) : Option Message := do
  let inputCount ← input.getDataBlockCount config.inputSize
  let output ← newData memory config.outputSize inputCount input.dataId
  copyData output input 8

/-- The inputs that `processing_loop` takes as valid, with the reply to each.  It
ends at the first error or invalid input, and where a reply cannot be built. -/
def processingLoop (config : Message) (memory : Nat → Memory) (inbound : Inbound)
    (outbound : Outbound) (messagesReceived : Nat) :
    List (ValidMessage × Option Message) :=
  match _h : inbound.receiveMessage with
  | (.error _, _) => []
  | (.ok input, after) =>
      if input.1.isValidData config.inputSize = some true then
        match processInput (memory messagesReceived) config input.1 with
        | none => [(input, none)]
        | some output =>
            match outbound.sendMessage output with
            | (some _, _) => [(input, some output)]
            | (none, sent) =>
                (input, some output) ::
                  processingLoop config memory after sent (messagesReceived + 1)
      else []
termination_by inbound.pending.length
decreasing_by exact Inbound.receiveMessage_pending_lt _h

/-- The reply is what the server expects for the input. -/
structure Answers (config input reply : Message) : Prop where
  id_eq : reply.dataId = input.dataId
  blocks : ∃ count, input.HoldsBlocks config.inputSize count ∧
    reply.HoldsBlocks config.outputSize count
  arrives : reply.Arrives fun received =>
    received.isValidData config.outputSize = some true ∧
      received.dataId = input.dataId
  copy_inside : 8 ≤ input.dataArea.length ∧ 8 ≤ reply.dataArea.length

/-- The node builds such a reply, whatever its memory held. -/
def IsAnswered (memory : Memory) (config input : Message) : Prop :=
  ∃ reply, processInput memory config input = some reply ∧
    Answers config input reply

/-- One block of output for each block of input makes at least eight bytes. -/
def HasRoom (config input : Message) : Prop :=
  8 * config.inputSize.toNat ≤
    config.outputSize.toNat * (input.header.payloadSize.toNat - sizeofData)

/-- The payload of a configuration of sixteen bytes in and sixteen bytes out. -/
def benchConfig : List UInt8 := sizesBytes 16 16 0 ++ [0, 0, 0, 0]

theorem sizes_of_configReceived {memory : Memory} {con : Outbound}
    {config : Message} (h : (configReceived memory con config).1 = true) :
    16 ≤ config.inputSize.toNat ∧
      config.outputSize.toNat ≤ config.inputSize.toNat := by
  rw [configReceived] at h
  split at h
  · cases h
  · next hchecks =>
      simp only [not_or, UInt32.lt_iff_toNat_lt, Nat.not_lt] at hchecks
      exact ⟨hchecks.2.1, hchecks.1⟩

/-- On a connection that does not fail the checks alone decide. -/
theorem configReceived_of_clean (memory : Memory) {con : Outbound}
    (hclean : con.Clean) {config : Message}
    (hchecks : ¬(config.inputSize < config.outputSize ∨ config.inputSize < 16 ∨
      config.numBlocks ≠ 0 ∨ config.getRbfSize ≠ 4)) :
    (configReceived memory con config).1 = true := by
  rw [configReceived, if_neg hchecks, sendConfigResponse]
  rcases con.sendMessage_spec hclean (newConfigResp memory .success) with
    ⟨_, after, hsend, _⟩ | ⟨hbad, _⟩
  · rw [hsend]
  · rw [newConfigResp_valid] at hbad
    cases hbad

/-- A copy that stays in both blocks replaces the front of the data. -/
theorem copyData_spec {output input : Message} {front rest : List UInt8}
    {length : Nat} (hpayload : output.payload = front ++ rest)
    (hfront : front.length = sizeofData)
    (hinput : sizeofData + length ≤ input.payload.length)
    (hroom : length ≤ rest.length) :
    ∃ copied, copyData output input length = some copied ∧
      copied.header = output.header ∧
      copied.payload.length = output.payload.length ∧
      ∃ copiedRest, copied.payload = front ++ copiedRest := by
  have hbytes : (input.dataArea.take length).length = length := by
    rw [List.length_take, dataArea, List.length_drop]
    omega
  obtain ⟨copied, hstore, hheader, hcopied⟩ := store_append hpayload
    (show (input.dataArea.take length).length ≤ _ by rw [hbytes]; exact hroom)
  rw [List.append_assoc] at hcopied
  refine ⟨copied, ?_, hheader, ?_, _, hcopied⟩
  · rw [copyData, Buffer.read_of_le hinput, Option.bind_some, ← hfront]
    rw [dataArea, ← hfront] at hstore
    exact hstore
  · rw [hcopied, hpayload, List.length_append, List.length_append,
      List.length_append, List.length_drop, hbytes]
    omega

/-- Where the size does not wrap, `new_data` makes a message of that size that
starts with the id. -/
theorem newData_exact (memory : Memory) {dataSize dataCount : UInt32}
    (id : UInt32) (h : dataBytes dataSize dataCount < 2 ^ 32) :
    ∃ message rest, newData memory dataSize dataCount id = some message ∧
      message.header = ⟨.data, reservedOf memory,
        UInt32.ofNat (dataBytes dataSize dataCount)⟩ ∧
      message.payload = u32Bytes id ++ rest ∧
      rest.length = dataSize.toNat * dataCount.toNat := by
  have hle := sizeofData_le_dataBytes dataSize dataCount
  rcases newData_spec memory dataSize dataCount id with
    ⟨hshort, _⟩ | ⟨_, message, hsome, hheader, hpayload⟩
  · rw [Nat.mod_eq_of_lt h] at hshort
    omega
  · rw [Nat.mod_eq_of_lt h] at hheader hpayload
    refine ⟨message, _, hsome, hheader, hpayload, ?_⟩
    rw [List.length_drop, payloadOf, List.length_map, List.length_range, dataBytes,
      Nat.add_sub_cancel_left]

/-- With room in both data areas the copy keeps the size, the blocks and the id of
what `new_data` has made. -/
theorem copyData_newData (memory : Memory) {dataSize dataCount : UInt32}
    (id : UInt32) {input : Message} (hinput : sizeofData + 8 ≤ input.payload.length)
    (hroom : 8 ≤ dataSize.toNat * dataCount.toNat)
    (hsmall : dataBytes dataSize dataCount + sizeofHeader < 2 ^ 32) :
    ∃ reply, ((newData memory dataSize dataCount id).bind fun output =>
        copyData output input 8) = some reply ∧
      reply.isValidMessage = true ∧ reply.HoldsBlocks dataSize dataCount.toNat ∧
      reply.dataId = id := by
  have hexact : dataBytes dataSize dataCount < 2 ^ 32 :=
    Nat.lt_of_le_of_lt (Nat.le_add_right _ _) hsmall
  obtain ⟨output, rest, hsome, hheader, hpayload, hrest⟩ :=
    newData_exact memory id hexact
  obtain ⟨reply, hreply, hsameHeader, hsameLength, replyRest, hreplyPayload⟩ :=
    copyData_spec hpayload (length_u32Bytes id) hinput (hrest ▸ hroom)
  have hlength : reply.payload.length = dataBytes dataSize dataCount := by
    rw [hsameLength, hpayload, List.length_append, hrest]
    rfl
  have hpos : 0 < dataBytes dataSize dataCount :=
    Nat.lt_of_lt_of_le (by decide) (sizeofData_le_dataBytes _ _)
  rw [hheader] at hsameHeader
  refine ⟨reply, ?_, ?_, ?_, ?_⟩
  · rw [hsome, Option.bind_some]
    exact hreply
  · exact (isValidMessage_allocated (by decide) hpos hsameHeader hlength).mpr hsmall
  · constructor
    · rw [hsameHeader]
    · rw [hsameHeader, UInt32.toNat_ofNat', Nat.mod_eq_of_lt hexact, dataBytes,
        Nat.mul_comm]
  · rw [dataId, hreplyPayload, u32At_u32Bytes_append]

/-- Whole blocks are received as whole blocks, with their id. -/
theorem arrives_of_holdsBlocks {message : Message} {dataBlockSize : UInt32}
    {count : Nat} (hvalid : message.isValidMessage = true)
    (hholds : message.HoldsBlocks dataBlockSize count) (hsize : dataBlockSize ≠ 0) :
    message.Arrives fun received =>
      received.isValidData dataBlockSize = some true ∧
        received.dataId = message.dataId := by
  apply arrives_of_valid hvalid
  intro received hframe
  have htype : received.1.header.type = message.header.type :=
    congrArg Frame.type hframe
  have hpayloadSize : received.1.header.payloadSize = message.header.payloadSize :=
    congrArg Frame.payloadSize hframe
  have hpayload : received.1.payload = message.payload :=
    congrArg Frame.payload hframe
  have hreceived : received.1.HoldsBlocks dataBlockSize count := by
    constructor
    · rw [htype]
      exact hholds.type_eq
    · rw [hpayloadSize]
      exact hholds.size_eq
  constructor
  · exact hreceived.accepted received hsize
  · rw [dataId, hpayload]
    rfl

theorem ne_zero_of_toNat_pos {size : UInt32} (h : 0 < size.toNat) : size ≠ 0 := by
  rintro rfl
  exact Nat.lt_irrefl 0 h

/-- A valid input with room has whole blocks, and enough of them. -/
theorem HasRoom.holdsBlocks {config : Message} {input : ValidMessage}
    (hroom : HasRoom config input.1) (hpos : 0 < config.inputSize.toNat)
    (hvalid : input.1.isValidData config.inputSize = some true) :
    ∃ count, input.1.HoldsBlocks config.inputSize count ∧
      8 ≤ config.outputSize.toNat * count := by
  have hzero := ne_zero_of_toNat_pos hpos
  obtain ⟨htype, hdvd⟩ := (isValidData_iff input hzero).mp hvalid
  rw [HasRoom] at hroom
  -- Without room for the id there are no blocks, whatever the data size wraps to.
  have hid : sizeofData ≤ input.1.header.payloadSize.toNat := by
    by_contra hshort
    rw [Nat.sub_eq_zero_of_le (by omega), Nat.mul_zero] at hroom
    omega
  rw [getDataSize_of_le hid] at hdvd
  obtain ⟨count, hcount⟩ := hdvd
  rw [hcount, Nat.mul_left_comm, Nat.mul_comm 8] at hroom
  refine ⟨count, ⟨htype, ?_⟩, Nat.le_of_mul_le_mul_left hroom hpos⟩
  rw [Nat.mul_comm]
  omega

/-- An input with room is answered: the sizes that were checked leave a product that
cannot wrap. -/
theorem isAnswered_of_hasRoom (memory : Memory) {config : Message}
    (input : ValidMessage) (hin : 16 ≤ config.inputSize.toNat)
    (hout : config.outputSize.toNat ≤ config.inputSize.toNat)
    (hvalid : input.1.isValidData config.inputSize = some true)
    (hroom : HasRoom config input.1) : IsAnswered memory config input.1 := by
  obtain ⟨_, hlength, hbound⟩ := (isValidMessage_iff input.1).mp input.2
  obtain ⟨count, hholds, height⟩ := hroom.holdsBlocks (by omega) hvalid
  have hless : config.outputSize.toNat * count ≤
      count * config.inputSize.toNat := by
    rw [Nat.mul_comm count]
    exact Nat.mul_le_mul_right count hout
  have hzero : config.inputSize ≠ 0 := ne_zero_of_toNat_pos (by omega)
  obtain ⟨counted, hcounted, hsame⟩ := (hholds.counts input hzero).count_eq
  rw [← hsame] at height hless
  rw [hholds.size_eq, ← hsame] at hlength hbound
  obtain ⟨reply, hreply, hreplyValid, hreplyHolds, hreplyId⟩ :=
    copyData_newData memory input.1.dataId (show _ ≤ input.1.payload.length by omega)
      height
      (by rw [dataBytes]; omega)
  have houtput : config.outputSize ≠ 0 := by
    apply ne_zero_of_toNat_pos
    apply Nat.pos_of_mul_pos_right (b := counted.toNat)
    omega
  have harrives := arrives_of_holdsBlocks hreplyValid hreplyHolds houtput
  rw [hreplyId] at harrives
  have hreplyLength := ((isValidMessage_iff reply).mp hreplyValid).2.1
  rw [hreplyHolds.size_eq, Nat.mul_comm] at hreplyLength
  refine ⟨reply, ?_, hreplyId, ⟨counted.toNat, hsame ▸ hholds, hreplyHolds⟩, harrives,
    ?_, ?_⟩
  · rw [processInput, hcounted]
    exact hreply
  · rw [dataArea, List.length_drop]
    omega
  · rw [dataArea, List.length_drop]
    omega

/-- An answer has room. -/
theorem Answers.hasRoom {config input reply : Message}
    (h : Answers config input reply) : HasRoom config input := by
  obtain ⟨count, hinput, hreply⟩ := h.blocks
  have hlength := ((isValidMessage_iff reply).mp h.arrives.isValidMessage).2.1
  have harea := h.copy_inside.2
  rw [dataArea, List.length_drop, hlength, hreply.size_eq,
    Nat.add_sub_cancel_left] at harea
  rw [HasRoom, hinput.size_eq, Nat.add_sub_cancel_left, ← Nat.mul_assoc,
    Nat.mul_comm config.outputSize.toNat]
  exact Nat.mul_le_mul_right _ harea

/-- Under a configuration that was accepted the reply to a valid input is what the
server expects exactly when the input's blocks make eight bytes of output. -/
theorem isAnswered_iff (memory : Memory) (con : Outbound) (config : ValidMessage)
    (haccepted : (configReceived memory con config.1).1 = true)
    (input : ValidMessage)
    (hinput : input.1.isValidData config.1.inputSize = some true)
    (memory' : Memory) :
    IsAnswered memory' config.1 input.1 ↔ HasRoom config.1 input.1 := by
  obtain ⟨hin, hout⟩ := sizes_of_configReceived haccepted
  constructor
  · rintro ⟨reply, _, hanswers⟩
    exact hanswers.hasRoom
  · exact isAnswered_of_hasRoom memory' input hin hout hinput

/-- A block of sixteen bytes for a block of sixteen bytes. -/
theorem isAnswered_sixteen :
    IsAnswered (fun _ => 0) (ofPayload .config benchConfig)
        (ofPayload .data (u32Bytes 7 ++ List.replicate 16 0)) ↔
      HasRoom (ofPayload .config benchConfig)
        (ofPayload .data (u32Bytes 7 ++ List.replicate 16 0)) :=
  isAnswered_iff (fun _ => 0) (Outbound.ofCut fun _ => 1)
    ⟨ofPayload .config benchConfig, rfl⟩
    (configReceived_of_clean _ (Outbound.clean_ofCut fun _ => 1) (by decide))
    ⟨ofPayload .data (u32Bytes 7 ++ List.replicate 16 0), rfl⟩ (by decide)
    (fun _ => 0)

/-- An input without blocks is valid, and the copy leaves both messages. -/
theorem isAnswered_noBlocks :
    ∃ config input : ValidMessage, config.1.isValidConfig = true ∧
      (configReceived (fun _ => 0) (Outbound.ofCut fun _ => 1) config.1).1 = true ∧
      input.1.isValidData config.1.inputSize = some true ∧
      processInput (fun _ => 0) config.1 input.1 = none ∧
      ¬IsAnswered (fun _ => 0) config.1 input.1 := by
  have hnone : processInput (fun _ => 0) (ofPayload .config benchConfig)
      (ofPayload .data (u32Bytes 7)) = none := by
    rfl
  refine ⟨⟨ofPayload .config benchConfig, rfl⟩, ⟨ofPayload .data (u32Bytes 7), rfl⟩,
    rfl, ?_, by decide, hnone, ?_⟩
  · exact configReceived_of_clean _ (Outbound.clean_ofCut fun _ => 1) (by decide)
  · rintro ⟨reply, hreply, _⟩
    rw [hnone] at hreply
    cases hreply

/-- What the loop puts beside an input it took is the reply it built for it. -/
theorem mem_processingLoop {config : Message} {memory : Nat → Memory}
    (inbound : Inbound) (outbound : Outbound) (messagesReceived : Nat) :
    ∀ exchange ∈ processingLoop config memory inbound outbound messagesReceived,
      exchange.1.1.isValidData config.inputSize = some true ∧
        ∃ index, exchange.2 = processInput (memory index) config exchange.1.1 := by
  fun_induction processingLoop config memory inbound outbound messagesReceived with
  | case1 =>
      intro exchange hmem
      cases hmem
  | case2 _ _ messagesReceived input _ _ hvalid hbuilt =>
      intro exchange hmem
      rw [List.mem_singleton.mp hmem]
      exact ⟨hvalid, messagesReceived, hbuilt.symm⟩
  | case3 _ _ messagesReceived input _ _ hvalid output hbuilt =>
      intro exchange hmem
      rw [List.mem_singleton.mp hmem]
      exact ⟨hvalid, messagesReceived, hbuilt.symm⟩
  | case4 _ _ messagesReceived input _ _ hvalid output hbuilt _ _ ih =>
      intro exchange hmem
      rcases List.mem_cons.mp hmem with rfl | hrest
      · exact ⟨hvalid, messagesReceived, hbuilt.symm⟩
      · exact ih exchange hrest
  | case5 =>
      intro exchange hmem
      cases hmem

/-- Over a whole run of the loop each input with room gets its answer. -/
theorem processingLoop_answers {memory : Memory} {con : Outbound} {config : Message}
    (haccepted : (configReceived memory con config).1 = true)
    (replies : Nat → Memory) (inbound : Inbound) (outbound : Outbound) :
    ∀ exchange ∈ processingLoop config replies inbound outbound 0,
      HasRoom config exchange.1.1 →
        ∃ reply, exchange.2 = some reply ∧ Answers config exchange.1.1 reply := by
  obtain ⟨hin, hout⟩ := sizes_of_configReceived haccepted
  intro exchange hmem hroom
  obtain ⟨hvalid, index, hbuilt⟩ := mem_processingLoop inbound outbound 0 exchange hmem
  obtain ⟨reply, hreply, hanswers⟩ :=
    isAnswered_of_hasRoom (replies index) exchange.1 hin hout hvalid hroom
  exact ⟨reply, hbuilt.trans hreply, hanswers⟩

end BenchNode

end FpgaFramework
