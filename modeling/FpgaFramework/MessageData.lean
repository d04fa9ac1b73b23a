/-
Data messages.  Which payloads `is_valid_data` takes for whole blocks, and how
much room `new_data` makes, both with 32-bit sizes that wrap.
-/
import FpgaFramework.MessageConfig

namespace FpgaFramework

namespace Message

/-- `payload_u::data_s::id`. -/
def dataId (message : Message) : UInt32 := u32At message.payload 0

/-- `payload_u::data_s::data`, as far as the block reaches. -/
def dataArea (message : Message) : List UInt8 := message.payload.drop sizeofData

/-- `message_s::get_data_block_count`; `none` is its division by zero. -/
def getDataBlockCount (message : Message) (dataBlockSize : UInt32) :
    Option UInt32 :=
  if dataBlockSize = 0 then none else some (message.getDataSize / dataBlockSize)

/-- The `uint32_t payload_size` of `new_data`. -/
def dataPayloadSize (dataSize dataCount : UInt32) : UInt32 :=
  UInt32.ofNat sizeofData + dataSize * dataCount

/-- `message_s::new_data`: the allocation follows from the 32-bit size.  `none`
is the store of the id behind the end of the block. -/
def newData (memory : Memory) (dataSize dataCount id : UInt32) :
    Option Message :=
  (allocate memory .data (dataPayloadSize dataSize dataCount).toNat).store 0
    (u32Bytes id)

theorem toNat_getDataSize (message : Message) :
    message.getDataSize.toNat =
      (2 ^ 32 - sizeofData + message.header.payloadSize.toNat) % 2 ^ 32 := by
  rw [getDataSize, UInt32.toNat_sub]
  rfl

theorem getDataSize_of_le {message : Message}
    (h : sizeofData ≤ message.header.payloadSize.toNat) :
    message.getDataSize.toNat =
      message.header.payloadSize.toNat - sizeofData := by
  have hlt := message.header.payloadSize.toNat_lt
  rw [toNat_getDataSize]
  simp only [sizeofData] at h ⊢
  omega

/-- A payload without room for the id counts as almost 2^32 bytes of data. -/
theorem getDataSize_of_lt {message : Message}
    (h : message.header.payloadSize.toNat < sizeofData) :
    message.getDataSize.toNat =
      2 ^ 32 + message.header.payloadSize.toNat - sizeofData := by
  rw [toNat_getDataSize]
  simp only [sizeofData] at h ⊢
  omega

/-- The check of `is_valid_data` on a received message, in exact arithmetic. -/
theorem isValidData_iff (message : ValidMessage) {dataBlockSize : UInt32}
    (hsize : dataBlockSize ≠ 0) :
    message.1.isValidData dataBlockSize = some true ↔
      message.1.header.type = .data ∧
        dataBlockSize.toNat ∣ message.1.getDataSize.toNat := by
  rw [Nat.dvd_iff_mod_eq_zero, ← UInt32.toNat_mod]
  by_cases htype : message.1.header.type = .data
  · simp [isValidData, message.2, htype, hsize, ← UInt32.toNat_inj]
  · simp [isValidData, message.2, htype]

/-- A DATA message whose payload is the id and `count` blocks of data. -/
structure HoldsBlocks (message : Message) (dataBlockSize : UInt32)
    (count : Nat) : Prop where
  type_eq : message.header.type = .data
  size_eq : message.header.payloadSize.toNat =
    sizeofData + count * dataBlockSize.toNat

/-- What the accessors say about `count` blocks, and that the blocks are in the
allocated payload. -/
structure CountsBlocks (message : Message) (dataBlockSize : UInt32)
    (count : Nat) : Prop where
  size_eq : message.getDataSize.toNat = count * dataBlockSize.toNat
  count_eq : ∃ counted, message.getDataBlockCount dataBlockSize = some counted ∧
    counted.toNat = count
  inside : ∀ index < count, (Buffer.read message.dataArea
    (index * dataBlockSize.toNat) dataBlockSize.toNat).isSome

/-- `is_valid_data` accepts exactly the messages that hold whole blocks, and the
accessors agree with it. -/
def AcceptsWholeBlocks (message : Message) (dataBlockSize : UInt32) : Prop :=
  (message.isValidData dataBlockSize = some true ↔
      ∃ count, message.HoldsBlocks dataBlockSize count) ∧
    ∀ count, message.HoldsBlocks dataBlockSize count →
      message.CountsBlocks dataBlockSize count

theorem HoldsBlocks.accepted (message : ValidMessage) {dataBlockSize : UInt32}
    {count : Nat} (h : message.1.HoldsBlocks dataBlockSize count)
    (hsize : dataBlockSize ≠ 0) :
    message.1.isValidData dataBlockSize = some true := by
  have hle : sizeofData ≤ message.1.header.payloadSize.toNat := by
    rw [h.size_eq]
    exact Nat.le_add_right _ _
  rw [isValidData_iff message hsize, getDataSize_of_le hle, h.size_eq,
    Nat.add_sub_cancel_left]
  exact ⟨h.type_eq, Nat.dvd_mul_left _ _⟩

theorem HoldsBlocks.counts (message : ValidMessage) {dataBlockSize : UInt32}
    {count : Nat} (h : message.1.HoldsBlocks dataBlockSize count)
    (hsize : dataBlockSize ≠ 0) :
    message.1.CountsBlocks dataBlockSize count := by
  have hlength := ((isValidMessage_iff message.1).mp message.2).2.1
  have hle : sizeofData ≤ message.1.header.payloadSize.toNat := by
    rw [h.size_eq]
    exact Nat.le_add_right _ _
  have hdata : message.1.getDataSize.toNat = count * dataBlockSize.toNat := by
    rw [getDataSize_of_le hle, h.size_eq, Nat.add_sub_cancel_left]
  constructor
  · exact hdata
  · refine ⟨_, if_neg hsize, ?_⟩
    rw [UInt32.toNat_div, hdata]
    apply Nat.mul_div_cancel
    apply Nat.pos_of_ne_zero
    intro hzero
    exact hsize (UInt32.toNat_inj.mp hzero)
  · intro index hindex
    have hstop := record_stop_le hindex dataBlockSize.toNat
    rw [Buffer.read_isSome_iff, dataArea, List.length_drop, hlength, h.size_eq]
    omega

/-- A received message is taken for whole blocks wrongly exactly when it is a
DATA message too short for its id and the block size divides the data size that
the subtraction wraps to. -/
theorem acceptsWholeBlocks_iff (message : ValidMessage) (dataBlockSize : UInt32)
    (hsize : dataBlockSize ≠ 0) :
    message.1.AcceptsWholeBlocks dataBlockSize ↔
      ¬(message.1.header.type = .data ∧
        message.1.header.payloadSize.toNat < sizeofData ∧
          dataBlockSize.toNat ∣
            2 ^ 32 + message.1.header.payloadSize.toNat - sizeofData) := by
  constructor
  · rintro ⟨hiff, _⟩ ⟨htype, hshort, hdvd⟩
    rw [← getDataSize_of_lt hshort] at hdvd
    obtain ⟨count, hholds⟩ :=
      hiff.mp ((isValidData_iff message hsize).mpr ⟨htype, hdvd⟩)
    have hexact := hholds.size_eq
    omega
  · intro hnot
    refine ⟨⟨fun haccept => ?_, ?_⟩, fun count hholds => hholds.counts message hsize⟩
    · obtain ⟨htype, hdvd⟩ := (isValidData_iff message hsize).mp haccept
      by_cases hshort : message.1.header.payloadSize.toNat < sizeofData
      · rw [getDataSize_of_lt hshort] at hdvd
        exact absurd ⟨htype, hshort, hdvd⟩ hnot
      · rw [getDataSize_of_le (Nat.le_of_not_lt hshort)] at hdvd
        obtain ⟨count, hcount⟩ := hdvd
        refine ⟨count, htype, ?_⟩
        rw [Nat.mul_comm]
        omega
    · rintro ⟨count, hholds⟩
      exact hholds.accepted message hsize

/-- A DATA message with a single payload byte is received, and taken for a whole
number of one-byte blocks. -/
theorem isValidData_short :
    ∃ message after,
      (Inbound.ofStream (ofPayload .data [7]).asBytes (fun _ => 1)
          (fun _ _ => 0)).receiveMessage = (.ok message, after) ∧
        message.1.isValidData 1 = some true ∧
        ¬message.1.AcceptsWholeBlocks 1 := by
  obtain ⟨message, after, hreceived, hframe⟩ := receiveMessage_ofStream
    (ofPayload .data [7]) (by rfl) (fun _ => 1) (fun _ _ => 0)
  have htype : message.1.header.type = .data := congrArg Frame.type hframe
  have hsize : message.1.header.payloadSize = 1 :=
    congrArg Frame.payloadSize hframe
  have haccept : message.1.isValidData 1 = some true := by
    rw [isValidData_iff message (by decide)]
    exact ⟨htype, Nat.one_dvd _⟩
  refine ⟨message, after, hreceived, haccept, ?_⟩
  rintro ⟨hiff, _⟩
  obtain ⟨count, hholds⟩ := hiff.mp haccept
  have hexact := hholds.size_eq
  rw [hsize] at hexact
  change 1 = 4 + count * 1 at hexact
  omega

theorem acceptsWholeBlocks_data :
    (ValidMessage.data 7).1.AcceptsWholeBlocks 1 ↔
      ¬((ValidMessage.data 7).1.header.type = .data ∧
        (ValidMessage.data 7).1.header.payloadSize.toNat < sizeofData ∧
          (1 : UInt32).toNat ∣ 2 ^ 32 +
            (ValidMessage.data 7).1.header.payloadSize.toNat - sizeofData) :=
  acceptsWholeBlocks_iff (ValidMessage.data 7) 1 (by decide)

/-- The bytes that a caller of `new_data` asks room for, and the id before
them. -/
def dataBytes (dataSize dataCount : UInt32) : Nat :=
  sizeofData + dataSize.toNat * dataCount.toNat

theorem toNat_dataPayloadSize (dataSize dataCount : UInt32) :
    (dataPayloadSize dataSize dataCount).toNat =
      dataBytes dataSize dataCount % 2 ^ 32 := by
  rw [dataPayloadSize, UInt32.toNat_add, UInt32.toNat_mul, dataBytes,
    UInt32.toNat_ofNat', Nat.add_mod_mod, Nat.mod_add_mod]

/-- The message has room for the data that was asked for, and says so. -/
structure Reserves (message : Message) (dataSize dataCount id : UInt32) :
    Prop where
  accepted : message.isValidData dataSize = some true
  count_eq : message.getDataBlockCount dataSize = some dataCount
  id_eq : message.dataId = id
  room : message.dataArea.length = dataSize.toNat * dataCount.toNat

/-- `new_data` returns a message that cannot be sent, or one with the room that
was asked for. -/
def NewDataReserves (memory : Memory) (dataSize dataCount id : UInt32) : Prop :=
  ∃ message, newData memory dataSize dataCount id = some message ∧
    (message.isValidMessage = false ∨ message.Reserves dataSize dataCount id)

/-- `new_data` returns a message exactly when its block has room for the id. -/
theorem newData_spec (memory : Memory) (dataSize dataCount id : UInt32) :
    (dataBytes dataSize dataCount % 2 ^ 32 < sizeofData ∧
        newData memory dataSize dataCount id = none) ∨
      (sizeofData ≤ dataBytes dataSize dataCount % 2 ^ 32 ∧
        ∃ message, newData memory dataSize dataCount id = some message ∧
          message.header = ⟨.data, reservedOf memory,
            UInt32.ofNat (dataBytes dataSize dataCount % 2 ^ 32)⟩ ∧
          message.payload = u32Bytes id ++ (payloadOf memory
            (dataBytes dataSize dataCount % 2 ^ 32)).drop sizeofData) := by
  have hlength := length_payload_allocate memory .data
    (dataBytes dataSize dataCount % 2 ^ 32)
  rw [newData, toNat_dataPayloadSize]
  by_cases hroom : sizeofData ≤ dataBytes dataSize dataCount % 2 ^ 32
  · obtain ⟨message, hstore, hheader, hpayload⟩ := store_append
      (List.nil_append (allocate memory .data
        (dataBytes dataSize dataCount % 2 ^ 32)).payload).symm
      (show (u32Bytes id).length ≤ _ by rw [hlength]; exact hroom)
    exact Or.inr ⟨hroom, message, hstore, hheader, hpayload⟩
  · have hshort := Nat.lt_of_not_le hroom
    refine Or.inl ⟨hshort, ?_⟩
    rw [store, dif_neg]
    rw [hlength]
    change ¬0 + sizeofData ≤ _
    omega

theorem sizeofData_le_dataBytes (dataSize dataCount : UInt32) :
    sizeofData ≤ dataBytes dataSize dataCount :=
  Nat.le_add_right _ _

/-- The room that was asked for comes with a payload of the exact size. -/
theorem Reserves.length_payload {message : Message}
    {dataSize dataCount id : UInt32}
    (h : message.Reserves dataSize dataCount id)
    (hroom : sizeofData ≤ message.payload.length) :
    message.payload.length = dataBytes dataSize dataCount := by
  have harea := h.room
  rw [dataArea, List.length_drop] at harea
  rw [← Nat.sub_add_cancel hroom, harea, dataBytes, Nat.add_comm]

/-- A message that was allocated with the exact size has the room asked for. -/
theorem reserves_of_exact {message : Message} {memory : Memory}
    {dataSize dataCount id : UInt32} (hsize : dataSize ≠ 0)
    (hsmall : dataBytes dataSize dataCount < 2 ^ 32)
    (hvalid : message.isValidMessage = true)
    (hheader : message.header = ⟨.data, reservedOf memory,
      UInt32.ofNat (dataBytes dataSize dataCount)⟩)
    (hlength : message.payload.length = dataBytes dataSize dataCount)
    (hid : message.dataId = id) : message.Reserves dataSize dataCount id := by
  have hholds : message.HoldsBlocks dataSize dataCount.toNat := by
    constructor
    · rw [hheader]
    · rw [hheader, UInt32.toNat_ofNat', Nat.mod_eq_of_lt hsmall, dataBytes,
        Nat.mul_comm]
  have hcounts := HoldsBlocks.counts ⟨message, hvalid⟩ hholds hsize
  obtain ⟨counted, hcounted, heq⟩ := hcounts.count_eq
  constructor
  · exact HoldsBlocks.accepted ⟨message, hvalid⟩ hholds hsize
  · rw [hcounted, UInt32.toNat_inj.mp heq]
  · exact hid
  · rw [dataArea, List.length_drop, hlength, dataBytes, Nat.add_sub_cancel_left]

/-- `new_data` keeps its word exactly when the exact size fits 32 bits, or wraps
to a size that leaves no room for the header. -/
theorem newDataReserves_iff (memory : Memory) (dataSize dataCount id : UInt32)
    (hsize : dataSize ≠ 0) :
    NewDataReserves memory dataSize dataCount id ↔
      dataBytes dataSize dataCount < 2 ^ 32 ∨
        2 ^ 32 ≤ dataBytes dataSize dataCount % 2 ^ 32 + sizeofHeader := by
  have hle := sizeofData_le_dataBytes dataSize dataCount
  rcases newData_spec memory dataSize dataCount id with
    ⟨hshort, hnone⟩ | ⟨hroom, message, hsome, hheader, hpayload⟩
  · simp only [sizeofData] at hle hshort
    constructor
    · rintro ⟨message, hsome, _⟩
      rw [hnone] at hsome
      cases hsome
    · rintro (hsmall | hlarge)
      · omega
      · simp only [sizeofHeader] at hlarge
        omega
  · have hlength : message.payload.length =
        dataBytes dataSize dataCount % 2 ^ 32 := by
      rw [hpayload, List.length_append, List.length_drop, length_u32Bytes]
      simp only [sizeofData, payloadOf, List.length_map, List.length_range]
        at hroom ⊢
      omega
    have hvalid := isValidMessage_allocated (by decide)
      (Nat.lt_of_lt_of_le (by decide) hroom) hheader hlength
    constructor
    · rintro ⟨built, hbuilt, hcase⟩
      rw [hsome, Option.some.injEq] at hbuilt
      subst hbuilt
      rcases hcase with hbad | hreserves
      · rw [← Bool.not_eq_true, hvalid] at hbad
        exact Or.inr (Nat.le_of_not_lt hbad)
      · have hexact := hreserves.length_payload (by rw [hlength]; exact hroom)
        rw [hlength] at hexact
        exact Or.inl (hexact ▸ Nat.mod_lt _ (by decide))
    · intro hcase
      refine ⟨message, hsome, ?_⟩
      by_cases hgood : message.isValidMessage = true
      · have hbound := hvalid.mp hgood
        have hsmall := hcase.resolve_right (Nat.not_le_of_lt hbound)
        rw [Nat.mod_eq_of_lt hsmall] at hheader hlength
        refine Or.inr (reserves_of_exact hsize hsmall hgood hheader hlength ?_)
        rw [dataId, hpayload, u32At_u32Bytes_append]
      · exact Or.inl (Bool.eq_false_of_not_eq_true hgood)

theorem newDataReserves_four :
    NewDataReserves (fun _ => 0) 4 3 9 ↔
      dataBytes 4 3 < 2 ^ 32 ∨ 2 ^ 32 ≤ dataBytes 4 3 % 2 ^ 32 + sizeofHeader :=
  newDataReserves_iff (fun _ => 0) 4 3 9 (by decide)

/-- Of 2^16 blocks of 2^16 bytes no byte is allocated, and the message can be
sent. -/
theorem newData_wraps :
    ¬NewDataReserves (fun _ => 0) 65536 65536 0 := by
  rintro ⟨message, hsome, hcase⟩
  have hwraps : dataPayloadSize 65536 65536 = 4 := by decide
  rw [newData, hwraps] at hsome
  have hvalid : message.isValidMessage = true ∧ message.dataArea = [] := by
    cases hsome
    exact ⟨by rfl, by rfl⟩
  rcases hcase with hbad | hreserves
  · rw [hvalid.1] at hbad
    cases hbad
  · have hroom := hreserves.room
    rw [hvalid.2] at hroom
    have hzero : (0 : Nat) = 65536 * 65536 := hroom
    omega

end Message

end FpgaFramework
