/-
Configuration messages.  How `new_config` lays a configuration out, how the
accessors find its parts again with 32-bit offsets, and what reaches a peer.
-/
import FpgaFramework.Buffer
import FpgaFramework.FrameStream

namespace FpgaFramework

/-- `block_info_s`. -/
structure BlockInfo where
  controlBase : UInt32
  inputBase : UInt32
  outputBase : UInt32
deriving Repr, DecidableEq

namespace BlockInfo

def asBytes (info : BlockInfo) : List UInt8 :=
  u32Bytes info.controlBase ++ u32Bytes info.inputBase ++ u32Bytes info.outputBase

def ofBytes (bytes : List UInt8) : BlockInfo :=
  ⟨u32At bytes 0, u32At bytes 4, u32At bytes 8⟩

@[simp] theorem length_asBytes (info : BlockInfo) :
    info.asBytes.length = sizeofBlockInfo := rfl

end BlockInfo

/-- The word behind `front`. -/
theorem u32At_middle (front : List UInt8) (value : UInt32) (rest : List UInt8) :
    u32At (front ++ (u32Bytes value ++ rest)) front.length = value := by
  have h := u32At_append_right front (u32Bytes value ++ rest) 0
  rw [Nat.add_zero, u32At_u32Bytes_append] at h
  exact h

theorem BlockInfo.ofBytes_asBytes (info : BlockInfo) :
    ofBytes info.asBytes = info := by
  have hcontrol := u32At_u32Bytes_append info.controlBase
    (u32Bytes info.inputBase ++ u32Bytes info.outputBase)
  have hinput := u32At_middle (u32Bytes info.controlBase) info.inputBase
    (u32Bytes info.outputBase)
  have houtput := u32At_middle
    (u32Bytes info.controlBase ++ u32Bytes info.inputBase) info.outputBase []
  rw [← List.append_assoc] at hcontrol hinput
  rw [List.append_nil] at houtput
  simp only [List.length_append, length_u32Bytes] at hinput houtput
  simp only [ofBytes, asBytes, hcontrol, hinput, houtput]

namespace Message

/-- `message_s::get_block_info`, as an offset in the payload.  The product is
taken in 64 bits. -/
def getBlockInfo (blockIndex : UInt32) : Nat :=
  sizeofConfig + blockIndex.toNat * sizeofBlockInfo

/-- The record that `get_block_info` points at, when it is in the block. -/
def blockInfo (message : Message) (blockIndex : UInt32) : Option BlockInfo :=
  (Buffer.read message.payload (getBlockInfo blockIndex) sizeofBlockInfo).map
    BlockInfo.ofBytes

/-- `message_s::get_rbf_offset`: the 64-bit product is returned as a
`uint32_t`. -/
def getRbfOffset (message : Message) : UInt32 :=
  UInt32.ofNat (message.numBlocks.toNat * sizeofBlockInfo)

/-- `message_s::get_rbf_size`: the difference is returned as a `uint32_t`. -/
def getRbfSize (message : Message) : UInt32 :=
  message.header.payloadSize - UInt32.ofNat sizeofConfig - message.getRbfOffset

/-- `message_s::get_rbf_ptr`, as an offset in the payload. -/
def getRbfPtr (message : Message) : Nat :=
  sizeofConfig + message.getRbfOffset.toNat

/-- The `get_rbf_size` bytes at `get_rbf_ptr`, when they are in the block. -/
def rbf (message : Message) : Option (List UInt8) :=
  Buffer.read message.payload message.getRbfPtr message.getRbfSize.toNat

/-- `new uint8_t[alloc_size]` for `payloadSize` payload bytes, with the stores to
`alloc_size`, `header.type` and `header.payload_size`. -/
def allocate (memory : Memory) (type : MessageType) (payloadSize : Nat) :
    Message where
  allocSize := sizeofAllocInfo + sizeofHeader + payloadSize
  header := ⟨type, reservedOf memory, UInt32.ofNat payloadSize⟩
  payload := payloadOf memory payloadSize
  alloc_eq := by simp [payloadOf]

/-- A store of `bytes` at `offset` in the payload, when it stays in the block. -/
def store (message : Message) (offset : Nat) (bytes : List UInt8) :
    Option Message :=
  if h : offset + bytes.length ≤ message.payload.length then
    some
      { message with
        payload := Buffer.put message.payload offset bytes
        alloc_eq := by rw [Buffer.length_put h]; exact message.alloc_eq }
  else none

/-- The stores of `new_config` to `input_size`, `output_size` and `num_blocks`. -/
def storeSizes (message : Message) (inputSize outputSize numBlocks : UInt32) :
    Option Message := do
  let message ← message.store 0 (u32Bytes inputSize)
  let message ← message.store 4 (u32Bytes outputSize)
  message.store 8 (u32Bytes numBlocks)

/-- The loop of `new_config` over the block records, from record `index` on.
`index` is an `int`: where it would pass its greatest value there is no
result. -/
def storeBlocks (message : Message) (index : Nat) :
    List BlockInfo → Option Message
  | [] => some message
  | info :: rest =>
      (message.store (getBlockInfo (UInt32.ofNat index)) info.asBytes).bind
        fun stored =>
          if index + 1 < 2 ^ 31 then stored.storeBlocks (index + 1) rest else none

/-- `std::memcpy(get_rbf_ptr(), rbf_data, rbf_size)`, which a null `rbf_data`
leaves out. -/
def copyRbf (message : Message) (rbfData : Option (List UInt8))
    (rbfSize : UInt32) : Option Message :=
  match rbfData with
  | none => some message
  | some data =>
      (Buffer.read data 0 rbfSize.toNat).bind fun bytes =>
        message.store message.getRbfPtr bytes

/-- The payload size that `new_config` computes, in 64 bits. -/
def configSize (blocks : List BlockInfo) (rbfSize : UInt32) : Nat :=
  sizeofConfig + blocks.length * sizeofBlockInfo + rbfSize.toNat

/-- `message_s::new_config`.  The allocation has the size that was computed,
the header holds it truncated.  `none` is a store or load outside of its block,
or an overflow of the loop counter. -/
def newConfig (memory : Memory) (blocks : List BlockInfo)
    (inputSize outputSize : UInt32) (rbfData : Option (List UInt8))
    (rbfSize : UInt32) : Option Message := do
  let config := allocate memory .config (configSize blocks rbfSize)
  let config ← config.storeSizes inputSize outputSize
    (UInt32.ofNat blocks.length)
  let config ← config.storeBlocks 0 blocks
  config.copyRbf rbfData rbfSize

@[simp] theorem length_payload_allocate (memory : Memory) (type : MessageType)
    (payloadSize : Nat) :
    (allocate memory type payloadSize).payload.length = payloadSize := by
  simp [allocate, payloadOf]

/-- A block that was allocated for `size` payload bytes is a valid message exactly
when its message size fits 32 bits. -/
theorem isValidMessage_allocated {message : Message} {memory : Memory}
    {type : MessageType} {size : Nat} (htype : type ∈ knownTypes)
    (hpos : 0 < size)
    (hheader : message.header = ⟨type, reservedOf memory, UInt32.ofNat size⟩)
    (hlength : message.payload.length = size) :
    message.isValidMessage = true ↔ size + sizeofHeader < 2 ^ 32 := by
  rw [isValidMessage_iff, hlength, hheader, Header.isValid_iff]
  simp only [UInt32.toNat_ofNat', sizeofHeader]
  constructor
  · rintro ⟨_, hsize, hbound⟩
    omega
  · intro hsmall
    have hmod : size % 2 ^ 32 = size := Nat.mod_eq_of_lt (by omega)
    exact ⟨⟨htype, by omega⟩, hmod.symm, by omega⟩

theorem store_of_le {message : Message} {offset : Nat} {bytes : List UInt8}
    (h : offset + bytes.length ≤ message.payload.length) :
    ∃ stored, message.store offset bytes = some stored ∧
      stored.header = message.header ∧
      stored.payload = Buffer.put message.payload offset bytes := by
  rw [store, dif_pos h]
  exact ⟨_, rfl, rfl, rfl⟩

/-- A store right behind the part that is filled extends it. -/
theorem store_append {message : Message} {filled rest bytes : List UInt8}
    (hpayload : message.payload = filled ++ rest)
    (hroom : bytes.length ≤ rest.length) :
    ∃ stored, message.store filled.length bytes = some stored ∧
      stored.header = message.header ∧
      stored.payload = filled ++ bytes ++ rest.drop bytes.length := by
  have hle : filled.length + bytes.length ≤ message.payload.length := by
    rw [hpayload, List.length_append]
    exact Nat.add_le_add_left hroom _
  obtain ⟨stored, hstore, hheader, hstored⟩ := store_of_le hle
  rw [hpayload, Buffer.put_append] at hstored
  exact ⟨stored, hstore, hheader, hstored⟩

/-- The fixed part of a configuration. -/
def sizesBytes (inputSize outputSize numBlocks : UInt32) : List UInt8 :=
  u32Bytes inputSize ++ u32Bytes outputSize ++ u32Bytes numBlocks

@[simp] theorem length_sizesBytes (inputSize outputSize numBlocks : UInt32) :
    (sizesBytes inputSize outputSize numBlocks).length = sizeofConfig := rfl

theorem storeSizes_spec (message : Message)
    (inputSize outputSize numBlocks : UInt32)
    (hroom : sizeofConfig ≤ message.payload.length) :
    ∃ stored,
      message.storeSizes inputSize outputSize numBlocks = some stored ∧
        stored.header = message.header ∧
        stored.payload = sizesBytes inputSize outputSize numBlocks ++
          message.payload.drop sizeofConfig := by
  simp only [sizeofConfig] at hroom
  obtain ⟨first, hfirst, hheader₁, hbytes₁⟩ := store_append
    (List.nil_append message.payload).symm
    (show (u32Bytes inputSize).length ≤ _ by rw [length_u32Bytes]; omega)
  obtain ⟨second, hsecond, hheader₂, hbytes₂⟩ := store_append hbytes₁
    (show (u32Bytes outputSize).length ≤ _ by
      rw [List.length_drop, length_u32Bytes, length_u32Bytes]; omega)
  obtain ⟨third, hthird, hheader₃, hbytes₃⟩ := store_append hbytes₂
    (show (u32Bytes numBlocks).length ≤ _ by
      simp only [List.length_drop, length_u32Bytes]; omega)
  refine ⟨third, ?_, hheader₃.trans (hheader₂.trans hheader₁), ?_⟩
  · have hzero : message.store 0 (u32Bytes inputSize) = some first := hfirst
    have hfour : first.store 4 (u32Bytes outputSize) = some second := hsecond
    have height : second.store 8 (u32Bytes numBlocks) = some third := hthird
    simp only [storeSizes, hzero, hfour, height, Option.bind_eq_bind,
      Option.bind_some]
  · rw [List.drop_drop, List.drop_drop] at hbytes₃
    exact hbytes₃

/-- The fields of a payload that starts with them. -/
theorem sizes_of_payload {message : Message} {input output blocks : UInt32}
    {rest : List UInt8}
    (hpayload : message.payload = sizesBytes input output blocks ++ rest) :
    message.inputSize = input ∧ message.outputSize = output ∧
      message.numBlocks = blocks := by
  simp only [sizesBytes, List.append_assoc] at hpayload
  refine ⟨?_, ?_, ?_⟩
  · rw [inputSize, hpayload, u32At_u32Bytes_append]
  · rw [outputSize, hpayload]
    exact u32At_middle (u32Bytes input) output (u32Bytes blocks ++ rest)
  · rw [numBlocks, hpayload, ← List.append_assoc (u32Bytes input)]
    exact u32At_middle (u32Bytes input ++ u32Bytes output) blocks rest

theorem length_flatMap_asBytes (blocks : List BlockInfo) :
    (blocks.flatMap BlockInfo.asBytes).length =
      blocks.length * sizeofBlockInfo := by
  induction blocks with
  | nil => rfl
  | cons info rest ih =>
      rw [List.flatMap_cons, List.length_append, ih, BlockInfo.length_asBytes,
        List.length_cons, Nat.succ_mul, Nat.add_comm]

/-- While the counter does not overflow the loop fills the records in, one after
another. -/
theorem storeBlocks_append (blocks : List BlockInfo) (index : Nat)
    {message : Message} {filled rest : List UInt8}
    (hpayload : message.payload = filled ++ rest)
    (hfilled : filled.length = sizeofConfig + index * sizeofBlockInfo)
    (hroom : blocks.length * sizeofBlockInfo ≤ rest.length)
    (hindex : index + blocks.length < 2 ^ 31) :
    ∃ stored, message.storeBlocks index blocks = some stored ∧
      stored.header = message.header ∧
      stored.payload = filled ++ blocks.flatMap BlockInfo.asBytes ++
        rest.drop (blocks.length * sizeofBlockInfo) := by
  induction blocks generalizing index message filled rest with
  | nil => exact ⟨message, rfl, rfl, by simp [hpayload]⟩
  | cons info others ih =>
      rw [List.length_cons, Nat.succ_mul] at hroom
      rw [List.length_cons] at hindex
      have hoffset : getBlockInfo (UInt32.ofNat index) = filled.length := by
        rw [getBlockInfo, UInt32.toNat_ofNat', Nat.mod_eq_of_lt (by omega), hfilled]
      have hfirst : info.asBytes.length ≤ rest.length := by
        rw [BlockInfo.length_asBytes]
        omega
      obtain ⟨first, hstore, hheader, hbytes⟩ := store_append hpayload hfirst
      rw [BlockInfo.length_asBytes] at hbytes
      obtain ⟨stored, hstored, hsame, hall⟩ := ih (index + 1) hbytes
        (by
          rw [List.length_append, hfilled, BlockInfo.length_asBytes, Nat.succ_mul,
            Nat.add_assoc])
        (by
          rw [List.length_drop]
          omega)
        (by omega)
      refine ⟨stored, ?_, hsame.trans hheader, ?_⟩
      · rw [storeBlocks, hoffset, hstore, Option.bind_some, if_pos (by omega),
          hstored]
      · rw [hall, List.flatMap_cons, List.drop_drop, List.length_cons,
          Nat.succ_mul, Nat.add_comm sizeofBlockInfo, List.append_assoc filled]

/-- With 2^31 records or more the loop has no result. -/
theorem storeBlocks_overflow (blocks : List BlockInfo) (index : Nat)
    (message : Message) (hindex : index < 2 ^ 31)
    (hlarge : 2 ^ 31 ≤ index + blocks.length) :
    message.storeBlocks index blocks = none := by
  induction blocks generalizing index message with
  | nil =>
      rw [List.length_nil] at hlarge
      omega
  | cons info rest ih =>
      rw [List.length_cons] at hlarge
      rw [storeBlocks, Option.bind_eq_none_iff]
      intro stored _
      split
      · next hnext => exact ih (index + 1) stored hnext (by omega)
      · rfl

/-- The payload of a configuration. -/
def configBytes (blocks : List BlockInfo) (inputSize outputSize : UInt32)
    (rbf : List UInt8) : List UInt8 :=
  sizesBytes inputSize outputSize (UInt32.ofNat blocks.length) ++
    blocks.flatMap BlockInfo.asBytes ++ rbf

theorem getRbfPtr_of_numBlocks {message : Message} {count : Nat}
    (hcount : count < 2 ^ 32) (hnum : message.numBlocks = UInt32.ofNat count) :
    message.getRbfPtr =
      sizeofConfig + count * sizeofBlockInfo % 2 ^ 32 := by
  rw [getRbfPtr, getRbfOffset, hnum, UInt32.toNat_ofNat', UInt32.toNat_ofNat',
    Nat.mod_eq_of_lt hcount]

/-- The copy of the RBF data stays in the block, and it fills the block when the
offset of the data did not wrap. -/
theorem copyRbf_append {message : Message} {filled rest : List UInt8}
    {count : Nat} {rbfData : Option (List UInt8)} {rbfSize : UInt32}
    (hpayload : message.payload = filled ++ rest)
    (hfilled : filled.length = sizeofConfig + count * sizeofBlockInfo)
    (hrest : rest.length = rbfSize.toNat) (hcount : count < 2 ^ 32)
    (hnum : message.numBlocks = UInt32.ofNat count)
    (hdata : (rbfData.getD []).length = rbfSize.toNat) :
    ∃ stored, message.copyRbf rbfData rbfSize = some stored ∧
      stored.header = message.header ∧
      stored.payload.length = message.payload.length ∧
      (count * sizeofBlockInfo < 2 ^ 32 →
        stored.payload = filled ++ rbfData.getD []) := by
  have hptr := getRbfPtr_of_numBlocks hcount hnum
  cases rbfData with
  | none =>
      have hnil : rest = [] := by
        apply List.length_eq_zero_iff.mp
        rw [hrest, ← hdata]
        rfl
      refine ⟨message, rfl, rfl, rfl, fun _ => ?_⟩
      rw [hpayload, hnil]
      rfl
  | some data =>
      have hlength : data.length = rbfSize.toNat := hdata
      have hread : Buffer.read data 0 rbfSize.toNat = some data := by
        rw [← hlength, Buffer.read_all]
      have hle : message.getRbfPtr + data.length ≤ message.payload.length := by
        have hmod := Nat.mod_le (count * sizeofBlockInfo) (2 ^ 32)
        rw [hptr, hpayload, List.length_append, hfilled, hrest, hlength]
        omega
      obtain ⟨stored, hstore, hheader, hstored⟩ := store_of_le hle
      refine ⟨stored, ?_, hheader, ?_, fun hsmall => ?_⟩
      · simp only [copyRbf, hread, Option.bind_some, hstore]
      · rw [hstored, Buffer.length_put hle]
      · have hdrop : rest.drop data.length = [] := by
          rw [List.drop_eq_nil_iff, hrest, hlength]
        rw [hstored, hptr, Nat.mod_eq_of_lt hsmall, ← hfilled, hpayload,
          Buffer.put_append, hdrop, List.append_nil]
        rfl

/-- `new_config` stays in its block.  The block and the header have the computed
size, and the payload is the configuration unless the offset of the RBF data
wrapped. -/
theorem newConfig_spec (memory : Memory) (blocks : List BlockInfo)
    (inputSize outputSize : UInt32) (rbfData : Option (List UInt8))
    {rbfSize : UInt32} (hblocks : blocks.length < 2 ^ 31)
    (hdata : (rbfData.getD []).length = rbfSize.toNat) :
    ∃ config,
      newConfig memory blocks inputSize outputSize rbfData rbfSize =
          some config ∧
        config.header = ⟨.config, reservedOf memory,
          UInt32.ofNat (configSize blocks rbfSize)⟩ ∧
        config.payload.length = configSize blocks rbfSize ∧
        (blocks.length * sizeofBlockInfo < 2 ^ 32 → config.payload =
          configBytes blocks inputSize outputSize (rbfData.getD [])) := by
  have hroom : (allocate memory .config (configSize blocks rbfSize)).payload.length =
      sizeofConfig + blocks.length * sizeofBlockInfo + rbfSize.toNat := by
    rw [length_payload_allocate, configSize]
  obtain ⟨fields, hfields, hheader₁, hbytes₁⟩ := storeSizes_spec
    (allocate memory .config (configSize blocks rbfSize)) inputSize outputSize
    (UInt32.ofNat blocks.length) (by omega)
  obtain ⟨records, hrecords, hheader₂, hbytes₂⟩ := storeBlocks_append blocks 0
    hbytes₁ rfl
    (by
      rw [List.length_drop]
      omega)
    (by omega)
  have hnum : records.numBlocks = UInt32.ofNat blocks.length := by
    rw [List.append_assoc] at hbytes₂
    exact (sizes_of_payload hbytes₂).2.2
  obtain ⟨config, hconfig, hheader₃, hlength, hbytes₃⟩ := copyRbf_append
    hbytes₂ (by rw [List.length_append, length_flatMap_asBytes]; rfl)
    (by
      rw [List.length_drop, List.length_drop]
      omega)
    (by omega) hnum hdata
  refine ⟨config, ?_, ?_, ?_, hbytes₃⟩
  · simp only [newConfig, hfields, hrecords, hconfig, Option.bind_eq_bind,
      Option.bind_some]
  · rw [hheader₃, hheader₂, hheader₁]
    rfl
  · rw [hlength, hbytes₂]
    simp only [List.length_append, List.length_drop, length_flatMap_asBytes,
      length_sizesBytes, length_payload_allocate]
    rw [configSize]
    omega

/-- Where the records fit into the payload, the 32-bit offset of the RBF data
does not wrap. -/
theorem getRbfOffset_of_fits {message : Message}
    (hfits : sizeofConfig + message.numBlocks.toNat * sizeofBlockInfo ≤
      message.header.payloadSize.toNat) :
    message.getRbfOffset.toNat = message.numBlocks.toNat * sizeofBlockInfo := by
  have hlt := message.header.payloadSize.toNat_lt
  rw [getRbfOffset, UInt32.toNat_ofNat', Nat.mod_eq_of_lt (by omega)]

/-- Neither does the size of the RBF data. -/
theorem getRbfSize_of_fits {message : Message}
    (hfits : sizeofConfig + message.numBlocks.toNat * sizeofBlockInfo ≤
      message.header.payloadSize.toNat) :
    sizeofConfig + message.numBlocks.toNat * sizeofBlockInfo +
      message.getRbfSize.toNat = message.header.payloadSize.toNat := by
  have hoffset := getRbfOffset_of_fits hfits
  have hconfig : (UInt32.ofNat sizeofConfig).toNat = sizeofConfig := rfl
  have hfirst : UInt32.ofNat sizeofConfig ≤ message.header.payloadSize := by
    rw [UInt32.le_iff_toNat_le, hconfig]
    omega
  have hrest := UInt32.toNat_sub_of_le _ _ hfirst
  have hsecond : message.getRbfOffset ≤
      message.header.payloadSize - UInt32.ofNat sizeofConfig := by
    rw [UInt32.le_iff_toNat_le, hrest, hoffset, hconfig]
    omega
  rw [getRbfSize, UInt32.toNat_sub_of_le _ _ hsecond, hrest, hoffset, hconfig]
  omega

/-- The parts of a configuration's payload: the fixed part, the records by
index, and the RBF data. -/
def configRanges (message : Message) : List Range :=
  ⟨0, sizeofConfig⟩ ::
    ((List.range message.numBlocks.toNat).map fun index =>
      ⟨getBlockInfo (UInt32.ofNat index), sizeofBlockInfo⟩) ++
    [⟨message.getRbfPtr, message.getRbfSize.toNat⟩]

/-- The parts of the payload follow one another and fill it, and no 32-bit
computation on the way to them wraps. -/
structure WellLaidOut (message : Message) : Prop where
  rbfOffset_eq : message.getRbfOffset.toNat =
    message.numBlocks.toNat * sizeofBlockInfo
  rbfSize_eq : sizeofConfig + message.numBlocks.toNat * sizeofBlockInfo +
    message.getRbfSize.toNat = message.header.payloadSize.toNat
  tiles : Tiles 0 message.header.payloadSize.toNat message.configRanges
  disjoint : message.configRanges.Pairwise fun first second =>
    first.stop ≤ second.offset
  covers : ∀ offset < message.header.payloadSize.toNat,
    ∃ range ∈ message.configRanges,
      range.offset ≤ offset ∧ offset < range.stop
  allocated : ∀ range ∈ message.configRanges,
    range.stop ≤ message.payload.length
  blockInfo_isSome : ∀ index : UInt32,
    index.toNat < message.numBlocks.toNat → (message.blockInfo index).isSome
  rbf_isSome : message.rbf.isSome

theorem configRanges_tile {message : Message}
    (hfits : sizeofConfig + message.numBlocks.toNat * sizeofBlockInfo ≤
      message.header.payloadSize.toNat) :
    Tiles 0 message.header.payloadSize.toNat message.configRanges := by
  have hoffset := getRbfOffset_of_fits hfits
  have hsize := getRbfSize_of_fits hfits
  have hrecords : ((List.range message.numBlocks.toNat).map fun index =>
      (⟨getBlockInfo (UInt32.ofNat index), sizeofBlockInfo⟩ : Range)) =
      (List.range message.numBlocks.toNat).map fun index =>
        ⟨sizeofConfig + index * sizeofBlockInfo, sizeofBlockInfo⟩ := by
    apply List.map_congr_left
    intro index hmem
    have hindex := List.mem_range.mp hmem
    have hlt := message.numBlocks.toNat_lt
    rw [getBlockInfo, UInt32.toNat_ofNat', Nat.mod_eq_of_lt (by omega)]
  rw [configRanges, hrecords]
  constructor
  · rfl
  · have htiles := tiles_records sizeofConfig sizeofBlockInfo
      message.numBlocks.toNat
    have hlast : Tiles (sizeofConfig + message.numBlocks.toNat * sizeofBlockInfo)
        message.header.payloadSize.toNat
        [⟨message.getRbfPtr, message.getRbfSize.toNat⟩] := by
      constructor
      · change message.getRbfPtr = _
        rw [getRbfPtr, hoffset]
      · change message.getRbfPtr + message.getRbfSize.toNat = _
        rw [getRbfPtr, hoffset, hsize]
    simpa [Range.stop] using htiles.append hlast

theorem fits_of_isValidConfig {message : Message}
    (h : message.isValidConfig = true) :
    sizeofConfig + message.numBlocks.toNat * sizeofBlockInfo ≤
      message.header.payloadSize.toNat := by
  simp only [isValidConfig, Bool.and_eq_true, decide_eq_true_eq] at h
  exact h.2

/-- An accepted configuration is well laid out, however it was made. -/
theorem wellLaidOut_of_isValidConfig (message : Message)
    (h : message.isValidConfig = true) : message.WellLaidOut := by
  have hfits := fits_of_isValidConfig h
  have hlength := ((isValidMessage_iff message).mp
    (isValidMessage_of_isValidConfig h)).2.1
  have hoffset := getRbfOffset_of_fits hfits
  have hsize := getRbfSize_of_fits hfits
  have htiles := configRanges_tile hfits
  constructor
  · exact hoffset
  · exact hsize
  · exact htiles
  · exact htiles.pairwise
  · intro offset hlt
    exact htiles.covers (Nat.zero_le offset) hlt
  · intro range hmem
    rw [hlength]
    exact (htiles.inside range hmem).2
  · intro index hindex
    rw [blockInfo, Option.isSome_map, Buffer.read_isSome_iff, getBlockInfo, hlength]
    have hstop := record_stop_le hindex sizeofBlockInfo
    omega
  · rw [rbf, Buffer.read_isSome_iff, getRbfPtr, hoffset, hlength]
    exact Nat.le_of_eq hsize

/-- Two records and three bytes of RBF data. -/
theorem wellLaidOut_two_blocks :
    ∃ config,
      newConfig (fun _ => 0) [⟨1, 2, 3⟩, ⟨4, 5, 6⟩] 4 8 (some [7, 8, 9]) 3 =
        some config ∧
      config.numBlocks = 2 ∧ config.getRbfSize = 3 ∧ config.WellLaidOut :=
  ⟨_, rfl, rfl, rfl, wellLaidOut_of_isValidConfig _ rfl⟩

/-- With 2^31 records or more `new_config` has no result. -/
theorem newConfig_overflow (memory : Memory) (blocks : List BlockInfo)
    (inputSize outputSize : UInt32) (rbfData : Option (List UInt8))
    (rbfSize : UInt32) (hlarge : 2 ^ 31 ≤ blocks.length) :
    newConfig memory blocks inputSize outputSize rbfData rbfSize = none := by
  simp only [newConfig, Option.bind_eq_bind, Option.bind_eq_none_iff]
  intro fields _ records hrecords
  rw [storeBlocks_overflow blocks 0 fields (by decide) (by omega)] at hrecords
  cases hrecords

/-- The accessors give back the configuration that was encoded. -/
structure Decodes (blocks : List BlockInfo) (inputSize outputSize : UInt32)
    (rbf : List UInt8) (message : Message) : Prop where
  valid : message.isValidConfig = true
  inputSize_eq : message.inputSize = inputSize
  outputSize_eq : message.outputSize = outputSize
  numBlocks_eq : message.numBlocks.toNat = blocks.length
  blockInfo_eq : ∀ (index : UInt32) (h : index.toNat < blocks.length),
    message.blockInfo index = some blocks[index.toNat]
  rbfSize_eq : message.getRbfSize.toNat = rbf.length
  rbf_eq : message.rbf = some rbf

theorem length_configBytes (blocks : List BlockInfo)
    (inputSize outputSize : UInt32) (rbf : List UInt8) :
    (configBytes blocks inputSize outputSize rbf).length =
      sizeofConfig + blocks.length * sizeofBlockInfo + rbf.length := by
  rw [configBytes, List.length_append, List.length_append, length_sizesBytes,
    length_flatMap_asBytes]

theorem blockInfo_of_payload (front back : List UInt8) {message : Message}
    {info : BlockInfo} {index : UInt32}
    (hpayload : message.payload = front ++ (info.asBytes ++ back))
    (hfront : front.length = getBlockInfo index) :
    message.blockInfo index = some info := by
  have hread := Buffer.read_append front info.asBytes back
  rw [BlockInfo.length_asBytes, hfront] at hread
  rw [blockInfo, hpayload, hread, Option.map_some, BlockInfo.ofBytes_asBytes]

/-- The record of a configuration at each index below `num_blocks`. -/
theorem blockInfo_of_configBytes {message : Message} {blocks : List BlockInfo}
    {inputSize outputSize : UInt32} {rbf : List UInt8}
    (hpayload : message.payload = configBytes blocks inputSize outputSize rbf)
    (index : UInt32) (h : index.toNat < blocks.length) :
    message.blockInfo index = some blocks[index.toNat] := by
  have hsplit : blocks = blocks.take index.toNat ++
      (blocks[index.toNat] :: blocks.drop (index.toNat + 1)) := by
    rw [List.getElem_cons_drop, List.take_append_drop]
  apply blockInfo_of_payload
    (sizesBytes inputSize outputSize (UInt32.ofNat blocks.length) ++
      (blocks.take index.toNat).flatMap BlockInfo.asBytes)
    ((blocks.drop (index.toNat + 1)).flatMap BlockInfo.asBytes ++ rbf)
  · have hbytes : blocks.flatMap BlockInfo.asBytes =
        (blocks.take index.toNat).flatMap BlockInfo.asBytes ++
          (blocks[index.toNat].asBytes ++
            (blocks.drop (index.toNat + 1)).flatMap BlockInfo.asBytes) := by
      rw [← List.flatMap_cons, ← List.flatMap_append, ← hsplit]
    rw [hpayload, configBytes, hbytes]
    simp only [List.append_assoc]
  · rw [List.length_append, length_sizesBytes, length_flatMap_asBytes,
      List.length_take, Nat.min_eq_left (Nat.le_of_lt h), getBlockInfo]

/-- A valid message whose payload is a configuration decodes to it. -/
theorem decodes_of_payload {message : Message} {blocks : List BlockInfo}
    {inputSize outputSize : UInt32} {rbf : List UInt8}
    (htype : message.header.type = .config)
    (hvalid : message.isValidMessage = true)
    (hpayload : message.payload = configBytes blocks inputSize outputSize rbf) :
    Decodes blocks inputSize outputSize rbf message := by
  obtain ⟨_, hlength, hbound⟩ := (isValidMessage_iff message).mp hvalid
  have hsize : message.header.payloadSize.toNat =
      sizeofConfig + blocks.length * sizeofBlockInfo + rbf.length := by
    rw [← hlength, hpayload, length_configBytes]
  rw [hsize] at hbound
  simp only [sizeofHeader, sizeofConfig, sizeofBlockInfo] at hbound
  have hfields := hpayload
  rw [configBytes, List.append_assoc] at hfields
  obtain ⟨hinput, houtput, hnum⟩ := sizes_of_payload hfields
  have hcount : message.numBlocks.toNat = blocks.length := by
    rw [hnum, UInt32.toNat_ofNat', Nat.mod_eq_of_lt (by omega)]
  have hfits : sizeofConfig + message.numBlocks.toNat * sizeofBlockInfo ≤
      message.header.payloadSize.toNat := by
    rw [hcount, hsize]
    exact Nat.le_add_right _ _
  have hoffset := getRbfOffset_of_fits hfits
  have hrbf := getRbfSize_of_fits hfits
  rw [hcount] at hoffset
  rw [hcount, hsize] at hrbf
  have hrbfSize := Nat.add_left_cancel hrbf
  refine ⟨?_, hinput, houtput, hcount, blockInfo_of_configBytes hpayload,
    hrbfSize, ?_⟩
  · simp only [isValidConfig, hvalid, htype, beq_self_eq_true, Bool.and_self,
      Bool.true_and, decide_eq_true_eq]
    exact hfits
  · have hread := Buffer.read_append (sizesBytes inputSize outputSize
      (UInt32.ofNat blocks.length) ++ blocks.flatMap BlockInfo.asBytes) rbf []
    rw [List.append_nil, List.length_append, length_sizesBytes,
      length_flatMap_asBytes] at hread
    rw [Message.rbf, hrbfSize, hpayload, configBytes, getRbfPtr, hoffset]
    exact hread

/-- Sent over any connection that does not fail, the message comes out at the
other end as one that has `property`. -/
def Arrives (message : Message) (property : Message → Prop) : Prop :=
  ∀ outbound : Outbound, outbound.Clean → ∃ sent bytes,
    outbound.sendMessage message = (none, sent) ∧
      sent.wire = outbound.wire ++ bytes ∧
      ∀ (inbound : Inbound) (rest : List UInt8), inbound.Clean →
        inbound.pending = bytes ++ rest → ∃ received after,
          inbound.receiveMessage = (.ok received, after) ∧
            after.pending = rest ∧ property received.1

/-- `send_message` refuses the message and leaves the connection alone. -/
def Refused (message : Message) : Prop :=
  message.isValidMessage = false ∧
    ∀ outbound : Outbound,
      outbound.sendMessage message = (some .fault, outbound)

theorem arrives_of_valid {message : Message} {property : Message → Prop}
    (hvalid : message.isValidMessage = true)
    (hproperty : ∀ received : ValidMessage,
      received.1.frame = message.frame → property received.1) :
    message.Arrives property := by
  intro outbound hclean
  rcases outbound.sendMessage_spec hclean message with
    ⟨_, sent, hsent, _, hwire⟩ | ⟨hbad, _⟩
  · refine ⟨sent, message.asBytes, hsent, hwire, ?_⟩
    intro inbound rest hinbound hpending
    obtain ⟨received, after, hreceived, hframe, hrest⟩ :=
      receiveMessage_of_asBytes hvalid hinbound hpending
    exact ⟨received, after, hreceived, hrest, hproperty received hframe⟩
  · rw [hvalid] at hbad
    cases hbad

/-- Only a valid message arrives. -/
theorem Arrives.isValidMessage {message : Message} {property : Message → Prop}
    (h : message.Arrives property) : message.isValidMessage = true := by
  obtain ⟨sent, _, hsent, _⟩ := h _ (Outbound.clean_ofCut fun _ => 1)
  by_contra hinvalid
  rw [Bool.not_eq_true] at hinvalid
  rw [Outbound.sendMessage_invalid _ hinvalid] at hsent
  cases hsent

theorem refused_of_invalid {message : Message}
    (h : message.isValidMessage = false) : message.Refused :=
  ⟨h, fun outbound => outbound.sendMessage_invalid h⟩

/-- Round trip of a configuration.  With fewer than 2^31 records and the RBF data
that `rbf_size` announces, a configuration whose message size fits 32 bits is
sent whole, and whoever receives it decodes what was given; any other one is
built, but refused by `send_message` without a byte. -/
theorem newConfig_received (memory : Memory) (blocks : List BlockInfo)
    (inputSize outputSize : UInt32) (rbfData : List UInt8) (rbfSize : UInt32)
    (hblocks : blocks.length < 2 ^ 31) (hdata : rbfData.length = rbfSize.toNat) :
    ∃ config,
      newConfig memory blocks inputSize outputSize (some rbfData) rbfSize =
          some config ∧
        if sizeofConfig + sizeofBlockInfo * blocks.length + rbfSize.toNat +
            sizeofHeader < 2 ^ 32 then
          config.Arrives (Decodes blocks inputSize outputSize rbfData)
        else config.Refused := by
  obtain ⟨config, hconfig, hheader, hlength, hpayload⟩ := newConfig_spec memory
    blocks inputSize outputSize (some rbfData) hblocks hdata
  refine ⟨config, hconfig, ?_⟩
  have hpos : 0 < configSize blocks rbfSize := by
    simp only [configSize, sizeofConfig]
    omega
  have hvalid := isValidMessage_allocated (by decide) hpos hheader hlength
  rw [configSize, Nat.mul_comm blocks.length] at hvalid
  split
  · next hsmall =>
      apply arrives_of_valid (hvalid.mpr hsmall)
      intro received hframe
      have htype : received.1.header.type = config.header.type :=
        congrArg Frame.type hframe
      have hbytes : received.1.payload = config.payload :=
        congrArg Frame.payload hframe
      apply decodes_of_payload
      · rw [htype, hheader]
      · exact received.2
      · rw [hbytes]
        apply hpayload
        rw [Nat.mul_comm]
        omega
  · next hlarge =>
      apply refused_of_invalid
      rw [← Bool.not_eq_true, hvalid]
      exact hlarge

theorem newConfig_received_block :
    ∃ config,
      newConfig (fun _ => 0) [⟨1, 2, 3⟩] 4 8 (some [7]) 1 = some config ∧
        if sizeofConfig + sizeofBlockInfo * [BlockInfo.mk 1 2 3].length +
            (1 : UInt32).toNat + sizeofHeader < 2 ^ 32 then
          config.Arrives (Decodes [⟨1, 2, 3⟩] 4 8 [7])
        else config.Refused :=
  newConfig_received (fun _ => 0) [⟨1, 2, 3⟩] 4 8 [7] 1 (by decide) rfl

end Message

end FpgaFramework
