/-
The bench user.  The configuration and the inputs that it sends, the checks that it
makes on what comes back, and why a bench node's reply to its input passes them.
-/
import FpgaFramework.BenchNode

namespace FpgaFramework

/-- Sizes that a bench is run with: a node takes the configuration, and there is
room for the time stamp in each block. -/
structure BenchSizes where
  inputSize : UInt32
  outputSize : UInt32
  stamp_le : 8 ≤ outputSize.toNat
  enough : 16 ≤ inputSize.toNat
  output_le : outputSize.toNat ≤ inputSize.toNat
  small : inputSize.toNat + 12 < 2 ^ 32
deriving DecidableEq

/-- The id of a data message and the time at which it was made. -/
abbrev BenchKey := UInt32 × List UInt8

def Frame.benchKey (frame : Frame) : BenchKey :=
  (u32At frame.payload 0, (frame.payload.drop sizeofData).take 8)

/-- The frame is a data message of one block. -/
structure Frame.HoldsBlock (frame : Frame) (size : UInt32) : Prop where
  type_eq : frame.type = .data
  size_eq : frame.payloadSize.toNat = sizeofData + size.toNat

namespace BenchUser

open Message

/-- The sizes in `co_main` and in the two loops. -/
def sizes : BenchSizes where
  inputSize := 64 * 64 * 4 * 2
  outputSize := 64 * 64 * 4
  stamp_le := by decide
  enough := by decide
  output_le := by decide
  small := by decide

def processingDelay : UInt32 := 919

/-- The message of `send_benchmarking_config`. -/
def benchmarkingConfig (sizes : BenchSizes) (memory : Memory) : Option Message :=
  newConfig memory [] sizes.inputSize sizes.outputSize
    (some (u32Bytes processingDelay)) 4

/-- `wait_response` on what it received. -/
def acceptsResponse (response : Message) : Bool :=
  response.isValidConfigResp && response.status == .success

/-- The message of `sending_loop` with the time `t`. -/
def newInput (sizes : BenchSizes) (memory : Memory) (currId : UInt32)
    (t : List UInt8) : Option Message :=
  (newData memory sizes.inputSize 1 currId).bind fun input =>
    input.store sizeofData t

/-- What `receiving_loop` finds a message to be. -/
inductive Verdict where
  | nonData
  | invalidSize
  | invalidCount
  | accepted (createTime : List UInt8)
deriving Repr, DecidableEq

/-- The checks of `receiving_loop`; `none` is a division by zero, or a copy from
behind the end of the block. -/
def examine (sizes : BenchSizes) (result : Message) : Option Verdict :=
  if !(result.isValidMessage && result.header.type == .data) then some .nonData
  else
    match result.isValidData sizes.outputSize with
    | none => none
    | some false => some .invalidSize
    | some true =>
        match result.getDataBlockCount sizes.outputSize with
        | none => none
        | some count =>
            if count ≠ 1 then some .invalidCount
            else (Buffer.read result.payload sizeofData 8).map .accepted

/-- What a peer receives of the configuration. -/
def configFrame (sizes : BenchSizes) : Frame :=
  ⟨.config, 16, sizesBytes sizes.inputSize sizes.outputSize 0 ++
    u32Bytes processingDelay⟩

variable {sizes : BenchSizes}

theorem benchmarkingConfig_spec (sizes : BenchSizes) (memory : Memory) :
    ∃ config, benchmarkingConfig sizes memory = some config ∧
      config.isValidMessage = true ∧ config.frame = configFrame sizes := by
  obtain ⟨config, hconfig, hheader, hlength, hpayload⟩ := newConfig_spec memory []
    sizes.inputSize sizes.outputSize (some (u32Bytes processingDelay))
    (by decide) (show (u32Bytes processingDelay).length = (4 : UInt32).toNat from rfl)
  refine ⟨config, hconfig, ?_, ?_⟩
  · exact (isValidMessage_allocated (by decide) (by decide) hheader hlength).mpr
      (by decide)
  · rw [frame, hheader, hpayload (by decide)]
    rfl

/-- What the parties find in the configuration. -/
structure ReadsConfig (sizes : BenchSizes) (config : Message) : Prop where
  valid : config.isValidConfig = true
  input_eq : config.inputSize = sizes.inputSize
  output_eq : config.outputSize = sizes.outputSize
  noBlocks : config.numBlocks = 0
  rbf_eq : config.getRbfSize = 4

theorem readsConfig_of_frame (config : ValidMessage)
    (hframe : config.1.frame = configFrame sizes) : ReadsConfig sizes config.1 := by
  have htype : config.1.header.type = .config := congrArg Frame.type hframe
  have hsize : config.1.header.payloadSize = 16 := congrArg Frame.payloadSize hframe
  have hpayload : config.1.payload =
      sizesBytes sizes.inputSize sizes.outputSize 0 ++ u32Bytes processingDelay :=
    congrArg Frame.payload hframe
  obtain ⟨hinput, houtput, hblocks⟩ := sizes_of_payload hpayload
  refine ⟨?_, hinput, houtput, hblocks, ?_⟩
  · rw [isValidConfig, config.2, htype, hblocks, hsize]
    rfl
  · rw [getRbfSize, getRbfOffset, hsize, hblocks]
    rfl

/-- A node takes the configuration. -/
theorem ReadsConfig.taken {config : Message} (h : ReadsConfig sizes config) :
    ¬(config.inputSize < config.outputSize ∨ config.inputSize < 16 ∨
      config.numBlocks ≠ 0 ∨ config.getRbfSize ≠ 4) := by
  rw [h.input_eq, h.output_eq, h.noBlocks, h.rbf_eq]
  have houtput := sizes.output_le
  have henough := sizes.enough
  have hsixteen : (16 : UInt32).toNat = 16 := rfl
  simp only [UInt32.lt_iff_toNat_lt, hsixteen, ne_eq, not_true_eq_false, or_false]
  omega

theorem inputSize_ne_zero (sizes : BenchSizes) : sizes.inputSize ≠ 0 := by
  have henough := sizes.enough
  exact BenchNode.ne_zero_of_toNat_pos (by omega)

theorem outputSize_ne_zero (sizes : BenchSizes) : sizes.outputSize ≠ 0 := by
  have hstamp := sizes.stamp_le
  exact BenchNode.ne_zero_of_toNat_pos (by omega)

/-- A frame with one block as the accessors of its message see it. -/
theorem holdsBlocks_of_frame {message : Message} {size : UInt32}
    (h : message.frame.HoldsBlock size) : message.HoldsBlocks size 1 :=
  ⟨h.type_eq, by rw [Nat.one_mul]; exact h.size_eq⟩

theorem isValidData_of_frame (message : ValidMessage) {size : UInt32}
    (hsize : size ≠ 0) (h : message.1.frame.HoldsBlock size) :
    message.1.isValidData size = some true :=
  (holdsBlocks_of_frame h).accepted message hsize

theorem getDataBlockCount_of_frame (message : ValidMessage) {size : UInt32}
    (hsize : size ≠ 0) (h : message.1.frame.HoldsBlock size) :
    message.1.getDataBlockCount size = some 1 := by
  obtain ⟨counted, hcounted, hone⟩ :=
    ((holdsBlocks_of_frame h).counts message hsize).count_eq
  rw [hcounted, UInt32.toNat_inj.mp (hone.trans (show 1 = (1 : UInt32).toNat from rfl))]

theorem length_payload_of_frame (message : ValidMessage) {size : UInt32}
    (h : message.1.frame.HoldsBlock size) :
    message.1.payload.length = sizeofData + size.toNat :=
  ((isValidMessage_iff message.1).mp message.2).2.1.trans h.size_eq

/-- A message with room for a stamp behind its id, once the stamp is stored. -/
theorem store_stamp {message : Message} {id : UInt32} {rest t : List UInt8}
    (hpayload : message.payload = u32Bytes id ++ rest) (ht : t.length = 8)
    (hroom : 8 ≤ rest.length) :
    ∃ stored, message.store sizeofData t = some stored ∧
      stored.header = message.header ∧
      stored.payload.length = message.payload.length ∧
        stored.frame.benchKey = (id, t) := by
  obtain ⟨stored, hstore, hheader, hstored⟩ :=
    store_append hpayload (show t.length ≤ rest.length by rw [ht]; exact hroom)
  refine ⟨stored, hstore, hheader, ?_, ?_⟩
  · rw [hstored, hpayload, List.length_append, List.length_append,
      List.length_append, List.length_drop]
    omega
  · rw [List.append_assoc] at hstored
    have hdrop : (u32Bytes id ++ (t ++ rest.drop t.length)).drop sizeofData =
        t ++ rest.drop t.length := by
      change (u32Bytes id ++ _).drop (u32Bytes id).length = _
      exact List.drop_left
    rw [Frame.benchKey, frame, hstored, u32At_u32Bytes_append, hdrop, ← ht,
      List.take_left]

/-- One block made by `new_data`, once a stamp is stored. -/
theorem newData_stamp (memory : Memory) {size : UInt32} (id : UInt32)
    {t : List UInt8} (ht : t.length = 8) (hstamp : 8 ≤ size.toNat)
    (hsmall : size.toNat + 12 < 2 ^ 32) :
    ∃ message stored, newData memory size 1 id = some message ∧
      message.store sizeofData t = some stored ∧ stored.isValidMessage = true ∧
        stored.frame.HoldsBlock size ∧ stored.frame.benchKey = (id, t) := by
  have hbytes : dataBytes size 1 = sizeofData + size.toNat := by
    rw [dataBytes, show (1 : UInt32).toNat = 1 from rfl, Nat.mul_one]
  have hexact : dataBytes size 1 < 2 ^ 32 := by
    rw [hbytes, sizeofData]
    omega
  obtain ⟨message, rest, hsome, hheader, hpayload, hrest⟩ :=
    BenchNode.newData_exact memory id hexact
  rw [show (1 : UInt32).toNat = 1 from rfl, Nat.mul_one] at hrest
  obtain ⟨stored, hstore, hsame, hlength, hkey⟩ :=
    store_stamp hpayload ht (hrest ▸ hstamp)
  rw [hheader] at hsame
  rw [hpayload, List.length_append, hrest, length_u32Bytes] at hlength
  refine ⟨message, stored, hsome, hstore, ?_, ⟨?_, ?_⟩, hkey⟩
  · refine (isValidMessage_allocated (by decide) ?_ hsame
      (hlength.trans hbytes.symm)).mpr ?_
    · rw [hbytes, sizeofData]
      omega
    · rw [hbytes, sizeofData, sizeofHeader]
      omega
  · rw [frame, hsame]
  · rw [frame, hsame, UInt32.toNat_ofNat', Nat.mod_eq_of_lt hexact, hbytes]

theorem newInput_spec (sizes : BenchSizes) (memory : Memory) (currId : UInt32)
    {t : List UInt8} (ht : t.length = 8) :
    ∃ input, newInput sizes memory currId t = some input ∧
      input.isValidMessage = true ∧ input.frame.HoldsBlock sizes.inputSize ∧
        input.frame.benchKey = (currId, t) := by
  have henough := sizes.enough
  obtain ⟨message, input, hsome, hstore, hinput⟩ :=
    newData_stamp memory currId ht (by omega) sizes.small
  refine ⟨input, ?_, hinput⟩
  rw [newInput, hsome, Option.bind_some, hstore]

/-- A node's reply to an input of one block has the id and the stamp of the
input. -/
theorem processInput_spec (memory : Memory) {config : Message}
    (hconfig : ReadsConfig sizes config) (input : ValidMessage)
    (hinput : input.1.frame.HoldsBlock sizes.inputSize) :
    ∃ output, BenchNode.processInput memory config input.1 = some output ∧
      output.isValidMessage = true ∧ output.frame.HoldsBlock sizes.outputSize ∧
        output.frame.benchKey = input.1.frame.benchKey := by
  have henough := sizes.enough
  have houtput := sizes.output_le
  have hsmall := sizes.small
  have hlength := length_payload_of_frame input hinput
  have hread : Buffer.read input.1.payload sizeofData 8 =
      some ((input.1.payload.drop sizeofData).take 8) :=
    Buffer.read_of_le (by omega)
  have hstamp : ((input.1.payload.drop sizeofData).take 8).length = 8 := by
    rw [List.length_take, List.length_drop]
    omega
  obtain ⟨message, output, hsome, hstore, hgood⟩ := newData_stamp memory
    input.1.dataId hstamp sizes.stamp_le (by omega)
  refine ⟨output, ?_, hgood⟩
  rw [BenchNode.processInput, hconfig.input_eq, hconfig.output_eq,
    getDataBlockCount_of_frame input (inputSize_ne_zero sizes) hinput]
  simp only [Option.bind_eq_bind, Option.bind_some, hsome, BenchNode.copyData, hread,
    hstore]

/-- The user takes a reply of one block. -/
theorem examine_of_frame (result : ValidMessage)
    (h : result.1.frame.HoldsBlock sizes.outputSize) :
    examine sizes result.1 = some (.accepted result.1.frame.benchKey.2) := by
  have hzero := outputSize_ne_zero sizes
  have hstamp := sizes.stamp_le
  have hlength := length_payload_of_frame result h
  have htype : result.1.header.type = .data := h.type_eq
  simp only [examine, result.2, htype, isValidData_of_frame result hzero h,
    getDataBlockCount_of_frame result hzero h]
  rw [Buffer.read_of_le (by omega)]
  rfl

end BenchUser

end FpgaFramework
