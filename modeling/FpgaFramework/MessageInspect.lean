/-
Looking into untrusted messages.  The checks and `print` with every read of the
payload made explicit, and which received messages they inspect in bounds.
-/
import FpgaFramework.MessageData

namespace FpgaFramework

/-- One line of output: a label, bytes in hexadecimal, and what follows them. -/
structure Line where
  label : String
  bytes : List UInt8
  note : String
deriving Repr, DecidableEq

/-- `" (" << value << ")"`. -/
def parenthesised (text : String) : String := " (" ++ text ++ ")"

def hexLut : List Char :=
  ['0', '1', '2', '3', '4', '5', '6', '7', '8', '9', 'A', 'B', 'C', 'D', 'E', 'F']

/-- `to_hex`, for so many digits. -/
def toHex : Nat → Nat → List Char
  | 0, _ => []
  | digits + 1, value =>
      toHex digits (value / 16) ++ [hexLut.getD (value % 16) '0']

/-- A loop of fallible turns succeeds when every turn does. -/
theorem isSome_mapM_iff {α : Type*} {β : Type*} (f : α → Option β) (items : List α) :
    (items.mapM f).isSome = true ↔ ∀ item ∈ items, (f item).isSome = true := by
  induction items with
  | nil => simp
  | cons first rest ih =>
      rw [List.mapM_cons, List.forall_mem_cons, ← ih]
      cases f first with
      | none => simp
      | some value =>
          cases rest.mapM f with
          | none => simp
          | some values => simp

theorem isSome_bind_iff {α : Type*} {β : Type*} (x : Option α) (f : α → Option β) :
    (x.bind f).isSome = true ↔ ∃ a, x = some a ∧ (f a).isSome = true := by
  cases x with
  | none => simp
  | some a => simp

namespace Message

/-! Every function below that reads the payload has no result as soon as it
reads a byte that is not there. -/

def fetch (message : Message) (offset length : Nat) : Option (List UInt8) :=
  Buffer.read message.payload offset length

def fetchU32 (message : Message) (offset : Nat) : Option UInt32 :=
  (message.fetch offset 4).map fun bytes => u32At bytes 0

/-- The reads of `message_s::is_valid_config`: `num_blocks` is read only in a
valid CONFIG message. -/
def checkConfig (message : Message) : Option Bool :=
  if message.isValidMessage && message.header.type == .config then
    (message.fetchU32 8).map fun numBlocks =>
      decide (sizeofConfig + numBlocks.toNat * sizeofBlockInfo ≤
        message.header.payloadSize.toNat)
  else some false

/-- The reads of `message_s::is_valid_config_resp`. -/
def checkConfigResp (message : Message) : Option Bool :=
  if message.isValidMessage && message.header.type == .configResp &&
      message.header.payloadSize == UInt32.ofNat sizeofConfigResp then
    (message.fetch 0 1).map fun bytes =>
      ConfigRespStatus.mk (bytes.getD 0 0) == .success ||
        ConfigRespStatus.mk (bytes.getD 0 0) == .error
  else some false

/-- The reads of `message_s::is_valid_data(data_block_size)`, which are all in the
header; the inner `none` is its division by zero. -/
def checkData (message : Message) (dataBlockSize : UInt32) :
    Option (Option Bool) :=
  some (message.isValidData dataBlockSize)

/-- The offsets at which the second loop of `print_bytes` starts a line.  Its
counter is an `int`: from 2^31 on it is negative, which ends the loop. -/
def tailOffsets (length bytesPerLine : Nat) : List Nat :=
  ((List.range 4).map fun line =>
    length - 4 * bytesPerLine + line * bytesPerLine).takeWhile (· < 2 ^ 31)

/-- One line of `print_bytes`. -/
def printLine (message : Message) (data : Nat) (pre : String)
    (offset count : Nat) : Option Line :=
  (message.fetch (data + offset) count).map fun bytes => ⟨pre, bytes, ""⟩

/-- `print_bytes`, for `length` bytes from offset `data` of the payload on. -/
def printBytes (message : Message) (data length bytesPerLine : Nat)
    (pre : String) : Option (List Line) :=
  if 8 * bytesPerLine < length then do
    let first ← (List.range 4).mapM fun line =>
      message.printLine data pre (line * bytesPerLine) bytesPerLine
    let last ← (tailOffsets length bytesPerLine).mapM fun offset =>
      message.printLine data pre offset bytesPerLine
    some (first ++ ⟨pre ++ "...", [], ""⟩ :: last)
  else
    (List.range ((length + bytesPerLine - 1) / bytesPerLine)).mapM fun line =>
      if line * bytesPerLine + bytesPerLine < length then
        message.printLine data pre (line * bytesPerLine) bytesPerLine
      else
        message.printLine data pre (line * bytesPerLine)
          (length - line * bytesPerLine)

/-- A word of the payload as `print` shows it, byte by byte and as a number. -/
def printU32 (message : Message) (label : String) (offset : Nat) :
    Option Line :=
  (message.fetchU32 offset).map fun value =>
    ⟨label, u32Bytes value, parenthesised (toString value.toNat)⟩

/-- One turn of the loop of `print` over the block records.  A counter that
overflows is out of the question: the payload ends long before. -/
def printBlock (message : Message) (pre : String) (index : Nat) :
    Option (List Line) := do
  let info := getBlockInfo (UInt32.ofNat index)
  let control ← message.printU32 (pre ++ "cBase:\t") info
  let input ← message.printU32 (pre ++ "iBase:\t") (info + 4)
  let output ← message.printU32 (pre ++ "oBase:\t") (info + 8)
  some [⟨pre ++ "Blk #" ++ toString (index + 1), [], ""⟩, control, input, output]

/-- The CONFIG branch of `print`. -/
def printConfig (message : Message) (pre : String) : Option (List Line) := do
  let inputSize ← message.printU32 (pre ++ "iSize:\t") 0
  let outputSize ← message.printU32 (pre ++ "oSize:\t") 4
  let numBlocks ← message.printU32 (pre ++ "nBlk:\t") 8
  let blocks ← (List.range message.numBlocks.toNat).mapM (message.printBlock pre)
  let rbf ← message.printBytes message.getRbfPtr message.getRbfSize.toNat 16
    (pre ++ "\t")
  some ([inputSize, outputSize, numBlocks] ++ blocks.flatten ++
    ⟨pre ++ "RBF:", [], ""⟩ :: rbf)

/-- The CONFIG_RESP branch of `print`. -/
def printConfigResp (message : Message) (pre : String) : Option (List Line) :=
  (message.fetch 0 1).map fun bytes =>
    [⟨pre ++ "Status:\t", bytes, parenthesised
      (if ConfigRespStatus.mk (bytes.getD 0 0) == .success then "SUCCESS"
        else "ERROR")⟩]

/-- The DATA branch of `print`. -/
def printData (message : Message) (pre : String) : Option (List Line) := do
  let id ← (message.fetchU32 0).map fun id =>
    (⟨pre ++ "ID:\t", u32Bytes id,
      parenthesised ("0x" ++ String.ofList (toHex 8 id.toNat))⟩ : Line)
  let data ← message.printBytes sizeofData message.getDataSize.toNat 4
    (pre ++ "\t")
  some (id :: ⟨pre ++ "Data:", [], ""⟩ :: data)

/-- What `print` calls the type. -/
def typeName (type : MessageType) : String :=
  if type = .undefined then "UNDEFINED"
  else if type = .config then "CONFIG"
  else if type = .configResp then "CONFIG_RESP"
  else if type = .data then "DATA"
  else "UNKNOWN"

/-- Lines that are written behind a label, without a line break after it. -/
def continueLine (label : String) : List Line → List Line
  | [] => [⟨label, [], ""⟩]
  | first :: rest => { first with label := label ++ first.label } :: rest

/-- The second `switch` of `print`.  Only the branch of an undefined message goes
on in the line of its label. -/
def printPayload (message : Message) (pre : String) : Option (List Line) :=
  if message.header.type = .undefined then
    (message.printBytes 0 message.header.payloadSize.toNat 4 (pre ++ "\t")).map
      (continueLine (pre ++ "Data:"))
  else if message.header.type = .config then message.printConfig pre
  else if message.header.type = .configResp then message.printConfigResp pre
  else if message.header.type = .data then message.printData pre
  else some []

/-- `message_s::print`.  The first line shows the type byte and the three bytes
behind it. -/
def print (message : Message) (pre : String) : Option (List Line) :=
  (message.printPayload pre).map fun lines =>
    ⟨pre ++ "Type:\t", message.header.asBytes.take 4,
        parenthesised (typeName message.header.type)⟩ ::
      ⟨pre ++ "Size:\t", u32Bytes message.header.payloadSize,
        parenthesised (toString message.header.payloadSize.toNat)⟩ :: lines

theorem fetch_isSome_iff (message : Message) (offset length : Nat) :
    (message.fetch offset length).isSome = true ↔
      offset + length ≤ message.payload.length :=
  Buffer.read_isSome_iff message.payload offset length

theorem fetchU32_isSome_iff (message : Message) (offset : Nat) :
    (message.fetchU32 offset).isSome = true ↔
      offset + 4 ≤ message.payload.length := by
  rw [fetchU32, Option.isSome_map, fetch_isSome_iff]

theorem printU32_isSome_iff (message : Message) (label : String) (offset : Nat) :
    (message.printU32 label offset).isSome = true ↔
      offset + 4 ≤ message.payload.length := by
  rw [printU32, Option.isSome_map, fetchU32_isSome_iff]

theorem printLine_isSome_iff (message : Message) (data : Nat) (pre : String)
    (offset count : Nat) :
    (message.printLine data pre offset count).isSome = true ↔
      data + offset + count ≤ message.payload.length := by
  rw [printLine, Option.isSome_map, fetch_isSome_iff]

/-- The bytes that `print_bytes` shows are those it is given. -/
theorem printBytes_isSome {message : Message} {data length bytesPerLine : Nat}
    (pre : String) (hpos : 0 < bytesPerLine)
    (h : data + length ≤ message.payload.length) :
    (message.printBytes data length bytesPerLine pre).isSome = true := by
  unfold printBytes
  split
  · next hlong =>
      have hfirst : ((List.range 4).mapM fun line => message.printLine data pre
          (line * bytesPerLine) bytesPerLine).isSome = true := by
        rw [isSome_mapM_iff]
        intro line hline
        rw [printLine_isSome_iff]
        have hstop := record_stop_le (List.mem_range.mp hline) bytesPerLine
        omega
      have hlast : ((tailOffsets length bytesPerLine).mapM fun offset =>
          message.printLine data pre offset bytesPerLine).isSome = true := by
        rw [isSome_mapM_iff]
        intro offset hoffset
        obtain ⟨line, hline, rfl⟩ := List.mem_map.mp
          (List.takeWhile_subset _ hoffset)
        rw [printLine_isSome_iff]
        have hstop := record_stop_le (List.mem_range.mp hline) bytesPerLine
        omega
      obtain ⟨first, hfirst⟩ := Option.isSome_iff_exists.mp hfirst
      obtain ⟨last, hlast⟩ := Option.isSome_iff_exists.mp hlast
      simp only [hfirst, hlast, Option.bind_eq_bind, Option.bind_some,
        Option.isSome_some]
  · rw [isSome_mapM_iff]
    intro line hline
    have hstart : line * bytesPerLine < length := by
      have hlines := List.mem_range.mp hline
      rw [Nat.lt_div_iff_mul_lt hpos] at hlines
      omega
    split
    · rw [printLine_isSome_iff]
      omega
    · rw [printLine_isSome_iff]
      omega

/-- `print` and the checks read no byte outside of the message. -/
structure InspectedInBounds (message : Message) : Prop where
  print_isSome : ∀ pre, (message.print pre).isSome = true
  checkConfig_isSome : message.checkConfig.isSome = true
  checkConfigResp_isSome : message.checkConfigResp.isSome = true
  checkData_isSome : ∀ dataBlockSize, (message.checkData dataBlockSize).isSome = true

theorem printBlock_isSome_iff (message : Message) (pre : String) (index : Nat) :
    (message.printBlock pre index).isSome = true ↔
      getBlockInfo (UInt32.ofNat index) + sizeofBlockInfo ≤
        message.payload.length := by
  -- No read depends on what an earlier one has found.
  simp only [printBlock, Option.bind_eq_bind, isSome_bind_iff,
    Option.isSome_some, and_true, exists_and_right, ← Option.isSome_iff_exists,
    printU32_isSome_iff, sizeofBlockInfo]
  omega

/-- The records are printed in bounds exactly when they lie in the payload. -/
theorem printBlocks_isSome_iff (message : Message) (pre : String) (count : Nat)
    (hcount : count < 2 ^ 32) (hfixed : sizeofConfig ≤ message.payload.length) :
    ((List.range count).mapM (message.printBlock pre)).isSome = true ↔
      sizeofConfig + count * sizeofBlockInfo ≤ message.payload.length := by
  have hrecord : ∀ index < count, getBlockInfo (UInt32.ofNat index) +
      sizeofBlockInfo = sizeofConfig + (index + 1) * sizeofBlockInfo := by
    intro index hindex
    rw [getBlockInfo, UInt32.toNat_ofNat', Nat.mod_eq_of_lt (by omega),
      Nat.succ_mul, Nat.add_assoc]
  rw [isSome_mapM_iff]
  constructor
  · intro hall
    cases count with
    | zero => simpa using hfixed
    | succ last =>
        have hlast := hall last (List.mem_range.mpr (Nat.lt_succ_self last))
        rw [printBlock_isSome_iff, hrecord last (Nat.lt_succ_self last)] at hlast
        exact hlast
  · intro hle index hmem
    have hindex := List.mem_range.mp hmem
    rw [printBlock_isSome_iff, hrecord index hindex]
    have hmul := Nat.mul_le_mul_right sizeofBlockInfo hindex
    exact (Nat.add_le_add_left hmul sizeofConfig).trans hle

/-- A configuration is printed in bounds exactly when its fixed part and the
records it announces lie in the payload. -/
theorem printConfig_isSome_iff (message : ValidMessage) (pre : String) :
    (message.1.printConfig pre).isSome = true ↔
      sizeofConfig ≤ message.1.header.payloadSize.toNat ∧
        sizeofConfig + message.1.numBlocks.toNat * sizeofBlockInfo ≤
          message.1.header.payloadSize.toNat := by
  have hblocks := printBlocks_isSome_iff message.1 pre
    message.1.numBlocks.toNat message.1.numBlocks.toNat_lt
  have hlength := ((isValidMessage_iff message.1).mp message.2).2.1
  simp only [printConfig, Option.bind_eq_bind, isSome_bind_iff,
    Option.isSome_some, and_true, exists_and_right, ← Option.isSome_iff_exists,
    printU32_isSome_iff]
  rw [hlength] at hblocks ⊢
  constructor
  · rintro ⟨_, _, hfixed, hall, _⟩
    exact ⟨hfixed, (hblocks hfixed).mp hall⟩
  · rintro ⟨hfixed, hfits⟩
    have hrbf : message.1.getRbfPtr + message.1.getRbfSize.toNat ≤
        message.1.payload.length := by
      rw [getRbfPtr, getRbfOffset_of_fits hfits, hlength]
      exact Nat.le_of_eq (getRbfSize_of_fits hfits)
    have hall := (hblocks hfixed).mpr hfits
    simp only [sizeofConfig] at hfixed
    exact ⟨by omega, by omega, by omega, hall,
      printBytes_isSome (pre ++ "\t") (by decide) hrbf⟩

/-- A DATA message is printed in bounds exactly when it has room for its id. -/
theorem printData_isSome_iff (message : ValidMessage) (pre : String) :
    (message.1.printData pre).isSome = true ↔
      sizeofData ≤ message.1.header.payloadSize.toNat := by
  have hlength := ((isValidMessage_iff message.1).mp message.2).2.1
  simp only [printData, Option.bind_eq_bind, isSome_bind_iff,
    Option.isSome_some, and_true, exists_and_right, ← Option.isSome_iff_exists,
    Option.isSome_map, fetchU32_isSome_iff]
  rw [hlength]
  constructor
  · rintro ⟨hid, _⟩
    exact hid
  · intro hroom
    have hdata : sizeofData + message.1.getDataSize.toNat ≤
        message.1.payload.length := by
      rw [getDataSize_of_le hroom, hlength]
      omega
    exact ⟨hroom, printBytes_isSome (pre ++ "\t") (by decide) hdata⟩

theorem fetchU32_eq_some {message : Message} {offset : Nat} {value : UInt32}
    (h : message.fetchU32 offset = some value) :
    value = u32At message.payload offset := by
  have hroom := (fetchU32_isSome_iff message offset).mp
    (Option.isSome_of_eq_some h)
  rw [fetchU32, fetch, Buffer.read_of_le hroom, Option.map_some,
    Option.some.injEq] at h
  have hget : ∀ k, k < 4 → ((message.payload.drop offset).take 4).getD k 0 =
      message.payload.getD (offset + k) 0 := by
    intro k hk
    rw [List.getD_eq_getElem?_getD, List.getD_eq_getElem?_getD,
      List.getElem?_take_of_lt hk, List.getElem?_drop]
  rw [← h, u32At, u32At, hget 0 (by decide), hget (0 + 1) (by decide),
    hget (0 + 2) (by decide), hget (0 + 3) (by decide)]
  simp only [Nat.add_zero, Nat.zero_add]

/-- Where the reads of `is_valid_config` are in bounds, its answer is the one
the session goes by. -/
theorem checkConfig_eq_some {message : Message} {accepted : Bool}
    (h : message.checkConfig = some accepted) :
    accepted = message.isValidConfig := by
  rw [checkConfig] at h
  split at h
  · next hconfig =>
      obtain ⟨numBlocks, hnum, hcheck⟩ := Option.map_eq_some_iff.mp h
      rw [fetchU32_eq_some hnum] at hcheck
      rw [← hcheck, isValidConfig, hconfig, Bool.true_and]
      rfl
  · next hother =>
      rw [Bool.not_eq_true] at hother
      rw [isValidConfig, hother, Bool.false_and]
      exact (Option.some.inj h).symm

theorem checkConfigResp_eq_some {message : Message} {accepted : Bool}
    (h : message.checkConfigResp = some accepted) :
    accepted = message.isValidConfigResp := by
  rw [checkConfigResp] at h
  split at h
  · next hresp =>
      obtain ⟨bytes, hbytes, hcheck⟩ := Option.map_eq_some_iff.mp h
      have hroom := (fetch_isSome_iff message 0 1).mp
        (Option.isSome_of_eq_some hbytes)
      rw [fetch, Buffer.read_of_le hroom, Option.some.injEq] at hbytes
      have hfirst : bytes.getD 0 0 = message.payload.getD 0 0 := by
        rw [← hbytes, List.drop_zero, List.getD_eq_getElem?_getD,
          List.getD_eq_getElem?_getD, List.getElem?_take_of_lt (by decide)]
      rw [hfirst] at hcheck
      rw [← hcheck, isValidConfigResp, hresp, Bool.true_and]
      rfl
  · next hother =>
      rw [Bool.not_eq_true] at hother
      rw [isValidConfigResp, hother, Bool.false_and]
      exact (Option.some.inj h).symm

theorem print_isSome (message : Message) (pre : String) :
    (message.print pre).isSome = (message.printPayload pre).isSome :=
  Option.isSome_map

theorem printPayload_of_config {message : Message} (pre : String)
    (h : message.header.type = .config) :
    message.printPayload pre = message.printConfig pre := by
  rw [printPayload, h, if_neg (by decide), if_pos rfl]

theorem printPayload_of_configResp {message : Message} (pre : String)
    (h : message.header.type = .configResp) :
    message.printPayload pre = message.printConfigResp pre := by
  rw [printPayload, h, if_neg (by decide), if_neg (by decide), if_pos rfl]

theorem printPayload_of_data {message : Message} (pre : String)
    (h : message.header.type = .data) :
    message.printPayload pre = message.printData pre := by
  rw [printPayload, h, if_neg (by decide), if_neg (by decide),
    if_neg (by decide), if_pos rfl]

/-- A CONFIG message whose fixed part and records lie in the payload, a DATA
message with room for its id, or a CONFIG_RESP message. -/
def FitsItsType (message : Message) : Prop :=
  (message.header.type = .config →
      sizeofConfig ≤ message.header.payloadSize.toNat ∧
        sizeofConfig + message.numBlocks.toNat * sizeofBlockInfo ≤
          message.header.payloadSize.toNat) ∧
    (message.header.type = .data →
      sizeofData ≤ message.header.payloadSize.toNat)

theorem FitsItsType.printPayload_isSome {message : ValidMessage}
    (h : message.1.FitsItsType) (pre : String) :
    (message.1.printPayload pre).isSome = true := by
  obtain ⟨hgood, hlength, _⟩ := (isValidMessage_iff message.1).mp message.2
  obtain ⟨hknown, hpos⟩ := (Header.isValid_iff message.1.header).mp hgood
  simp only [knownTypes, List.mem_cons, List.not_mem_nil, or_false] at hknown
  rcases hknown with hconfig | hresp | hdata
  · rw [printPayload_of_config pre hconfig, printConfig_isSome_iff]
    exact h.1 hconfig
  · rw [printPayload_of_configResp pre hresp, printConfigResp, Option.isSome_map,
      fetch_isSome_iff, hlength]
    omega
  · rw [printPayload_of_data pre hdata, printData_isSome_iff]
    exact h.2 hdata

/-- A received message is inspected in bounds exactly when it fits its type. -/
theorem inspectedInBounds_iff (message : ValidMessage) :
    message.1.InspectedInBounds ↔ message.1.FitsItsType := by
  obtain ⟨hgood, hlength, _⟩ := (isValidMessage_iff message.1).mp message.2
  have hpos := Header.payloadSize_pos_of_isValid hgood
  constructor
  · intro hinspected
    have hprint := hinspected.print_isSome ""
    rw [print_isSome] at hprint
    constructor
    · intro hconfig
      rw [printPayload_of_config "" hconfig, printConfig_isSome_iff] at hprint
      exact hprint
    · intro hdata
      rw [printPayload_of_data "" hdata, printData_isSome_iff] at hprint
      exact hprint
  · intro hfits
    constructor
    · intro pre
      rw [print_isSome]
      exact hfits.printPayload_isSome pre
    · rw [checkConfig]
      split
      · next hconfig =>
          have htype : message.1.header.type = .config := by
            simpa [message.2] using hconfig
          rw [Option.isSome_map, fetchU32_isSome_iff, hlength]
          exact (hfits.1 htype).1
      · rfl
    · rw [checkConfigResp]
      split
      · rw [Option.isSome_map, fetch_isSome_iff, hlength]
        omega
      · rfl
    · intro dataBlockSize
      rfl

/-- A CONFIG message with a single payload byte is received, and both `print` and
`is_valid_config` read past its end. -/
theorem print_shortConfig :
    ∃ message after,
      (Inbound.ofStream (ofPayload .config [7]).asBytes (fun _ => 1)
          (fun _ _ => 0)).receiveMessage = (.ok message, after) ∧
        message.1.print "" = none ∧ message.1.checkConfig = none ∧
        ¬message.1.InspectedInBounds := by
  obtain ⟨message, after, hreceived, hframe⟩ := receiveMessage_ofStream
    (ofPayload .config [7]) (by rfl) (fun _ => 1) (fun _ _ => 0)
  have htype : message.1.header.type = .config := congrArg Frame.type hframe
  have hpayload : message.1.payload = [7] := congrArg Frame.payload hframe
  have hprint : message.1.print "" = none := by
    rw [print, printPayload_of_config "" htype, printConfig, printU32, fetchU32,
      fetch, hpayload]
    rfl
  refine ⟨message, after, hreceived, hprint, ?_, ?_⟩
  · rw [checkConfig, message.2, htype, fetchU32, fetch, hpayload]
    rfl
  · intro hinspected
    have hsome := hinspected.print_isSome ""
    rw [hprint] at hsome
    cases hsome

end Message

end FpgaFramework
