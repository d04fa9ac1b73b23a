/-
Message objects.  The header and payload bytes, the size that was allocated
for them, and the validity checks that both ends of a connection apply.
-/
import FpgaFramework.Framing
import Mathlib.Data.Vector.Basic

namespace FpgaFramework

/-- `enum class MessageType: uint8_t`.  The byte comes from the peer, so it
need not be one of the four named values. -/
structure MessageType where
  byte : UInt8
deriving Repr, DecidableEq

namespace MessageType

def undefined : MessageType := ⟨0⟩
def config : MessageType := ⟨1⟩
def configResp : MessageType := ⟨2⟩
def data : MessageType := ⟨3⟩

end MessageType

/-- `enum class ConfigRespStatus: uint8_t`. -/
structure ConfigRespStatus where
  byte : UInt8
deriving Repr, DecidableEq

namespace ConfigRespStatus

def success : ConfigRespStatus := ⟨0⟩
def error : ConfigRespStatus := ⟨1⟩

end ConfigRespStatus

/-! The packed sizes, with a 64-bit `unsigned long`. -/

def sizeofAllocInfo : Nat := 8
def sizeofHeader : Nat := 8
def sizeofConfig : Nat := 12
def sizeofBlockInfo : Nat := 12
def sizeofConfigResp : Nat := 1
def sizeofData : Nat := 4

/-- `header_u`: the three bytes after the type are never interpreted. -/
structure Header where
  type : MessageType
  reserved : Vector UInt8 3
  payloadSize : UInt32
deriving Repr, DecidableEq

/-- `header_u::is_valid`. -/
def Header.isValid (header : Header) : Bool :=
  (header.type == .config || header.type == .configResp ||
    header.type == .data) && decide (0 < header.payloadSize.toNat)

/-- `header_u::as_bytes`. -/
def Header.asBytes (header : Header) : List UInt8 :=
  header.type.byte :: header.reserved.toList ++ u32Bytes header.payloadSize

/-- The header that eight received bytes spell. -/
def Header.ofBytes (bytes : List UInt8) : Header where
  type := ⟨bytes.getD 0 0⟩
  reserved := Vector.ofFn fun i => bytes.getD (1 + i) 0
  payloadSize := u32At bytes 4

@[simp] theorem Header.length_asBytes (header : Header) :
    header.asBytes.length = sizeofHeader := by
  simp [Header.asBytes, sizeofHeader]

@[simp] theorem Header.ofBytes_asBytes_type (header : Header) :
    (Header.ofBytes header.asBytes).type = header.type := rfl

@[simp] theorem Header.ofBytes_asBytes_payloadSize (header : Header) :
    (Header.ofBytes header.asBytes).payloadSize = header.payloadSize := by
  have hsplit : header.asBytes =
      (header.type.byte :: header.reserved.toList) ++
        (u32Bytes header.payloadSize ++ []) := by
    simp [Header.asBytes]
  have hfour : 4 = (header.type.byte :: header.reserved.toList).length + 0 := by
    simp
  change u32At header.asBytes 4 = header.payloadSize
  rw [hsplit, hfour, u32At_append_right, u32At_u32Bytes_append]

theorem Header.asBytes_ofBytes {bytes : List UInt8}
    (hlength : bytes.length = sizeofHeader) :
    (Header.ofBytes bytes).asBytes = bytes := by
  match bytes, hlength with
  | [b₀, b₁, b₂, b₃, b₄, b₅, b₆, b₇], _ =>
      have hword : u32At [b₀, b₁, b₂, b₃, b₄, b₅, b₆, b₇] 4 =
          u32At [b₄, b₅, b₆, b₇] 0 := rfl
      simp only [Header.asBytes, Header.ofBytes, hword, u32Bytes_u32At]
      rfl

/-- `message_s`.  `alloc_info` is private and written once, by the constructor
that allocated the block, so it always tells how many bytes follow. -/
structure Message where
  allocSize : Nat
  header : Header
  payload : List UInt8
  alloc_eq : allocSize = sizeofAllocInfo + sizeofHeader + payload.length
deriving Repr, DecidableEq

namespace Message

/-- `message_s::as_bytes`, as far as the block reaches. -/
def asBytes (message : Message) : List UInt8 :=
  message.header.asBytes ++ message.payload

/-- `message_s::get_message_size`: the 64-bit sum is returned as a
`uint32_t`. -/
def getMessageSize (message : Message) : UInt32 :=
  UInt32.ofNat (sizeofHeader + message.header.payloadSize.toNat)

/-- `message_s::has_valid_payload_size`. -/
def hasValidPayloadSize (message : Message) : Bool :=
  message.allocSize == sizeofAllocInfo + message.getMessageSize.toNat

/-- `message_s::is_valid_message`. -/
def isValidMessage (message : Message) : Bool :=
  message.header.isValid && message.hasValidPayloadSize

/-! `payload_u::config_s`. -/

def inputSize (message : Message) : UInt32 := u32At message.payload 0
def outputSize (message : Message) : UInt32 := u32At message.payload 4
def numBlocks (message : Message) : UInt32 := u32At message.payload 8

/-- `payload_u::config_resp_s::status`. -/
def status (message : Message) : ConfigRespStatus := ⟨message.payload.getD 0 0⟩

/-- `message_s::is_valid_config`. -/
def isValidConfig (message : Message) : Bool :=
  message.isValidMessage && message.header.type == .config &&
    decide (sizeofConfig + message.numBlocks.toNat * sizeofBlockInfo ≤
      message.header.payloadSize.toNat)

/-- `message_s::is_valid_config_resp`. -/
def isValidConfigResp (message : Message) : Bool :=
  message.isValidMessage && message.header.type == .configResp &&
    message.header.payloadSize == UInt32.ofNat sizeofConfigResp &&
    (message.status == .success || message.status == .error)

/-- `message_s::get_data_size`: an unsigned subtraction. -/
def getDataSize (message : Message) : UInt32 :=
  message.header.payloadSize - UInt32.ofNat sizeofData

/-- `message_s::is_valid_data(data_block_size)`.  The remainder is evaluated
only for a valid DATA message; `none` is its division by zero. -/
def isValidData (message : Message) (dataBlockSize : UInt32) : Option Bool :=
  if message.isValidMessage && message.header.type == .data then
    if dataBlockSize = 0 then none
    else some (message.getDataSize % dataBlockSize == 0)
  else some false

/-- What a freshly allocated block holds, by offset. -/
abbrev Memory := Nat → UInt8

/-- The reserved header bytes of a block that no constructor writes. -/
def reservedOf (memory : Memory) : Vector UInt8 3 :=
  Vector.ofFn fun i => memory (sizeofAllocInfo + 1 + i)

/-- The payload bytes of a fresh block. -/
def payloadOf (memory : Memory) (length : Nat) : List UInt8 :=
  (List.range length).map fun i => memory (sizeofAllocInfo + sizeofHeader + i)

/-- `message_s::new_message`. -/
def newMessage (memory : Memory) (payloadSize : UInt32) : Message where
  allocSize := sizeofAllocInfo + sizeofHeader + payloadSize.toNat
  header := ⟨.undefined, reservedOf memory, payloadSize⟩
  payload := payloadOf memory payloadSize.toNat
  alloc_eq := by simp [payloadOf]

/-- `message_s::new_config_resp`. -/
def newConfigResp (memory : Memory) (status : ConfigRespStatus) : Message where
  allocSize := sizeofAllocInfo + sizeofHeader + sizeofConfigResp
  header := ⟨.configResp, reservedOf memory, UInt32.ofNat sizeofConfigResp⟩
  payload := [status.byte]
  alloc_eq := rfl

/-- The stores through `message->header.type` and `message->payload.as_bytes`
that fill a block of `bytes.length` payload bytes. -/
def fill (message : Message) (type : MessageType) (bytes : List UInt8)
    (hlength : bytes.length = message.payload.length) : Message where
  allocSize := message.allocSize
  header := { message.header with type := type }
  payload := bytes
  alloc_eq := by rw [hlength]; exact message.alloc_eq

@[simp] theorem length_asBytes (message : Message) :
    message.asBytes.length = sizeofHeader + message.payload.length := by
  simp [asBytes]

/-- The comparison with the allocated size rules out every payload size at
which the 32-bit message size wraps. -/
theorem hasValidPayloadSize_iff (message : Message) :
    message.hasValidPayloadSize = true ↔
      message.payload.length = message.header.payloadSize.toNat ∧
        sizeofHeader + message.header.payloadSize.toNat < 2 ^ 32 := by
  have hlt := message.header.payloadSize.toNat_lt
  simp only [hasValidPayloadSize, getMessageSize, message.alloc_eq,
    UInt32.toNat_ofNat', beq_iff_eq, sizeofAllocInfo, sizeofHeader]
  omega

theorem isValidMessage_iff (message : Message) :
    message.isValidMessage = true ↔
      message.header.isValid = true ∧
        message.payload.length = message.header.payloadSize.toNat ∧
          sizeofHeader + message.header.payloadSize.toNat < 2 ^ 32 := by
  rw [isValidMessage, Bool.and_eq_true, hasValidPayloadSize_iff]

/-- For a valid message the size that is sent is the whole object. -/
theorem getMessageSize_of_valid {message : Message}
    (hvalid : message.isValidMessage = true) :
    message.getMessageSize.toNat = message.asBytes.length := by
  obtain ⟨_, hlength, hbound⟩ := (isValidMessage_iff message).mp hvalid
  rw [getMessageSize, UInt32.toNat_ofNat', Nat.mod_eq_of_lt hbound,
    length_asBytes, hlength]

/-- A message with this type and payload, and zero reserved bytes. -/
def ofPayload (type : MessageType) (payload : List UInt8) : Message where
  allocSize := sizeofAllocInfo + sizeofHeader + payload.length
  header := ⟨type, Vector.replicate 3 0, UInt32.ofNat payload.length⟩
  payload := payload
  alloc_eq := rfl

theorem isValidMessage_of_isValidConfig {message : Message}
    (h : message.isValidConfig = true) : message.isValidMessage = true := by
  simp only [isValidConfig, Bool.and_eq_true] at h
  exact h.1.1

theorem newConfigResp_valid (memory : Memory) (status : ConfigRespStatus) :
    (newConfigResp memory status).isValidMessage = true := by
  rw [isValidMessage_iff]
  refine ⟨?_, rfl, ?_⟩
  · simp [newConfigResp, Header.isValid, sizeofConfigResp]
  · simp [newConfigResp, sizeofHeader, sizeofConfigResp]

end Message

/-- A message that passed `is_valid_message`, as every message returned by
`receive_message` has. -/
abbrev ValidMessage := { message : Message // message.isValidMessage = true }

/-- The configuration response the server sends. -/
def ValidMessage.newConfigResp (memory : Message.Memory)
    (status : ConfigRespStatus) : ValidMessage :=
  ⟨Message.newConfigResp memory status, Message.newConfigResp_valid memory status⟩

/-- A configuration without blocks and RBF data. -/
def ValidMessage.config (inputSize outputSize : UInt32) : ValidMessage :=
  ⟨Message.ofPayload .config
    (u32Bytes inputSize ++ u32Bytes outputSize ++ u32Bytes 0), rfl⟩

/-- A data message of one byte, with a zero id. -/
def ValidMessage.data (byte : UInt8) : ValidMessage :=
  ⟨Message.ofPayload .data (u32Bytes 0 ++ [byte]), rfl⟩

end FpgaFramework
