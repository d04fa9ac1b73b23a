/-
The FPGA manager driver of `alt_fpga_manager.c`, as programs over its registers,
and the configuration of the node's FPGA in `writeConfig.hpp`.
-/
import FpgaFramework.Driver
import FpgaFramework.Framing

namespace FpgaFramework

open Driver

/-- The registers of the manager, of its monitor and of its data port. -/
inductive Reg where
  | stat
  | ctl
  | dclkcnt
  | dclkstat
  | portaEoi
  | extPorta
  | data
  deriving DecidableEq, Repr

abbrev Fpga (α : Type) := Driver Reg UInt32 α

/-- The `ALT_E_` codes that the driver returns. -/
inductive AltStatusCode where
  | success
  | error
  | fpgaCfg
  | fpgaCrc
  | fpgaCfgStm
  | fpgaPwrOff
  | fpgaNoSocCtrl
  | tmo
  deriving DecidableEq, Repr

def altFpgaTmoState : Nat := 2048

def altFpgaTmoDclkConst : Nat := 2048

def altFpgaTmoDclkMul : Nat := 2

def altFpgaTmoConfig : Nat := 8192

/-- `ISTREAM_CHUNK_SIZE`, the size of the buffer a stream fills. -/
def istreamChunkSize : Nat := 512

/-- The largest configuration image, 32 MiB. -/
def maxDataLimit : Nat := 32 * 1024 * 1024

/- Fields of the control register. -/

def ctlEnSetMsk : UInt32 := 0x00000001

def ctlNceClrMsk : UInt32 := 0xfffffffd

def ctlNcfgpullSetMsk : UInt32 := 0x00000004

def ctlNcfgpullClrMsk : UInt32 := 0xfffffffb

def ctlCdratioClrMsk : UInt32 := 0xffffff3f

def ctlCdratioSet (value : UInt32) : UInt32 := (value <<< 6) &&& 0x000000c0

def ctlAxicfgenSetMsk : UInt32 := 0x00000100

def ctlAxicfgenClrMsk : UInt32 := 0xfffffeff

def ctlCfgwdthSetMsk : UInt32 := 0x00000200

def ctlCfgwdthClrMsk : UInt32 := 0xfffffdff

/- Fields of the status register and of the monitor. -/

def statModGet (value : UInt32) : UInt32 := (value &&& 0x00000007) >>> 0

def statMselGet (value : UInt32) : UInt32 := (value &&& 0x000000f8) >>> 3

def monNStatus : UInt32 := 0x0001

def monConfDone : UInt32 := 0x0002

def monCrcError : UInt32 := 0x0008

def monFpgaPowerOn : UInt32 := 0x0800

def portaEoiNsSet (value : UInt32) : UInt32 := (value <<< 0) &&& 0x00000001

def dclkstatDone : UInt32 := 0x1

/- `ALT_FPGA_STATE_t`: the mode bits of the status register are cast to it. -/

def stateReset : UInt32 := 0x1

def stateCfg : UInt32 := 0x2

def stateUserMode : UInt32 := 0x4

def statePowerOff : UInt32 := 0xf

/-- `ALT_FPGA_CFG_MODE_UNKNOWN`. -/
def cfgModeUnknown : UInt32 := 0x20

def altSetbitsWord (reg : Reg) (bits : UInt32) : Fpga Unit := do
  writeWord reg ((← readWord reg) ||| bits)

def altClrbitsWord (reg : Reg) (bits : UInt32) : Fpga Unit := do
  writeWord reg ((← readWord reg) &&& ~~~bits)

def altFpgaControlEnable : Fpga AltStatusCode := do
  altSetbitsWord .ctl ctlEnSetMsk
  return .success

def altFpgaControlDisable : Fpga AltStatusCode := do
  altClrbitsWord .ctl ctlEnSetMsk
  return .success

def altFpgaControlIsEnabled : Fpga Bool := do
  return ((← readWord .ctl) &&& ctlEnSetMsk) != 0

def altFpgaMonStatusGet : Fpga UInt32 := do
  return (← readWord .extPorta) &&& 0xfff

def altFpgaStateGet : Fpga UInt32 := do
  if (← altFpgaMonStatusGet) &&& monFpgaPowerOn = 0 then
    return statePowerOff
  else
    return statModGet (← readWord .stat)

/-- The modes that the first switch knows. -/
def knownMsel (msel : UInt32) : Bool :=
  [0x0, 0x1, 0x2, 0x4, 0x5, 0x6, 0x8, 0x9, 0xa, 0xc, 0xd, 0xe].contains msel

def altFpgaCfgModeGet : Fpga UInt32 := do
  let msel := statMselGet (← readWord .stat)
  return if knownMsel msel then msel else cfgModeUnknown

/-- `while (cfg_buf_len >= sizeof(uint32_t))`; returns what is left of the
length. -/
def pioWords (cfgBuf : List UInt8) : (i cfgBufLen : Nat) → Fpga Nat
  | i, cfgBufLen + 4 => do
      writeWord .data (u32At cfgBuf (4 * i))
      pioWords cfgBuf (i + 1) cfgBufLen
  | _, cfgBufLen => return cfgBufLen

/-- Without DMA.  The loop has counted `cfg_buf_len` down before the rest is
looked up at `cfg_buf + (cfg_buf_len & ~0x3)`. -/
def altFpgaInternalWriteaxi (cfgBuf : List UInt8) (cfgBufLen : Nat) :
    Fpga AltStatusCode := do
  let cfgBufLen ← pioWords cfgBuf 0 cfgBufLen
  let word := u32At cfgBuf (cfgBufLen / 4 * 4)
  match cfgBufLen % 4 with
  | 3 => writeWord .data (word &&& 0x00ffffff)
  | 2 => writeWord .data (word &&& 0x0000ffff)
  | 1 => writeWord .data (word &&& 0x000000ff)
  | _ => pure ()
  return .success

/-- Clear a DONE status that is left from an earlier count. -/
def dclkClear : Fpga Unit := do
  if (← readWord .dclkstat) ≠ 0 then
    writeWord .dclkstat dclkstatDone

def dclkProbe : Fpga (Option AltStatusCode) := do
  if (← readWord .dclkstat) = dclkstatDone then
    writeWord .dclkstat dclkstatDone
    return some .success
  else
    return none

def dclkSetAndWaitClear (count : UInt32) (timeout : Nat) :
    Fpga AltStatusCode := do
  dclkClear
  writeWord .dclkcnt count
  return (← pollFor dclkProbe timeout).getD .tmo

def stateProbe (state : UInt32) : Fpga (Option AltStatusCode) := do
  let current ← altFpgaStateGet
  return if current = state then some .success else none

def waitForFpgaState (state : UInt32) (timeout : Nat) : Fpga AltStatusCode := do
  return (← pollFor (stateProbe state) timeout).getD .tmo

/-- What one reading of the monitor says about the configuration. -/
def configDone (status : UInt32) : Option AltStatusCode :=
  let confDone := (status &&& monConfDone) != 0
  let nstatus := (status &&& monNStatus) != 0
  if status &&& monCrcError ≠ 0 then some .fpgaCrc
  else if confDone = nstatus then some (if confDone then .success else .fpgaCfg)
  else none

def configProbe : Fpga (Option AltStatusCode) := do
  return configDone (← altFpgaMonStatusGet)

def waitForConfigDone (timeout : Nat) : Fpga AltStatusCode := do
  return (← pollFor configProbe timeout).getD .tmo

/-- What a call of the stream callback returns and leaves in the buffer. -/
structure StreamAnswer where
  cbStatus : Int32
  buffer : List UInt8

/-- `FPGA_DATA_t`, without DMA: a buffer, or a callback by the number of times
it has been called before. -/
inductive FpgaData where
  | full (buffer : List UInt8) (length : Nat)
  | istream (stream : Nat → StreamAnswer)

theorem toNat_toUInt32_pos {cbStatus : Int32} (h : cbStatus ≠ 0) :
    0 < cbStatus.toUInt32.toNat := by
  apply Nat.pos_of_ne_zero
  intro hzero
  apply h
  have hword : cbStatus.toUInt32 = 0 := UInt32.toNat_inj.mp hzero
  calc cbStatus = cbStatus.toUInt32.toInt32 := rfl
    _ = 0 := by rw [hword]; rfl

/-- The loop over the stream.  Both comparisons with a size are made on the
unsigned value of the callback's answer. -/
def istreamLoop (stream : Nat → StreamAnswer) (dataLimit call : Nat) :
    Fpga AltStatusCode :=
  let answer := stream call
  let length := answer.cbStatus.toUInt32.toNat
  if length > istreamChunkSize then
    return .fpgaCfgStm
  else if answer.cbStatus < 0 then
    return .fpgaCfgStm
  else if hzero : answer.cbStatus = 0 then
    return .success
  else if hlimit : length > dataLimit then
    return .fpgaCfgStm
  else do
    let status ← altFpgaInternalWriteaxi answer.buffer length
    if status ≠ .success then
      return status
    else
      istreamLoop stream (dataLimit - length) (call + 1)
termination_by dataLimit
decreasing_by
  have hpos : 0 < (stream call).cbStatus.toUInt32.toNat :=
    toNat_toUInt32_pos hzero
  have hle : (stream call).cbStatus.toUInt32.toNat ≤ dataLimit :=
    Nat.not_lt.mp hlimit
  omega

/-- Step 9. -/
def writeImage : FpgaData → Fpga AltStatusCode
  | .full buffer length =>
      if length > maxDataLimit then return .fpgaCfg
      else altFpgaInternalWriteaxi buffer length
  | .istream stream => istreamLoop stream maxDataLimit 0

/-- Steps 9 and 10. -/
def altFpgaInternalConfigureIdata (fpgaData : FpgaData) :
    Fpga AltStatusCode := do
  let status ← writeImage fpgaData
  if status ≠ .success then
    return status
  else
    match ← waitForConfigDone altFpgaTmoConfig with
    | .success => return .success
    | .fpgaCrc => return .fpgaCrc
    | _ => return .fpgaCfg

/-- `cfgwidth` and `cdratio` of a configuration mode. -/
def cfgWidthAndRatio (mode : UInt32) : Option (Nat × Nat) :=
  if mode = 0x0 ∨ mode = 0x4 then some (16, 1)
  else if mode = 0x1 ∨ mode = 0x5 then some (16, 2)
  else if mode = 0x2 ∨ mode = 0x6 then some (16, 4)
  else if mode = 0x8 ∨ mode = 0xc then some (32, 1)
  else if mode = 0x9 ∨ mode = 0xd then some (32, 4)
  else if mode = 0xa ∨ mode = 0xe then some (32, 8)
  else none

/-- The control word with the ratio put in. -/
def withCdratio (ctrlReg : UInt32) : (cdratio : Nat) → Option UInt32
  | 1 => some (ctrlReg &&& ctlCdratioClrMsk ||| ctlCdratioSet 0x0)
  | 2 => some (ctrlReg &&& ctlCdratioClrMsk ||| ctlCdratioSet 0x1)
  | 4 => some (ctrlReg &&& ctlCdratioClrMsk ||| ctlCdratioSet 0x2)
  | 8 => some (ctrlReg &&& ctlCdratioClrMsk ||| ctlCdratioSet 0x3)
  | _ => none

/-- The control word with the width put in. -/
def withCfgwidth (ctrlReg : UInt32) : (cfgwidth : Nat) → Option UInt32
  | 16 => some (ctrlReg &&& ctlCfgwdthClrMsk)
  | 32 => some (ctrlReg ||| ctlCfgwdthSetMsk)
  | _ => none

/-- The control word that step 1 writes; `none` is `ALT_E_ERROR`. -/
def controlWord (ctrlReg mode : UInt32) : Option UInt32 := do
  let (cfgwidth, cdratio) ← cfgWidthAndRatio mode
  let ctrlReg ← withCdratio ctrlReg cdratio
  let ctrlReg ← withCfgwidth ctrlReg cfgwidth
  return ctrlReg &&& ctlNceClrMsk

/-- The code returned where a step after the data fails: the data's own error
when there is one. -/
def lateError : AltStatusCode → AltStatusCode
  | .success => .fpgaCfg
  | dataStatus => dataStatus

/-- Steps 11 to 13, after the data. -/
def finishSteps (ctrlReg : UInt32) (dataStatus : AltStatusCode) :
    Fpga AltStatusCode := do
  writeWord .ctl (ctrlReg &&& ctlAxicfgenClrMsk)
  let status ← dclkSetAndWaitClear 4 (altFpgaTmoDclkConst + 4 * altFpgaTmoDclkMul)
  if status ≠ .success then
    return lateError dataStatus
  else do
    let status ← waitForFpgaState stateUserMode altFpgaTmoState
    if status = .tmo then
      return lateError dataStatus
    else
      return dataStatus

/-- Steps 7 to 13, from the configuration phase on. -/
def loadSteps (ctrlReg : UInt32) (fpgaData : FpgaData) : Fpga AltStatusCode := do
  writeWord .portaEoi (portaEoiNsSet 0x1)
  let ctrlReg := ctrlReg ||| ctlAxicfgenSetMsk
  writeWord .ctl ctrlReg
  let dataStatus ← altFpgaInternalConfigureIdata fpgaData
  finishSteps ctrlReg dataStatus

/-- Steps 1 to 13, with the control word of step 1. -/
def configureSteps (ctrlReg : UInt32) (fpgaData : FpgaData) :
    Fpga AltStatusCode := do
  writeWord .ctl ctrlReg
  let ctrlReg := ctrlReg ||| ctlNcfgpullSetMsk
  writeWord .ctl ctrlReg
  let status ← waitForFpgaState stateReset altFpgaTmoState
  -- Reset is released before its timeout is looked at.
  let ctrlReg := ctrlReg &&& ctlNcfgpullClrMsk
  writeWord .ctl ctrlReg
  if status ≠ .success then
    return .fpgaCfg
  else do
    let status ← waitForFpgaState stateCfg altFpgaTmoState
    if status ≠ .success then
      return .fpgaCfg
    else
      loadSteps ctrlReg fpgaData

def altFpgaInternalConfigure (fpgaData : FpgaData) : Fpga AltStatusCode := do
  if (← altFpgaControlIsEnabled) != true then
    return .fpgaNoSocCtrl
  else if (← altFpgaStateGet) = statePowerOff then
    return .fpgaPwrOff
  else do
    let ctrlReg ← readWord .ctl
    match controlWord ctrlReg (← altFpgaCfgModeGet) with
    | none => return .error
    | some ctrlReg => configureSteps ctrlReg fpgaData

def altFpgaConfigure (cfgBuf : List UInt8) (cfgBufLen : Nat) :
    Fpga AltStatusCode :=
  altFpgaInternalConfigure (.full cfgBuf cfgBufLen)

def altFpgaIstreamConfigure (cfgStream : Nat → StreamAnswer) :
    Fpga AltStatusCode :=
  altFpgaInternalConfigure (.istream cfgStream)

/-- `fsize` is passed as a `size_t` of the node's 32-bit processor. -/
def writeFPGAconfig (buf : List UInt8) (fsize : Int32) : Fpga Bool := do
  let _ ← altFpgaControlEnable
  let _ ← altFpgaStateGet
  let status ← altFpgaConfigure buf fsize.toUInt32.toNat
  let _ ← altFpgaControlDisable
  return status = .success

end FpgaFramework
