/-
The configuration protocol of the FPGA manager as a monitor over register
accesses, and the driver's promise to it: on every hardware each access is one
that the protocol allows, and the returned code tells how far it came.  Width and
clock ratio belong to the mode that the MSEL pins show; the ratios that the driver
has for four of the 16-bit modes are not those that the headers ask for.
-/
import FpgaFramework.FpgaStream

namespace FpgaFramework

open Driver Monitor

/-- The control word holds the FPGA in reset. -/
def Pulled (ctl : UInt32) : Prop := ctl &&& ctlNcfgpullSetMsk ≠ 0

/-- The control word opens the data port. -/
def PortOpen (ctl : UInt32) : Prop := ctl &&& ctlAxicfgenSetMsk ≠ 0

instance (ctl : UInt32) : Decidable (Pulled ctl) :=
  inferInstanceAs (Decidable (_ ≠ _))

instance (ctl : UInt32) : Decidable (PortOpen ctl) :=
  inferInstanceAs (Decidable (_ ≠ _))

/-- The width and the clock ratio of each mode of the MSEL pins. -/
abbrev ModeTable := UInt32 → Option (Nat × Nat)

/-- What the headers say of the modes: "CDRATIO must be programmed to". -/
def documentedModes : ModeTable := fun msel =>
  if msel = 0x0 ∨ msel = 0x4 then some (16, 1)
  else if msel = 0x1 ∨ msel = 0x5 then some (16, 4)
  else if msel = 0x2 ∨ msel = 0x6 then some (16, 8)
  else if msel = 0x8 ∨ msel = 0xc then some (32, 1)
  else if msel = 0x9 ∨ msel = 0xd then some (32, 4)
  else if msel = 0xa ∨ msel = 0xe then some (32, 8)
  else none

/-- The 16-bit modes with encryption or compression. -/
def halvedModes : List UInt32 := [0x1, 0x5, 0x2, 0x6]

/-- The same with half of the ratio in four modes. -/
def drivenModes : ModeTable := fun msel =>
  (documentedModes msel).map fun (cfgwidth, cdratio) =>
    (cfgwidth, if msel ∈ halvedModes then cdratio / 2 else cdratio)

/-- The driver's own table, in both others. -/
theorem drivenModes_of_cfgWidthAndRatio {msel : UInt32} {setting : Nat × Nat}
    (h : cfgWidthAndRatio msel = some setting) :
    drivenModes msel = some setting ∧
      (msel ∉ halvedModes → documentedModes msel = some setting) := by
  unfold cfgWidthAndRatio at h
  split_ifs at h with hmode hmode hmode hmode hmode hmode
  all_goals cases h
  all_goals rcases hmode with rfl | rfl <;> decide

/-- The control bits of CDRATIO, CFGWDTH and NCE. -/
def setupBits : UInt32 := 0x2c2

/-- These bits for a width and a ratio, with NCE cleared. -/
def setupWord (cfgwidth cdratio : Nat) : UInt32 :=
  (if cfgwidth = 32 then ctlCfgwdthSetMsk else 0) |||
    ctlCdratioSet (UInt32.ofNat (Nat.log2 cdratio))

/-- CONF_DONE and nSTATUS are both set, and no CRC error is. -/
def Confirmed (status : UInt32) : Prop :=
  status &&& monConfDone ≠ 0 ∧ status &&& monNStatus ≠ 0 ∧
    status &&& monCrcError = 0

instance (status : UInt32) : Decidable (Confirmed status) :=
  inferInstanceAs (Decidable (_ ∧ _ ∧ _))

/-- How far a configuration has come. -/
inductive LoadStage where
  | idle
  /-- The FPGA is held in reset, set up for its mode. -/
  | held
  /-- The reset phase was seen while it was held. -/
  | reset
  /-- It was released after that. -/
  | released
  /-- The configuration phase was seen. -/
  | cfg
  /-- The nSTATUS interrupt was cleared. -/
  | cleared
  /-- The data port was opened. -/
  | feeding
  /-- The monitor confirmed the configuration. -/
  | configured
  /-- The data port was closed after that. -/
  | closed
  /-- Four DCLKs were asked for. -/
  | counting
  /-- They were seen done. -/
  | clocked
  /-- User mode was seen. -/
  | user
  /-- The sequence was left. -/
  | failed
  deriving DecidableEq, Repr

namespace LoadStage

/-- A control word is written; `suits` says whether it is set up for the mode. -/
def onControl (stage : LoadStage) (suits : Bool) (ctl : UInt32) : LoadStage :=
  if Pulled ctl then
    if suits then .held else if stage = .idle then .idle else .failed
  else
    match stage with
    | .idle => .idle
    | .reset => .released
    | .cleared => if PortOpen ctl then .feeding else .failed
    | .configured => if PortOpen ctl then .failed else .closed
    | .user => .user
    | _ => .failed

/-- The status register shows a mode. -/
def onMode (stage : LoadStage) (mode : UInt32) : LoadStage :=
  match stage with
  | .held => if mode = stateReset then .reset else .held
  | .released => if mode = stateCfg then .cfg else .released
  | .clocked => if mode = stateUserMode then .user else .clocked
  | stage => stage

/-- The monitor shows a status. -/
def onMonitor (stage : LoadStage) (status : UInt32) : LoadStage :=
  match stage with
  | .feeding => if Confirmed status then .configured else .feeding
  | stage => stage

/-- DCLKs are asked for. -/
def onCount : LoadStage → LoadStage
  | .closed => .counting
  | stage => stage

/-- The DCLKs are seen done. -/
def onDone : LoadStage → LoadStage
  | .counting => .clocked
  | stage => stage

/-- The nSTATUS interrupt is cleared. -/
def onClear : LoadStage → LoadStage
  | .cfg => .cleared
  | stage => stage

end LoadStage

/-- What a trace has shown so far. -/
structure Seen where
  stage : LoadStage
  /-- The configuration mode that the pins showed last, until one was begun. -/
  mode : Option UInt32
  /-- EN was set in a control word that was read. -/
  enabled : Bool
  /-- The control word last read. -/
  found : UInt32
  /-- The control word last read or written. -/
  ctl : UInt32
  /-- The words written to the data port. -/
  words : List UInt32
  /-- Some register was written. -/
  touched : Bool
  deriving DecidableEq, Repr

namespace Seen

/-- The state after a control word is written. -/
def controlled (s : Seen) (ctl : UInt32) (stage : LoadStage) : Seen :=
  { s with ctl := ctl, stage := stage, touched := true }

theorem controlled_controlled (s : Seen) (ctl ctl' : UInt32)
    (stage stage' : LoadStage) :
    (s.controlled ctl stage).controlled ctl' stage' = s.controlled ctl' stage' :=
  rfl

/-- Steps 1 and 2: width, ratio and NCE of the control word are those of the mode,
and the control block was found taken. -/
def suits (table : ModeTable) (s : Seen) (ctl : UInt32) : Bool :=
  match s.mode.bind table with
  | some (cfgwidth, cdratio) =>
      s.enabled && ctl &&& setupBits == setupWord cfgwidth cdratio
  | none => false

/-- The status register shows its mode and the MSEL pins. -/
def shown (s : Seen) (stat : UInt32) : Seen :=
  { s with
    stage := s.stage.onMode (statModGet stat)
    mode := if s.stage = .idle then some (statMselGet stat) else s.mode }

def next (table : ModeTable) (s : Seen) : Access Reg UInt32 → Seen
  | .read .ctl value =>
      { s with
        enabled := s.enabled || value &&& ctlEnSetMsk != 0
        found := value
        ctl := value }
  | .read .stat value => s.shown value
  | .read .extPorta value =>
      { s with stage := s.stage.onMonitor (value &&& 0xfff) }
  | .read .dclkstat value =>
      { s with stage := if value = dclkstatDone then s.stage.onDone else s.stage }
  | .read _ _ => s
  | .write .ctl value =>
      s.controlled value (s.stage.onControl (s.suits table value) value)
  | .write .data value => { s with words := s.words ++ [value], touched := true }
  | .write .portaEoi _ => { s with stage := s.stage.onClear, touched := true }
  | .write .dclkcnt _ => { s with stage := s.stage.onCount, touched := true }
  | .write _ _ => { s with touched := true }

theorem next_write_ctl (table : ModeTable) (s : Seen) (value : UInt32) :
    s.next table (.write .ctl value) =
      s.controlled value (s.stage.onControl (s.suits table value) value) :=
  rfl

/-- Once a configuration was begun, the pins are not looked at. -/
theorem shown_of_ne_idle {s : Seen} (h : s.stage ≠ .idle) (stat : UInt32) :
    s.shown stat = { s with stage := s.stage.onMode (statModGet stat) } := by
  rw [shown, if_neg h]

theorem shown_of_idle {s : Seen} (h : s.stage = .idle) (stat : UInt32) :
    s.shown stat = { s with mode := some (statMselGet stat) } := by
  have hsame : s.stage.onMode (statModGet stat) = s.stage := by
    rw [h]
    rfl
  rw [shown, if_pos h, hsame]

/-- The control word is set up for the mode before the configuration begins, and
again with every pull into reset; otherwise it stays as it is. -/
def SetsUp (table : ModeTable) (s : Seen) (ctl : UInt32) : Prop :=
  s.suits table ctl = true ∧ (Pulled ctl ∨ s.stage = .idle) ∨
    ctl &&& setupBits = s.ctl &&& setupBits ∧ (Pulled ctl → Pulled s.ctl)

instance (table : ModeTable) (s : Seen) (ctl : UInt32) :
    Decidable (s.SetsUp table ctl) := by
  unfold SetsUp
  infer_instance

/-- What the protocol lets a driver do.  Of the control register it may change
the bits outside `kept`, and it opens the port only where data is due. -/
def Allows (table : ModeTable) (kept : UInt32) (s : Seen) :
    Access Reg UInt32 → Prop
  | .read _ _ => True
  | .write .ctl value => value &&& kept = s.found &&& kept ∧
      (PortOpen value → PortOpen s.ctl ∨ s.stage = .cleared) ∧
        s.SetsUp table value
  | .write .data _ => s.stage = .feeding
  | .write .portaEoi value => s.stage = .cfg ∧ value = 0x1
  | .write .dclkcnt value => value = 4 ∧ ¬PortOpen s.ctl
  | .write .dclkstat value => value = dclkstatDone
  | .write _ _ => False

instance (table : ModeTable) (kept : UInt32) (s : Seen)
    (access : Access Reg UInt32) : Decidable (s.Allows table kept access) := by
  unfold Allows
  split <;> infer_instance

end Seen

/-- Any answer may come from the hardware. -/
def anyAnswer (_ : Seen) (_ : Reg) (_ : UInt32) : Prop := True

/-- The control register reads as it was last written. -/
def coherent (s : Seen) (reg : Reg) (value : UInt32) : Prop :=
  reg = .ctl → value = s.ctl

/-- The configuration protocol, for hardware that answers as assumed. -/
def sequencer (table : ModeTable) (kept : UInt32)
    (answers : Seen → Reg → UInt32 → Prop) : Monitor Seen Reg UInt32 where
  next := Seen.next table
  answers := answers
  allows := Seen.Allows table kept

instance (table : ModeTable) (kept : UInt32) (answers : Seen → Reg → UInt32 → Prop)
    (s : Seen) (access : Access Reg UInt32) :
    Decidable ((sequencer table kept answers).allows s access) :=
  inferInstanceAs (Decidable (s.Allows table kept access))

@[simp] theorem sequencer_next (table : ModeTable) (kept : UInt32)
    (answers : Seen → Reg → UInt32 → Prop) (s : Seen) :
    (sequencer table kept answers).next s = s.next table := rfl

/-- The control bits of CDRATIO, CFGWDTH, NCE, NCONFIGPULL and AXICFGEN. -/
def driverBits : UInt32 := 0x3c6

theorem or_and_kept {kept bits : UInt32} (hkept : kept &&& driverBits = 0)
    (hbits : bits &&& driverBits = bits) (ctl : UInt32) :
    (ctl ||| bits) &&& kept = ctl &&& kept := by
  apply UInt32.toBitVec_inj.mp
  have hkept' := congrArg UInt32.toBitVec hkept
  have hbits' := congrArg UInt32.toBitVec hbits
  ext i hi
  have hkept'' := congrArg (fun word : BitVec 32 => word.getLsbD i) hkept'
  have hbits'' := congrArg (fun word : BitVec 32 => word.getLsbD i) hbits'
  simp [BitVec.getLsbD_eq_getElem hi] at hkept'' hbits'' ⊢
  grind

theorem and_and_kept {kept mask : UInt32} (hkept : kept &&& driverBits = 0)
    (hmask : ~~~mask &&& driverBits = ~~~mask) (ctl : UInt32) :
    (ctl &&& mask) &&& kept = ctl &&& kept := by
  apply UInt32.toBitVec_inj.mp
  have hkept' := congrArg UInt32.toBitVec hkept
  have hmask' := congrArg UInt32.toBitVec hmask
  ext i hi
  have hkept'' := congrArg (fun word : BitVec 32 => word.getLsbD i) hkept'
  have hmask'' := congrArg (fun word : BitVec 32 => word.getLsbD i) hmask'
  simp [BitVec.getLsbD_eq_getElem hi] at hkept'' hmask'' ⊢
  grind

theorem or_and_distrib (ctl bits mask : UInt32) :
    (ctl ||| bits) &&& mask = (ctl &&& mask) ||| (bits &&& mask) := by
  apply UInt32.toBitVec_inj.mp
  ext i hi
  simp [Bool.and_or_distrib_right]

/- The control words of the steps. -/

theorem pulled_or (ctl : UInt32) : Pulled (ctl ||| ctlNcfgpullSetMsk) := by
  intro hzero
  rw [or_and_distrib, UInt32.or_eq_zero_iff] at hzero
  exact absurd hzero.2 (by decide)

theorem not_pulled_and (ctl : UInt32) : ¬Pulled (ctl &&& ctlNcfgpullClrMsk) := by
  intro hpulled
  apply hpulled
  have hclear : ctlNcfgpullClrMsk &&& ctlNcfgpullSetMsk = 0 := by decide
  rw [UInt32.and_assoc, hclear, UInt32.and_zero]

theorem portOpen_or (ctl : UInt32) : PortOpen (ctl ||| ctlAxicfgenSetMsk) := by
  intro hzero
  rw [or_and_distrib, UInt32.or_eq_zero_iff] at hzero
  exact absurd hzero.2 (by decide)

theorem not_portOpen_and (ctl : UInt32) :
    ¬PortOpen (ctl &&& ctlAxicfgenClrMsk) := by
  intro hopen
  apply hopen
  have hclear : ctlAxicfgenClrMsk &&& ctlAxicfgenSetMsk = 0 := by decide
  rw [UInt32.and_assoc, hclear, UInt32.and_zero]

theorem pulled_or_iff {ctl bits : UInt32} (h : bits &&& ctlNcfgpullSetMsk = 0) :
    Pulled (ctl ||| bits) ↔ Pulled ctl := by
  rw [Pulled, or_and_distrib, h, UInt32.or_zero, Pulled]

theorem pulled_and_iff {ctl mask : UInt32}
    (h : mask &&& ctlNcfgpullSetMsk = ctlNcfgpullSetMsk) :
    Pulled (ctl &&& mask) ↔ Pulled ctl := by
  rw [Pulled, UInt32.and_assoc, h, Pulled]

theorem portOpen_or_iff {ctl bits : UInt32} (h : bits &&& ctlAxicfgenSetMsk = 0) :
    PortOpen (ctl ||| bits) ↔ PortOpen ctl := by
  rw [PortOpen, or_and_distrib, h, UInt32.or_zero, PortOpen]

theorem portOpen_and_iff {ctl mask : UInt32}
    (h : mask &&& ctlAxicfgenSetMsk = ctlAxicfgenSetMsk) :
    PortOpen (ctl &&& mask) ↔ PortOpen ctl := by
  rw [PortOpen, UInt32.and_assoc, h, PortOpen]

/- Bits of a step that is not the first leave the set-up alone. -/

theorem or_and_setupBits {bits : UInt32} (h : bits &&& setupBits = 0)
    (ctl : UInt32) : (ctl ||| bits) &&& setupBits = ctl &&& setupBits := by
  rw [or_and_distrib, h, UInt32.or_zero]

theorem and_and_setupBits {mask : UInt32} (h : mask &&& setupBits = setupBits)
    (ctl : UInt32) : (ctl &&& mask) &&& setupBits = ctl &&& setupBits := by
  rw [UInt32.and_assoc, h]

/-- A word that is masked and filled is known in the bits that were cleared or
set. -/
theorem and_or_and_eq {mask bits kept word : UInt32}
    (hset : bits &&& kept = word) (hclear : mask &&& kept &&& word = mask &&& kept)
    (ctl : UInt32) : (ctl &&& mask ||| bits) &&& kept = word := by
  rw [or_and_distrib, hset, UInt32.and_assoc]
  apply UInt32.toBitVec_inj.mp
  have hclear' := congrArg UInt32.toBitVec hclear
  ext i hi
  have hclear'' := congrArg (fun word : BitVec 32 => word.getLsbD i) hclear'
  simp [BitVec.getLsbD_eq_getElem hi] at hclear'' ⊢
  grind

/-- What step 1 puts in for a mode. -/
theorem controlWord_setup {ctl mode ctrlReg : UInt32}
    (h : controlWord ctl mode = some ctrlReg) :
    ∃ cfgwidth cdratio, cfgWidthAndRatio mode = some (cfgwidth, cdratio) ∧
      ctrlReg &&& setupBits = setupWord cfgwidth cdratio := by
  simp only [controlWord, Option.bind_eq_bind, Option.bind_eq_some_iff,
    Option.pure_def, Option.some.injEq] at h
  obtain ⟨⟨cfgwidth, cdratio⟩, hmode, word, hword, word', hword', rfl⟩ := h
  refine ⟨cfgwidth, cdratio, hmode, ?_⟩
  have hsixteen : ∀ before, withCfgwidth before 16 = some word' →
      word' &&& ctlNceClrMsk &&& setupBits =
        before &&& (ctlCfgwdthClrMsk &&& ctlNceClrMsk &&& setupBits) := by
    rintro before ⟨⟩
    rw [UInt32.and_assoc, UInt32.and_assoc, UInt32.and_assoc]
  have hthirtyTwo : ∀ before, withCfgwidth before 32 = some word' →
      word' &&& ctlNceClrMsk &&& setupBits =
        (before ||| ctlCfgwdthSetMsk) &&& (ctlNceClrMsk &&& setupBits) := by
    rintro before ⟨⟩
    rw [UInt32.and_assoc]
  unfold cfgWidthAndRatio at hmode
  split_ifs at hmode
  all_goals cases hmode
  all_goals cases hword
  all_goals first
    | rw [hsixteen _ hword']
    | rw [hthirtyTwo _ hword', UInt32.or_assoc]
  all_goals exact and_or_and_eq (by decide) (by decide) _

/-- Step 1 changes neither the port nor any bit that is not the driver's. -/
theorem controlWord_spec {ctl mode ctrlReg : UInt32}
    (h : controlWord ctl mode = some ctrlReg) :
    (PortOpen ctrlReg ↔ PortOpen ctl) ∧
      ∀ kept, kept &&& driverBits = 0 → ctrlReg &&& kept = ctl &&& kept := by
  have hratio : ∀ {cdratio : Nat} {word : UInt32},
      withCdratio ctl cdratio = some word → (PortOpen word ↔ PortOpen ctl) ∧
        ∀ kept, kept &&& driverBits = 0 → word &&& kept = ctl &&& kept := by
    intro cdratio word hword
    unfold withCdratio at hword
    split at hword
    all_goals cases hword
    all_goals
      constructor
      · rw [portOpen_or_iff (by decide), portOpen_and_iff (by decide)]
      · intro kept hkept
        rw [or_and_kept hkept (by decide), and_and_kept hkept (by decide)]
  have hwidth : ∀ {before : UInt32} {cfgwidth : Nat} {word : UInt32},
      withCfgwidth before cfgwidth = some word →
        (PortOpen word ↔ PortOpen before) ∧
          ∀ kept, kept &&& driverBits = 0 → word &&& kept = before &&& kept := by
    intro before cfgwidth word hword
    unfold withCfgwidth at hword
    split at hword
    · cases hword
      exact ⟨portOpen_and_iff (by decide),
        fun kept hkept => and_and_kept hkept (by decide) _⟩
    · cases hword
      exact ⟨portOpen_or_iff (by decide),
        fun kept hkept => or_and_kept hkept (by decide) _⟩
    · cases hword
  simp only [controlWord, Option.bind_eq_bind, Option.bind_eq_some_iff,
    Option.pure_def, Option.some.injEq] at h
  obtain ⟨_, _, word, hword, word', hword', rfl⟩ := h
  constructor
  · rw [portOpen_and_iff (by decide), (hwidth hword').1, (hratio hword).1]
  · intro kept hkept
    rw [and_and_kept hkept (by decide), (hwidth hword').2 kept hkept,
      (hratio hword).2 kept hkept]

end FpgaFramework
