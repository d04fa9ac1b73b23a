/-
Whole runs of the FPGA driver: a configuration follows the protocol on every
hardware and ends in bounded time, its code tells what the trace has shown, and
what was sent is the image or nothing.
-/
import FpgaFramework.FpgaConfigure

namespace FpgaFramework

open Driver Monitor

/-- Only the registers were read. -/
structure Untouched (s s' : Seen) : Prop where
  touched : s'.touched = s.touched
  words : s'.words = s.words
  ctl : s'.ctl = s'.found
  idle : s'.stage = .idle

/-- For every mode that the pins may show, the driver's setting is the table's. -/
def Suited (table : ModeTable) (answers : Seen → Reg → UInt32 → Prop) : Prop :=
  ∀ s stat setting, answers s .stat stat →
    cfgWidthAndRatio (statMselGet stat) = some setting →
      table (statMselGet stat) = some setting

theorem suited_drivenModes (answers : Seen → Reg → UInt32 → Prop) :
    Suited drivenModes answers :=
  fun _ _ _ _ hmode => (drivenModes_of_cfgWidthAndRatio hmode).1

section Configure

variable {table : ModeTable} {kept : UInt32}
  {answers : Seen → Reg → UInt32 → Prop} {s : Seen}

/-- The word that step 1 makes suits the mode that the pins have just shown. -/
theorem suits_of_controlWord (hsuited : Suited table answers) {ctl stat ctrlReg : UInt32}
    (hstat : answers s .stat stat)
    (hword : controlWord ctl (if knownMsel (statMselGet stat) then
      statMselGet stat else cfgModeUnknown) = some ctrlReg)
    {s' : Seen} (hmode : s'.mode = some (statMselGet stat))
    (henabled : s'.enabled = true) : s'.suits table ctrlReg = true := by
  obtain ⟨cfgwidth, cdratio, hsetting, hsetup⟩ := controlWord_setup hword
  split at hsetting
  · have htable := hsuited s stat _ hstat hsetting
    simp [Seen.suits, hmode, henabled, htable, hsetup]
  · cases hsetting

/-- A configuration is refused with nothing written, or runs its steps from the
state in which it has found the control word. -/
theorem wp_altFpgaInternalConfigure {found : UInt32 → Prop} {fpgaData : FpgaData}
    {words : List UInt32} {imageStatus : AltStatusCode}
    (himage : ImageOf fpgaData words imageStatus)
    (hkept : kept &&& driverBits = 0) (hidle : s.stage = .idle)
    (hsuited : Suited table answers)
    (hread : ∀ s' value, s'.ctl = s.ctl ∨ found s'.ctl → answers s' .ctl value →
      found value) :
    (sequencer table kept answers).wp (altFpgaInternalConfigure fpgaData)
      (fun status s' =>
        (Refusal status ∧ Untouched s s' ∧ found s'.found ∧
          (status = .fpgaNoSocCtrl → s'.found &&& ctlEnSetMsk = 0)) ∨
        ∃ middle : Seen, middle.words = s.words ∧ middle.ctl = middle.found ∧
          found middle.found ∧
          Outcome kept words imageStatus middle status s') s := by
  have hbegin : ∀ s' : Seen, s'.stage = .idle → s'.stage ≠ .feeding := by
    intro s' h
    rw [h]
    exact fun h => by cases h
  rw [altFpgaInternalConfigure, altFpgaControlIsEnabled, wp_bind, wp_bind,
    wp_readWord]
  intro value hvalue
  have hfound : found value := hread s value (Or.inl rfl) hvalue
  refine ⟨True.intro, ?_⟩
  rw [wp_pure]
  by_cases hcontrol : value &&& ctlEnSetMsk = 0
  · rw [if_pos (by simp [hcontrol])]
    exact Or.inl ⟨Or.inl rfl, ⟨rfl, rfl, rfl, hidle⟩, hfound, fun _ => hcontrol⟩
  · rw [if_neg (by simp [hcontrol]), wp_bind]
    refine wp_altFpgaStateGet (hbegin _ hidle) ?_ ?_
    · exact Or.inl ⟨Or.inr (Or.inl rfl), ⟨rfl, rfl, rfl, hidle⟩, hfound,
        fun h => by cases h⟩
    intro stat
    have hbegun : Seen.stage (Seen.next table s (.read .ctl value)) = .idle := hidle
    rw [sequencer_next, Seen.shown_of_idle hbegun]
    split
    · exact Or.inl ⟨Or.inr (Or.inl rfl), ⟨rfl, rfl, rfl, hidle⟩, hfound,
        fun h => by cases h⟩
    · rw [wp_bind, wp_readWord]
      intro value' hvalue'
      have hfound' : found value' := hread _ value' (Or.inr hfound) hvalue'
      refine ⟨True.intro, ?_⟩
      rw [wp_bind]
      refine wp_altFpgaCfgModeGet hidle ?_
      intro stat' hstat'
      split
      · exact Or.inl ⟨Or.inr (Or.inr rfl), ⟨rfl, rfl, rfl, hidle⟩, hfound',
          fun h => by cases h⟩
      · next ctrlReg hword =>
          obtain ⟨hport, hbits⟩ := controlWord_spec hword
          let middle : Seen := { s with
            mode := some (statMselGet stat')
            enabled := s.enabled || value &&& ctlEnSetMsk != 0 ||
              value' &&& ctlEnSetMsk != 0
            found := value'
            ctl := value' }
          have henabled : middle.enabled = true := by
            simp [middle, hcontrol]
          have hsuits : middle.suits table ctrlReg = true :=
            suits_of_controlWord hsuited hstat' hword rfl henabled
          refine wp_mono (wp_configureSteps himage hkept
            (hbits kept hkept) hsuits hidle hport.mp) ?_
          intro status last hlast
          exact Or.inr ⟨middle, rfl, rfl, hfound', hlast⟩

end Configure

theorem Refusal.ne_success {status : AltStatusCode} (h : Refusal status) :
    status ≠ .success := by
  rintro rfl
  rcases h with h | h | h <;> cases h

/-- Where a trace begins, when the control register holds `ctl`. -/
def Seen.start (ctl : UInt32) : Seen := ⟨.idle, none, false, ctl, ctl, [], false⟩

/-- The bits that a configuration leaves as it finds them. -/
def configureKept : UInt32 := ~~~driverBits

/-- The protocol with the driver's ratios, on any hardware. -/
abbrev drivenProtocol : Monitor Seen Reg UInt32 :=
  sequencer drivenModes configureKept anyAnswer

/-- The words that a trace writes to the data port. -/
def dataWords (trace : List (Access Reg UInt32)) : List UInt32 :=
  trace.filterMap fun
    | .write .data value => some value
    | _ => none

theorem words_after (table : ModeTable) (kept : UInt32)
    (answers : Seen → Reg → UInt32 → Prop) (s : Seen)
    (trace : List (Access Reg UInt32)) :
    ((sequencer table kept answers).after s trace).words =
      s.words ++ dataWords trace := by
  induction trace generalizing s with
  | nil => exact (List.append_nil _).symm
  | cons access trace ih =>
      have hstep := ih (s.next table access)
      change ((sequencer table kept answers).after (s.next table access)
        trace).words = _
      rw [hstep]
      cases access with
      | read reg value => cases reg <;> rfl
      | write reg value =>
          cases reg <;> first | rfl | skip
          simp [Seen.next, dataWords]

theorem admits_anyAnswer (table : ModeTable) (kept : UInt32) (s : Seen)
    (trace : List (Access Reg UInt32)) :
    (sequencer table kept anyAnswer).Admits s trace := by
  induction trace generalizing s with
  | nil => exact True.intro
  | cons access trace ih =>
      cases access with
      | read reg value => exact ⟨True.intro, ih _⟩
      | write reg value => exact ih _

/-- What is known of a run whose hardware answers as assumed. -/
theorem ends_of_run {table : ModeTable} {answers : Seen → Reg → UInt32 → Prop}
    {fpgaData : FpgaData} {words : List UInt32} {imageStatus : AltStatusCode}
    {trace : List (Access Reg UInt32)} {status : AltStatusCode}
    (himage : ImageOf fpgaData words imageStatus) (hsuited : Suited table answers)
    (hrun : Runs (altFpgaInternalConfigure fpgaData) trace status)
    (hanswers : (sequencer table configureKept answers).Admits (Seen.start 0)
      trace) :
    (sequencer table configureKept answers).Accepts (Seen.start 0) trace ∧
      (Refusal status ∧ Untouched (Seen.start 0)
          ((sequencer table configureKept answers).after (Seen.start 0) trace) ∨
        ∃ middle : Seen, middle.words = [] ∧ middle.ctl = middle.found ∧
          Outcome configureKept words imageStatus middle status
            ((sequencer table configureKept answers).after (Seen.start 0)
              trace)) := by
  have hwp := @wp_altFpgaInternalConfigure table configureKept answers
    (Seen.start 0) (fun _ => True) _ _ _ himage (by decide) rfl hsuited
    (fun _ _ _ _ => True.intro)
  obtain ⟨haccepts, hpost⟩ := wp_sound hwp hrun hanswers
  refine ⟨haccepts, ?_⟩
  rcases hpost with ⟨hrefusal, huntouched, _, _⟩ | ⟨middle, hwords, hctl, _, hout⟩
  · exact Or.inl ⟨hrefusal, huntouched⟩
  · exact Or.inr ⟨middle, hwords, hctl, hout⟩

/-- A run over an image of seven bytes whose hardware takes every step at once:
the last three bytes arrive as the first three. -/
def sevenBytes : List UInt8 := [1, 2, 3, 4, 5, 6, 7]

def sevenBytesTrace : List (Access Reg UInt32) :=
  [.read .ctl 0x1, .read .extPorta 0x800, .read .stat 0x50, .read .ctl 0x1,
    .read .stat 0x50, .write .ctl 0x2c1, .write .ctl 0x2c5,
    .read .extPorta 0x800, .read .stat 0x51, .write .ctl 0x2c1,
    .read .extPorta 0x800, .read .stat 0x52, .write .portaEoi 0x1,
    .write .ctl 0x3c1, .write .data 0x04030201, .write .data 0x00030201,
    .read .extPorta 0x803, .write .ctl 0x2c1, .read .dclkstat 0,
    .write .dclkcnt 4, .read .dclkstat 1, .write .dclkstat 1,
    .read .extPorta 0x800, .read .stat 0x54]

theorem runs_sevenBytes :
    Runs (altFpgaConfigure sevenBytes 7) sevenBytesTrace .success :=
  runs_of_replay (by decide +kernel)

/-- The same image where the pins show a 16-bit mode with encryption: the ratio
becomes x2 and not x4. -/
def halvedTrace : List (Access Reg UInt32) :=
  [.read .ctl 0x1, .read .extPorta 0x800, .read .stat 0x08, .read .ctl 0x1,
    .read .stat 0x08, .write .ctl 0x41, .write .ctl 0x45,
    .read .extPorta 0x800, .read .stat 0x09, .write .ctl 0x41,
    .read .extPorta 0x800, .read .stat 0x0a, .write .portaEoi 0x1,
    .write .ctl 0x141, .write .data 0x04030201, .write .data 0x00030201,
    .read .extPorta 0x803, .write .ctl 0x41, .read .dclkstat 0,
    .write .dclkcnt 4, .read .dclkstat 1, .write .dclkstat 1,
    .read .extPorta 0x800, .read .stat 0x0c]

example : (altFpgaConfigure sevenBytes 7).replay halvedTrace = some .success ∧
    ¬(sequencer documentedModes configureKept anyAnswer).Accepts (Seen.start 0)
      halvedTrace := by
  decide +kernel

/-- How every configuration leaves the hardware: a refusal has written nothing;
otherwise the FPGA is out of reset, and the port is shut unless it was found
open and nothing went through it. -/
theorem altFpgaInternalConfigure_leaves {fpgaData : FpgaData}
    {trace : List (Access Reg UInt32)} {status : AltStatusCode}
    (hrun : Runs (altFpgaInternalConfigure fpgaData) trace status) :
    let last := drivenProtocol.after (Seen.start 0) trace
    (Refusal status ↔ last.touched = false) ∧
      (last.touched = true → ¬Pulled last.ctl) ∧
      (PortOpen last.ctl → PortOpen last.found ∧ dataWords trace = []) := by
  obtain ⟨words, imageStatus, himage⟩ := exists_imageOf fpgaData
  obtain ⟨_, hends⟩ :=
    ends_of_run himage (suited_drivenModes _) hrun (admits_anyAnswer _ _ _ _)
  have hwords := words_after drivenModes configureKept anyAnswer
    (Seen.start 0) trace
  intro last
  change last.words = dataWords trace at hwords
  rcases hends with ⟨hrefusal, huntouched⟩ | ⟨middle, hmiddle, hctl, houtcome⟩
  · have htouched : last.touched = false := huntouched.touched
    refine ⟨⟨fun _ => htouched, fun _ => hrefusal⟩, ?_, ?_⟩
    · intro h
      rw [htouched] at h
      cases h
    · intro hopen
      rw [← hwords]
      have hfound : last.ctl = last.found := huntouched.ctl
      exact ⟨hfound ▸ hopen, huntouched.words⟩
  · have htouched : last.touched = true := houtcome.touched
    refine ⟨⟨?_, ?_⟩, fun _ => houtcome.released, ?_⟩
    · intro hrefusal
      rcases houtcome.code with ⟨hsuccess, _⟩ | ⟨hfailure, _⟩
      · exact absurd hsuccess hrefusal.ne_success
      · exact absurd hrefusal hfailure.not_refusal
    · intro h
      rw [htouched] at h
      cases h
    · intro hopen
      obtain ⟨hbefore, hsame⟩ := houtcome.port hopen
      have hfound : last.found = middle.found := houtcome.found
      rw [hfound, ← hctl, ← hwords]
      exact ⟨hbefore, hsame.trans hmiddle⟩

theorem sevenBytes_leaves :
    let last := drivenProtocol.after (Seen.start 0) sevenBytesTrace
    (Refusal .success ↔ last.touched = false) ∧
      (last.touched = true → ¬Pulled last.ctl) ∧
      (PortOpen last.ctl → PortOpen last.found ∧ dataWords sevenBytesTrace = []) :=
  altFpgaInternalConfigure_leaves runs_sevenBytes

/-- Where the words of a run stand to the image. -/
theorem dataWords_of_run {fpgaData : FpgaData} {words : List UInt32}
    {imageStatus : AltStatusCode} {trace : List (Access Reg UInt32)}
    {status : AltStatusCode} (himage : ImageOf fpgaData words imageStatus)
    (hrun : Runs (altFpgaInternalConfigure fpgaData) trace status) :
    (dataWords trace = [] ∨ dataWords trace = words) ∧
      (status = .success → imageStatus = .success ∧ dataWords trace = words) := by
  have hwords := words_after drivenModes configureKept anyAnswer
    (Seen.start 0) trace
  change _ = dataWords trace at hwords
  obtain ⟨_, hends⟩ :=
    ends_of_run himage (suited_drivenModes _) hrun (admits_anyAnswer _ _ _ _)
  rcases hends with ⟨hrefusal, huntouched⟩ | ⟨middle, hmiddle, _, houtcome⟩
  · refine ⟨Or.inl ?_, fun h => absurd h hrefusal.ne_success⟩
    rw [← hwords]
    exact huntouched.words
  · have hsent := houtcome.sent
    have hcomplete := houtcome.complete
    rw [hwords, hmiddle] at hsent hcomplete
    exact ⟨hsent, hcomplete⟩

/-- What a configuration from a buffer sends: nothing, or all the words of the
image in order.  After a success the bytes that arrived are the image exactly
when the image's last, incomplete word repeats its beginning. -/
theorem altFpgaConfigure_sends {cfgBuf : List UInt8} {cfgBufLen : Nat}
    {trace : List (Access Reg UInt32)} {status : AltStatusCode}
    (hbuffer : cfgBufLen ≤ cfgBuf.length)
    (hrun : Runs (altFpgaConfigure cfgBuf cfgBufLen) trace status) :
    (dataWords trace = [] ∨ dataWords trace = axiWords cfgBuf cfgBufLen) ∧
      (status = .success → cfgBufLen ≤ maxDataLimit ∧
        ((wordBytes (dataWords trace)).take cfgBufLen = cfgBuf.take cfgBufLen ↔
          (cfgBuf.drop (4 * (cfgBufLen / 4))).take (cfgBufLen % 4) =
            cfgBuf.take (cfgBufLen % 4))) := by
  by_cases hlimit : cfgBufLen ≤ maxDataLimit
  · obtain ⟨hsent, hcomplete⟩ :=
      dataWords_of_run (imageOf_full cfgBuf hlimit) hrun
    refine ⟨hsent, fun hsuccess => ⟨hlimit, ?_⟩⟩
    rw [(hcomplete hsuccess).2]
    exact take_wordBytes_axiWords_eq_iff hbuffer
  · obtain ⟨hsent, hcomplete⟩ :=
      dataWords_of_run (imageOf_full_too_long cfgBuf (Nat.not_le.mp hlimit)) hrun
    refine ⟨Or.inl (hsent.elim id id), fun hsuccess => ?_⟩
    cases (hcomplete hsuccess).1

/-- The seven bytes do not arrive: their rest is not what they begin with. -/
theorem sevenBytes_sends :
    (dataWords sevenBytesTrace = [] ∨
        dataWords sevenBytesTrace = axiWords sevenBytes 7) ∧
      (AltStatusCode.success = .success → 7 ≤ maxDataLimit ∧
        ((wordBytes (dataWords sevenBytesTrace)).take 7 = sevenBytes.take 7 ↔
          (sevenBytes.drop (4 * (7 / 4))).take (7 % 4) = sevenBytes.take (7 % 4))) :=
  altFpgaConfigure_sends (by decide) runs_sevenBytes

/- The time a configuration takes, in accesses. -/

theorem within_altFpgaStateGet : Within 2 altFpgaStateGet := by
  have hstatus : Within 1 altFpgaMonStatusGet :=
    (within_readWord _).bind fun _ => within_pure 0 _
  refine hstatus.bind (k := 1) fun status => ?_
  split
  · exact within_pure 1 _
  · exact (within_readWord _).bind fun _ => within_pure 0 _

theorem within_waitForFpgaState (state : UInt32) (timeout : Nat) :
    Within ((timeout + 1) * 2) (waitForFpgaState state timeout) := by
  have hprobe : Within 2 (stateProbe state) :=
    within_altFpgaStateGet.bind fun _ => within_pure 0 _
  exact (hprobe.pollFor timeout).bind fun _ => within_pure 0 _

theorem within_waitForConfigDone (timeout : Nat) :
    Within (timeout + 1) (waitForConfigDone timeout) := by
  have hprobe : Within 1 configProbe :=
    ((within_readWord _).bind (k := 0) fun _ => within_pure 0 _).bind
      fun _ => within_pure 0 _
  have hpoll := hprobe.pollFor timeout
  rw [Nat.mul_one] at hpoll
  exact hpoll.bind fun _ => within_pure 0 _

theorem within_dclkSetAndWaitClear (count : UInt32) (timeout : Nat) :
    Within (3 + (timeout + 1) * 2) (dclkSetAndWaitClear count timeout) := by
  have hclear : Within 2 dclkClear := by
    refine (within_readWord _).bind (k := 1) fun value => ?_
    split
    · exact within_writeWord _ _
    · exact within_pure 1 _
  have hprobe : Within 2 dclkProbe := by
    refine (within_readWord _).bind (k := 1) fun value => ?_
    split
    · exact (within_writeWord _ _).bind fun _ => within_pure 0 _
    · exact within_pure 1 _
  have hrest : Within (1 + (timeout + 1) * 2) (do
      writeWord .dclkcnt count
      return (← pollFor dclkProbe timeout).getD .tmo : Fpga AltStatusCode) :=
    (within_writeWord _ _).bind fun _ =>
      (hprobe.pollFor timeout).bind fun _ => within_pure 0 _
  exact (hclear.bind fun _ => hrest).mono (by omega)

/-- The accesses of a configuration besides those of the image: every wait is
bounded by its timeout. -/
def configureAccesses : Nat := 24615

theorem within_altFpgaInternalConfigure {fpgaData : FpgaData} {words : List UInt32}
    {imageStatus : AltStatusCode} (himage : ImageOf fpgaData words imageStatus) :
    Within (words.length + configureAccesses)
      (altFpgaInternalConfigure fpgaData) := by
  have hdata : Within (words.length + 8193)
      (altFpgaInternalConfigureIdata fpgaData) := by
    rw [altFpgaInternalConfigureIdata, himage.eq]
    refine ((within_writeAll _ _).bind (k := 0) fun _ => within_pure 0 _).bind
      fun status => ?_
    split
    · exact within_pure _ _
    · refine (within_waitForConfigDone altFpgaTmoConfig).bind (k := 0) fun code => ?_
      split <;> exact within_pure 0 _
  have hwait : ∀ state, Within 4098 (waitForFpgaState state altFpgaTmoState) :=
    fun state => (within_waitForFpgaState state _).mono (by decide)
  have hdclk : Within 4117
      (dclkSetAndWaitClear 4 (altFpgaTmoDclkConst + 4 * altFpgaTmoDclkMul)) :=
    (within_dclkSetAndWaitClear 4 _).mono (by decide)
  have hfinish : ∀ ctrlReg dataStatus,
      Within 8216 (finishSteps ctrlReg dataStatus) := by
    intro ctrlReg dataStatus
    refine (within_writeWord _ _).bind (k := 8215) fun _ => ?_
    refine hdclk.bind (k := 4098) fun status => ?_
    split
    · exact within_pure _ _
    · refine (hwait _).bind (k := 0) fun status => ?_
      split <;> exact within_pure 0 _
  have hload : ∀ ctrlReg, Within (words.length + 16411)
      (loadSteps ctrlReg fpgaData) := by
    intro ctrlReg
    have hsteps := (within_writeWord (W := UInt32) Reg.portaEoi
      (portaEoiNsSet 0x1)).bind fun _ =>
        (within_writeWord .ctl (ctrlReg ||| ctlAxicfgenSetMsk)).bind fun _ =>
          hdata.bind fun status => hfinish (ctrlReg ||| ctlAxicfgenSetMsk) status
    exact hsteps.mono (by omega)
  have hconfigure : ∀ ctrlReg, Within (words.length + 24610)
      (configureSteps ctrlReg fpgaData) := by
    intro ctrlReg
    refine Within.mono (n := 1 + (1 + (4098 + (1 + (4098 + (words.length + 16411))))))
      ?_ (by omega)
    refine (within_writeWord _ _).bind fun _ => (within_writeWord _ _).bind
      fun _ => (hwait _).bind fun status => (within_writeWord _ _).bind fun _ => ?_
    split
    · exact within_pure _ _
    · refine (hwait _).bind fun status => ?_
      split
      · exact within_pure _ _
      · exact hload _
  have hcontrol : Within 1 altFpgaControlIsEnabled :=
    (within_readWord _).bind fun _ => within_pure 0 _
  have hmode : Within 1 altFpgaCfgModeGet :=
    (within_readWord _).bind fun _ => within_pure 0 _
  refine Within.mono (n := 1 + (2 + (1 + (1 + (words.length + 24610))))) ?_
    (by rw [configureAccesses]; omega)
  refine hcontrol.bind fun enabled => ?_
  split
  · exact within_pure _ _
  · refine within_altFpgaStateGet.bind fun state => ?_
    split
    · exact within_pure _ _
    · refine (within_readWord _).bind fun ctrlReg => hmode.bind fun mode => ?_
      split
      · exact within_pure _ _
      · exact hconfigure _

/-- A stream cannot hand out more words than the limit has bytes. -/
theorem exists_imageOf_length_le (fpgaData : FpgaData) :
    ∃ words status, ImageOf fpgaData words status ∧
      words.length ≤ maxDataLimit := by
  cases fpgaData with
  | full buffer length =>
      by_cases h : length ≤ maxDataLimit
      · refine ⟨_, _, imageOf_full buffer h, ?_⟩
        rw [length_axiWords]
        rw [maxDataLimit] at h ⊢
        omega
      · exact ⟨_, _, imageOf_full_too_long buffer (Nat.not_le.mp h),
          Nat.zero_le _⟩
  | istream stream =>
      obtain ⟨count, hstops, heq⟩ := istreamLoop_eq stream maxDataLimit 0
      refine ⟨_, _, imageOf_istream heq, ?_⟩
      exact Nat.le_trans (length_allWords_le fun answer hmem =>
        (hstops.sizes answer hmem).1) hstops.total

/-- A configuration ends, whatever the hardware answers and whatever the callback
of a stream does. -/
theorem altFpgaInternalConfigure_ends {fpgaData : FpgaData}
    {trace : List (Access Reg UInt32)} {status : AltStatusCode}
    (hrun : Runs (altFpgaInternalConfigure fpgaData) trace status) :
    trace.length ≤ maxDataLimit + configureAccesses := by
  obtain ⟨words, imageStatus, himage, hwords⟩ := exists_imageOf_length_le fpgaData
  have hlength := (within_altFpgaInternalConfigure himage).length_le hrun
  exact Nat.le_trans hlength (Nat.add_le_add_right hwords _)

theorem sevenBytes_ends :
    sevenBytesTrace.length ≤ maxDataLimit + configureAccesses :=
  altFpgaInternalConfigure_ends runs_sevenBytes

end FpgaFramework
