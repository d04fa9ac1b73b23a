/-
The node's own use of the driver.  On a control register that keeps what is
written to it, `writeFPGAconfig` takes the control block, configures, and leaves
every bit that is not the driver's as it was, with the block given back.
-/
import FpgaFramework.FpgaRuns

namespace FpgaFramework

open Driver Monitor

/-- The bits that the node leaves as it finds them. -/
def nodeKept : UInt32 := ~~~(driverBits ||| ctlEnSetMsk)

/-- The protocol for the node, on a control register that keeps what is written. -/
abbrev nodeProtocol : Monitor Seen Reg UInt32 :=
  sequencer drivenModes nodeKept coherent

/-- No control word brings the protocol to user mode, and the one that pulls the
FPGA into reset ends it. -/
theorem LoadStage.onControl_eq_user_iff (stage : LoadStage) (suits : Bool)
    (ctl : UInt32) :
    stage.onControl suits ctl = .user ↔ stage = .user ∧ ¬Pulled ctl := by
  by_cases hpulled : Pulled ctl
  · cases suits <;> by_cases hidle : stage = .idle <;>
      simp [LoadStage.onControl, hpulled, hidle]
  · by_cases hopen : PortOpen ctl
    · cases stage <;> simp [LoadStage.onControl, hpulled, hopen]
    · cases stage <;> simp [LoadStage.onControl, hpulled, hopen]

/-- A control word that is not set up for the mode begins nothing. -/
theorem LoadStage.onControl_idle_false (ctl : UInt32) :
    LoadStage.idle.onControl false ctl = .idle := by
  by_cases hpulled : Pulled ctl <;> simp [LoadStage.onControl, hpulled]

theorem or_en_and_kept (ctl : UInt32) :
    (ctl ||| ctlEnSetMsk) &&& nodeKept = ctl &&& nodeKept := by
  have hkept : ctlEnSetMsk &&& nodeKept = 0 := by decide
  rw [or_and_distrib, hkept, UInt32.or_zero]

theorem and_not_en_and_kept (ctl : UInt32) :
    (ctl &&& ~~~ctlEnSetMsk) &&& nodeKept = ctl &&& nodeKept := by
  have hkept : ~~~ctlEnSetMsk &&& nodeKept = nodeKept := by decide
  rw [UInt32.and_assoc, hkept]

/-- A size that a signed integer holds is the same as an unsigned one, and a
negative one is beyond any image. -/
theorem toNat_toUInt32_of_nonneg {fsize : Int32} (h : 0 ≤ fsize) :
    fsize.toUInt32.toNat = fsize.toInt.toNat := by
  have hnonneg : 0 ≤ fsize.toBitVec.toInt := Int32.le_iff_toInt_le.mp h
  have hword : fsize.toUInt32.toNat = fsize.toBitVec.toNat := rfl
  have hint : fsize.toInt = fsize.toBitVec.toInt := rfl
  rw [hword, hint, BitVec.toInt_eq_toNat_cond]
  rw [BitVec.toInt_eq_toNat_cond] at hnonneg
  split
  · exact (Int.toNat_natCast _).symm
  · next hlarge =>
      rw [if_neg hlarge] at hnonneg
      have hlt := fsize.toBitVec.isLt
      omega

theorem maxDataLimit_lt_of_neg {fsize : Int32} (h : fsize < 0) :
    maxDataLimit < fsize.toUInt32.toNat := by
  have hneg : fsize.toBitVec.toInt < 0 := Int32.lt_iff_toInt_lt.mp h
  have hlarge := BitVec.toInt_neg_iff.mp hneg
  have hword : fsize.toUInt32.toNat = fsize.toBitVec.toNat := rfl
  rw [hword, maxDataLimit]
  omega

/-- The state in which the node has the control block. -/
def Seen.taken (ctl : UInt32) (mode : Option UInt32) : Seen :=
  ⟨.idle, mode, ctl &&& ctlEnSetMsk != 0, ctl, ctl ||| ctlEnSetMsk, [], true⟩

theorem wp_altFpgaControlEnable (ctl : UInt32) :
    nodeProtocol.wp altFpgaControlEnable (fun _ s' => s' = Seen.taken ctl none)
      (Seen.start ctl) := by
  rw [altFpgaControlEnable, altSetbitsWord, wp_bind, wp_bind, wp_readWord]
  intro value hvalue
  have hctl : value = ctl := hvalue rfl
  subst hctl
  refine ⟨True.intro, ?_⟩
  rw [wp_writeWord]
  refine ⟨⟨or_en_and_kept value, fun hopen => Or.inl ?_, Or.inr ⟨?_, ?_⟩⟩, ?_⟩
  · exact (portOpen_or_iff (by decide)).mp hopen
  · exact or_and_setupBits (by decide) value
  · exact (pulled_or_iff (by decide)).mp
  · exact congrArg (fun stage => { Seen.taken value none with stage := stage })
      (LoadStage.onControl_idle_false _)

/-- Giving the block back takes nothing from user mode but a pull into reset. -/
theorem wp_altFpgaControlDisable (s : Seen) :
    nodeProtocol.wp altFpgaControlDisable
      (fun _ s' => s'.ctl = s.ctl &&& ~~~ctlEnSetMsk ∧ s'.words = s.words ∧
        (s'.stage = .user ↔ s.stage = .user ∧ ¬Pulled s.ctl)) s := by
  rw [altFpgaControlDisable, altClrbitsWord, wp_bind, wp_bind, wp_readWord]
  intro last hlast
  have hctl : last = s.ctl := hlast rfl
  subst hctl
  refine ⟨True.intro, ?_⟩
  rw [wp_writeWord]
  refine ⟨⟨and_not_en_and_kept _, fun hopen => Or.inl ?_, Or.inr ⟨?_, ?_⟩⟩, ?_⟩
  · exact (portOpen_and_iff (by decide)).mp hopen
  · exact and_and_setupBits (by decide) _
  · exact (pulled_and_iff (by decide)).mp
  · have hpulled : Pulled (s.ctl &&& ~~~ctlEnSetMsk) ↔ Pulled s.ctl :=
      pulled_and_iff (by decide)
    refine ⟨rfl, rfl, ?_⟩
    rw [← hpulled]
    exact LoadStage.onControl_eq_user_iff _ _ _

/-- What the node's configuration comes to, on a coherent control register. -/
theorem wp_writeFPGAconfig {buf : List UInt8} {fsize : Int32} {words : List UInt32}
    {imageStatus : AltStatusCode} (ctl : UInt32)
    (himage : ImageOf (.full buf fsize.toUInt32.toNat) words imageStatus) :
    nodeProtocol.wp (writeFPGAconfig buf fsize)
      (fun result s' =>
        (result = true ↔ s'.stage = .user) ∧
          s'.ctl &&& ctlEnSetMsk = 0 ∧ s'.ctl &&& nodeKept = ctl &&& nodeKept ∧
          (s'.words = [] ∨ s'.words = words) ∧
          (result = true → imageStatus = .success ∧ s'.words = words))
      (Seen.start ctl) := by
  rw [writeFPGAconfig]
  refine wp_bind_of (wp_altFpgaControlEnable ctl) ?_
  rintro _ _ rfl
  have hstate : nodeProtocol.wp altFpgaStateGet
      (fun _ s' => ∃ mode, s' = Seen.taken ctl mode) (Seen.taken ctl none) := by
    refine wp_altFpgaStateGet (fun h => by cases h) ⟨none, rfl⟩ ?_
    exact fun stat => ⟨_, Seen.shown_of_idle rfl stat⟩
  refine wp_bind_of hstate ?_
  rintro _ _ ⟨mode, rfl⟩
  have hconfigure := @wp_altFpgaInternalConfigure drivenModes nodeKept coherent
    (Seen.taken ctl mode) (fun found => found = ctl ||| ctlEnSetMsk) _ _ _ himage
    (by decide) rfl (suited_drivenModes _) (by
      rintro s' value' (hsame | hsame) hread
      · exact (hread rfl).trans hsame
      · exact (hread rfl).trans hsame)
  refine wp_bind_of hconfigure ?_
  intro status s' hends
  -- Whatever the end of the configuration, the foreign bits are those found.
  have hbits : s'.ctl &&& nodeKept = ctl &&& nodeKept := by
    rcases hends with ⟨_, huntouched, hfound, _⟩ | ⟨middle, _, _, hfound, houtcome⟩
    · rw [huntouched.ctl, hfound, or_en_and_kept]
    · rw [houtcome.control, houtcome.found, hfound, or_en_and_kept]
  have huser : status = .success ↔ s'.stage = .user ∧ ¬Pulled s'.ctl := by
    rcases hends with ⟨hrefusal, huntouched, _, _⟩ | ⟨_, _, _, _, houtcome⟩
    · constructor
      · intro h
        exact absurd h hrefusal.ne_success
      · rintro ⟨hstage, _⟩
        have hidle := huntouched.idle
        rw [hstage] at hidle
        cases hidle
    · constructor
      · intro h
        rcases houtcome.code with ⟨_, hstage⟩ | ⟨hfailure, _⟩
        · exact ⟨hstage, houtcome.released⟩
        · exact absurd h hfailure.ne_success
      · rintro ⟨hstage, _⟩
        rcases houtcome.code with ⟨hsuccess, _⟩ | ⟨_, hother⟩
        · exact hsuccess
        · exact absurd hstage hother
  have hsent : (s'.words = [] ∨ s'.words = words) ∧
      (status = .success → imageStatus = .success ∧ s'.words = words) := by
    rcases hends with ⟨hrefusal, huntouched, _, _⟩ | ⟨_, hmiddle, _, _, houtcome⟩
    · exact ⟨Or.inl huntouched.words, fun h => absurd h hrefusal.ne_success⟩
    · have hwords := houtcome.sent
      have hcomplete := houtcome.complete
      rw [hmiddle] at hwords hcomplete
      exact ⟨hwords, hcomplete⟩
  refine wp_bind_of (wp_altFpgaControlDisable s') ?_
  rintro _ last ⟨hctl, hwords, hstage⟩
  rw [wp_pure]
  have hcode : decide (status = .success) = true ↔ status = .success :=
    decide_eq_true_iff
  rw [hctl, hwords]
  refine ⟨?_, ?_, ?_, hsent.1, fun h => hsent.2 (hcode.mp h)⟩
  · rw [hcode, huser]
    exact hstage.symm
  · rw [UInt32.and_assoc, UInt32.not_and_self, UInt32.and_zero]
  · rw [and_not_en_and_kept, hbits]

/-- Every run of `writeFPGAconfig` on a coherent control register: it keeps to the
protocol, reports success exactly when user mode was reached, gives the control
block back and leaves foreign bits alone.  After a success the whole words of the
file have arrived, and the file's first bytes in the place of its last, incomplete
word; a negative size never sends anything. -/
theorem writeFPGAconfig_gives_back {buf : List UInt8} {fsize : Int32}
    {ctl : UInt32} {trace : List (Access Reg UInt32)} {result : Bool}
    (hbuffer : fsize.toInt.toNat ≤ buf.length)
    (hrun : Runs (writeFPGAconfig buf fsize) trace result)
    (hcoherent : nodeProtocol.Admits (Seen.start ctl) trace) :
    let last := nodeProtocol.after (Seen.start ctl) trace
    let size := fsize.toInt.toNat
    nodeProtocol.Accepts (Seen.start ctl) trace ∧
      (result = true ↔ last.stage = .user) ∧
      last.ctl &&& ctlEnSetMsk = 0 ∧ last.ctl &&& nodeKept = ctl &&& nodeKept ∧
      (result = true → dataWords trace = axiWords buf size ∧
        (wordBytes (dataWords trace)).take size =
          buf.take (4 * (size / 4)) ++ buf.take (size % 4)) ∧
      (fsize < 0 → result = false ∧ dataWords trace = []) := by
  have hwords := words_after drivenModes nodeKept coherent (Seen.start ctl) trace
  intro last size
  change last.words = dataWords trace at hwords
  by_cases hlimit : fsize.toUInt32.toNat ≤ maxDataLimit
  · have hnonneg : 0 ≤ fsize := by
      by_contra hneg
      exact absurd (maxDataLimit_lt_of_neg (Int32.not_le.mp hneg))
        (Nat.not_lt.mpr hlimit)
    obtain ⟨haccepts, huser, hen, hbits, _, hsent⟩ :=
      wp_sound (wp_writeFPGAconfig ctl (imageOf_full buf hlimit)) hrun hcoherent
    refine ⟨haccepts, huser, hen, hbits, ?_, ?_⟩
    · intro hresult
      have hall : dataWords trace = axiWords buf size := by
        rw [← hwords, (hsent hresult).2, toNat_toUInt32_of_nonneg hnonneg]
      refine ⟨hall, ?_⟩
      rw [hall]
      exact take_wordBytes_axiWords hbuffer
    · intro hneg
      exact absurd hnonneg (Int32.not_le.mpr hneg)
  · obtain ⟨haccepts, huser, hen, hbits, hnone, hsent⟩ :=
      wp_sound (wp_writeFPGAconfig ctl
        (imageOf_full_too_long buf (Nat.not_le.mp hlimit))) hrun hcoherent
    have hfailed : result ≠ true := by
      intro hresult
      cases (hsent hresult).1
    refine ⟨haccepts, huser, hen, hbits, fun h => absurd h hfailed, ?_⟩
    intro _
    rw [← hwords]
    exact ⟨Bool.eq_false_iff.mpr hfailed, hnone.elim id id⟩

/-- A file of seven bytes, on hardware that takes every step at once. -/
def nodeTrace : List (Access Reg UInt32) :=
  [.read .ctl 0, .write .ctl 0x1, .read .extPorta 0x800, .read .stat 0x50,
    .read .ctl 0x1, .read .extPorta 0x800, .read .stat 0x50, .read .ctl 0x1,
    .read .stat 0x50, .write .ctl 0x2c1, .write .ctl 0x2c5,
    .read .extPorta 0x800, .read .stat 0x51, .write .ctl 0x2c1,
    .read .extPorta 0x800, .read .stat 0x52, .write .portaEoi 0x1,
    .write .ctl 0x3c1, .write .data 0x04030201, .write .data 0x00030201,
    .read .extPorta 0x803, .write .ctl 0x2c1, .read .dclkstat 0,
    .write .dclkcnt 4, .read .dclkstat 1, .write .dclkstat 1,
    .read .extPorta 0x800, .read .stat 0x54, .read .ctl 0x2c1,
    .write .ctl 0x2c0]

theorem runs_node : Runs (writeFPGAconfig sevenBytes 7) nodeTrace true :=
  runs_of_replay (by decide +kernel)

theorem admits_node : nodeProtocol.Admits (Seen.start 0) nodeTrace := by
  simp only [nodeTrace, Monitor.Admits, sequencer, coherent, Seen.next,
    Seen.shown, Seen.start, Seen.controlled, reduceCtorEq, false_implies,
    forall_const, and_self]

/-- Of the seven bytes the first four arrive, and then the first three again. -/
theorem writeFPGAconfig_gives_back_sevenBytes :
    let last := nodeProtocol.after (Seen.start 0) nodeTrace
    nodeProtocol.Accepts (Seen.start 0) nodeTrace ∧ last.stage = .user ∧
      last.ctl &&& ctlEnSetMsk = 0 ∧
      (wordBytes (dataWords nodeTrace)).take 7 = [1, 2, 3, 4, 1, 2, 3] := by
  have hends := writeFPGAconfig_gives_back (by decide) runs_node admits_node
  exact ⟨hends.1, hends.2.1.mp rfl, hends.2.2.1, (hends.2.2.2.2.1 rfl).2⟩

end FpgaFramework
