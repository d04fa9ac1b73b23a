/-
The driver against the configuration protocol: what each of its functions does
to the state of the protocol's monitor, and the outcome of a configuration.
-/
import FpgaFramework.FpgaSequence

namespace FpgaFramework

open Driver Monitor

/-- Codes returned before anything was written. -/
def Refusal (status : AltStatusCode) : Prop :=
  status = .fpgaNoSocCtrl ∨ status = .fpgaPwrOff ∨ status = .error

/-- Codes of a configuration that was begun and failed. -/
def Failure (status : AltStatusCode) : Prop :=
  status = .fpgaCfg ∨ status = .fpgaCrc ∨ status = .fpgaCfgStm

theorem LoadStage.onMonitor_of_ne {stage : LoadStage} (h : stage ≠ .feeding)
    (status : UInt32) : stage.onMonitor status = stage := by
  cases stage <;> first | rfl | exact absurd rfl h

theorem LoadStage.onDone_of_ne {stage : LoadStage} (h : stage ≠ .counting) :
    stage.onDone = stage := by
  cases stage <;> first | rfl | exact absurd rfl h

/-- One reading of the monitor confirms the configuration as the protocol has
it. -/
theorem configDone_eq_success_iff (status : UInt32) :
    configDone status = some .success ↔ Confirmed status := by
  simp only [configDone, Confirmed]
  by_cases hcrc : status &&& monCrcError = 0
  · by_cases hdone : status &&& monConfDone = 0
    · by_cases hstat : status &&& monNStatus = 0 <;> simp [hcrc, hdone, hstat]
    · by_cases hstat : status &&& monNStatus = 0
      · simp [hcrc, hdone, hstat]
      · have hboth : (status &&& monConfDone != 0) =
            (status &&& monNStatus != 0) := by
          rw [bne_iff_ne.mpr hdone, bne_iff_ne.mpr hstat]
        simp [hcrc, hdone, hstat, hboth]
  · simp [hcrc]

theorem configDone_cases (status : UInt32) :
    configDone status = some .success ∨ configDone status = none ∨
      ∃ code, configDone status = some code ∧ Failure code := by
  simp only [configDone]
  split
  · exact Or.inr (Or.inr ⟨_, rfl, Or.inr (Or.inl rfl)⟩)
  · split
    · split
      · exact Or.inl rfl
      · exact Or.inr (Or.inr ⟨_, rfl, Or.inl rfl⟩)
    · exact Or.inr (Or.inl rfl)

section Functions

variable {table : ModeTable} {kept : UInt32}
  {answers : Seen → Reg → UInt32 → Prop} {s : Seen}

theorem wp_altFpgaMonStatusGet {post : UInt32 → Seen → Prop}
    (h : ∀ status, post status { s with stage := s.stage.onMonitor status }) :
    (sequencer table kept answers).wp altFpgaMonStatusGet post s := by
  simp only [altFpgaMonStatusGet, wp_bind, wp_readWord, wp_pure]
  intro value _
  exact ⟨True.intro, h _⟩

theorem wp_altFpgaStateGet {post : UInt32 → Seen → Prop}
    (hstage : s.stage ≠ .feeding)
    (hoff : post statePowerOff s)
    (h : ∀ value, post (statModGet value) (s.shown value)) :
    (sequencer table kept answers).wp altFpgaStateGet post s := by
  rw [altFpgaStateGet, wp_bind]
  apply wp_altFpgaMonStatusGet
  intro status
  rw [LoadStage.onMonitor_of_ne hstage]
  split
  · exact hoff
  · simp only [wp_bind, wp_readWord, wp_pure]
    intro value _
    exact ⟨True.intro, h _⟩

/-- Before a configuration begins, the mode that is read is the one on record. -/
theorem wp_altFpgaCfgModeGet {post : UInt32 → Seen → Prop} (hidle : s.stage = .idle)
    (h : ∀ stat, answers s .stat stat →
      post (if knownMsel (statMselGet stat) then statMselGet stat else cfgModeUnknown)
        { s with mode := some (statMselGet stat) }) :
    (sequencer table kept answers).wp altFpgaCfgModeGet post s := by
  rw [altFpgaCfgModeGet, wp_bind, wp_readWord]
  intro stat hstat
  refine ⟨True.intro, ?_⟩
  change (sequencer table kept answers).wp _ _ (s.shown stat)
  rw [Seen.shown_of_idle hidle]
  exact h stat hstat

/-- A wait that succeeds has seen the state, and one that times out has seen
nothing that the protocol waits for. -/
theorem wp_waitForFpgaState {state : UInt32} (timeout : Nat)
    (hstage : s.stage ≠ .feeding) (hbegun : s.stage ≠ .idle)
    (hstate : state ≠ statePowerOff)
    (hother : ∀ mode, mode ≠ state → s.stage.onMode mode = s.stage) :
    (sequencer table kept answers).wp (waitForFpgaState state timeout)
      (fun status s' =>
        status = .success ∧ s' = { s with stage := s.stage.onMode state } ∨
          status = .tmo ∧ s' = s) s := by
  rw [waitForFpgaState, wp_bind]
  apply wp_pollFor fun s' => s' = s
  · rintro s' rfl
    rw [stateProbe, wp_bind]
    apply wp_altFpgaStateGet hstage
    · simp [hstate.symm]
    · intro value
      rw [Seen.shown_of_ne_idle hbegun]
      by_cases hmode : statModGet value = state
      · simp [hmode]
      · simp [hmode, hother _ hmode]
  · rintro s' rfl
    exact Or.inr ⟨rfl, rfl⟩
  · rfl

theorem wp_waitForConfigDone (timeout : Nat) (hstage : s.stage = .feeding) :
    (sequencer table kept answers).wp (waitForConfigDone timeout)
      (fun status s' =>
        status = .success ∧ s' = { s with stage := .configured } ∨
          (Failure status ∨ status = .tmo) ∧ s' = s) s := by
  rw [waitForConfigDone, wp_bind]
  apply wp_pollFor fun s' => s' = s
  · rintro s' rfl
    rw [configProbe, wp_bind]
    apply wp_altFpgaMonStatusGet
    intro status
    have hsame : ¬Confirmed status →
        ({ s' with stage := s'.stage.onMonitor status } : Seen) = s' := by
      intro hnot
      have hstay : s'.stage.onMonitor status = s'.stage := by
        rw [hstage]
        exact if_neg hnot
      rw [hstay]
    rcases configDone_cases status with hdone | hdone | ⟨code, hdone, hfail⟩
    · have hstep : s'.stage.onMonitor status = .configured := by
        rw [hstage]
        exact if_pos ((configDone_eq_success_iff status).mp hdone)
      rw [wp_pure, hdone, hstep]
      exact Or.inl ⟨rfl, rfl⟩
    · have hnot : ¬Confirmed status := by
        rw [← configDone_eq_success_iff, hdone]
        intro heq
        cases heq
      rw [wp_pure, hdone]
      exact hsame hnot
    · have hnot : ¬Confirmed status := by
        rw [← configDone_eq_success_iff, hdone]
        intro heq
        cases heq
        rcases hfail with hfail | hfail | hfail <;> cases hfail
      rw [wp_pure, hdone, hsame hnot]
      exact Or.inr ⟨Or.inl hfail, rfl⟩
  · rintro s' rfl
    exact Or.inr ⟨Or.inr rfl, rfl⟩
  · rfl

theorem wp_dclkClear (htouched : s.touched = true)
    (hstage : s.stage ≠ .counting) :
    (sequencer table kept answers).wp dclkClear (fun _ s' => s' = s) s := by
  have hread : ∀ value : UInt32, s.next table (.read .dclkstat value) = s := by
    intro value
    simp [Seen.next, LoadStage.onDone_of_ne hstage]
  rw [dclkClear, wp_bind, wp_readWord]
  intro value _
  refine ⟨True.intro, ?_⟩
  rw [sequencer_next, hread]
  split
  · rw [wp_writeWord]
    refine ⟨rfl, ?_⟩
    simp [Seen.next, ← htouched]
  · rfl

theorem wp_dclkSetAndWaitClear (timeout : Nat) (hport : ¬PortOpen s.ctl)
    (htouched : s.touched = true) (hstage : s.stage ≠ .counting) :
    (sequencer table kept answers).wp (dclkSetAndWaitClear 4 timeout)
      (fun status s' =>
        status = .success ∧ s' = { s with stage := s.stage.onCount.onDone } ∨
          status = .tmo ∧ s' = { s with stage := s.stage.onCount }) s := by
  refine wp_bind_of (wp_dclkClear htouched hstage) ?_
  rintro _ s' rfl
  rw [wp_bind, wp_writeWord]
  refine ⟨⟨rfl, hport⟩, ?_⟩
  have hcount : s'.next table (.write .dclkcnt 4) =
      { s' with stage := s'.stage.onCount } := by
    simp [Seen.next, ← htouched]
  rw [sequencer_next, hcount, wp_bind]
  apply wp_pollFor fun seen => seen = { s' with stage := s'.stage.onCount }
  · rintro seen rfl
    rw [dclkProbe, wp_bind, wp_readWord]
    intro value _
    refine ⟨True.intro, ?_⟩
    by_cases hvalue : value = dclkstatDone
    · rw [if_pos hvalue, wp_bind, wp_writeWord]
      refine ⟨rfl, Or.inl ⟨rfl, ?_⟩⟩
      simp [Seen.next, hvalue, htouched]
    · rw [if_neg hvalue]
      simp [Seen.next, hvalue]
  · rintro seen rfl
    exact Or.inr ⟨rfl, rfl⟩
  · rfl

/-- While the port is fed, words go to it in order. -/
theorem wp_writeAll (words : List UInt32) (hstage : s.stage = .feeding)
    (htouched : s.touched = true) :
    (sequencer table kept answers).wp (writeAll .data words)
      (fun _ s' => s' = { s with words := s.words ++ words }) s := by
  induction words generalizing s with
  | nil => simp [writeAll]
  | cons word words ih =>
      rw [writeAll, wp_bind, wp_writeWord]
      refine ⟨hstage, ?_⟩
      have hword : s.next table (.write .data word) =
          { s with words := s.words ++ [word] } := by
        simp [Seen.next, ← htouched]
      rw [sequencer_next, hword]
      apply wp_mono (ih (s := { s with words := s.words ++ [word] }) hstage htouched)
      rintro _ s' rfl
      simp

/-- What writing the image amounts to: its words, and the code it ends with. -/
structure ImageOf (fpgaData : FpgaData) (words : List UInt32)
    (status : AltStatusCode) : Prop where
  eq : writeImage fpgaData = (do writeAll .data words; return status)
  code : status = .success ∨ Failure status

theorem imageOf_full (buffer : List UInt8) {length : Nat}
    (h : length ≤ maxDataLimit) :
    ImageOf (.full buffer length) (axiWords buffer length) .success := by
  constructor
  · simp only [writeImage, gt_iff_lt, Nat.not_lt.mpr h, if_false,
      altFpgaInternalWriteaxi_eq]
  · exact Or.inl rfl

theorem imageOf_full_too_long (buffer : List UInt8) {length : Nat}
    (h : maxDataLimit < length) : ImageOf (.full buffer length) [] .fpgaCfg := by
  constructor
  · simp only [writeImage, gt_iff_lt, h, if_true, writeAll, pure_bind]
  · exact Or.inr (Or.inl rfl)

theorem imageOf_istream {stream : Nat → StreamAnswer} {count : Nat}
    (h : istreamLoop stream maxDataLimit 0 =
      (do writeAll .data (allWords (chunks stream 0 count))
          return (stream (0 + count)).endStatus)) :
    ImageOf (.istream stream) (allWords (chunks stream 0 count))
      (stream (0 + count)).endStatus := by
  constructor
  · exact h
  · rw [StreamAnswer.endStatus]
    split
    · exact Or.inl rfl
    · exact Or.inr (Or.inr (Or.inr rfl))

theorem exists_imageOf (fpgaData : FpgaData) :
    ∃ words status, ImageOf fpgaData words status := by
  cases fpgaData with
  | full buffer length =>
      by_cases h : length ≤ maxDataLimit
      · exact ⟨_, _, imageOf_full buffer h⟩
      · exact ⟨_, _, imageOf_full_too_long buffer (Nat.not_le.mp h)⟩
  | istream stream =>
      obtain ⟨count, _, heq⟩ := istreamLoop_eq stream maxDataLimit 0
      exact ⟨_, _, imageOf_istream heq⟩

/-- Steps 9 and 10. -/
theorem wp_altFpgaInternalConfigureIdata {fpgaData : FpgaData}
    {words : List UInt32} {status : AltStatusCode}
    (himage : ImageOf fpgaData words status) (hstage : s.stage = .feeding)
    (htouched : s.touched = true) :
    (sequencer table kept answers).wp (altFpgaInternalConfigureIdata fpgaData)
      (fun dataStatus s' =>
        dataStatus = .success ∧ status = .success ∧
            s' = { s with stage := .configured, words := s.words ++ words } ∨
          Failure dataStatus ∧ s' = { s with words := s.words ++ words }) s := by
  rw [altFpgaInternalConfigureIdata, himage.eq, bind_assoc]
  refine wp_bind_of (wp_writeAll words hstage htouched) ?_
  rintro _ s' rfl
  rw [pure_bind]
  rcases himage.code with rfl | hfail
  · rw [if_neg (fun hne => hne rfl)]
    refine wp_bind_of (wp_waitForConfigDone altFpgaTmoConfig hstage) ?_
    rintro code s' (⟨rfl, rfl⟩ | ⟨hcode, rfl⟩)
    · exact Or.inl ⟨rfl, rfl, rfl⟩
    · rcases hcode with (rfl | rfl | rfl) | rfl
      · exact Or.inr ⟨Or.inl rfl, rfl⟩
      · exact Or.inr ⟨Or.inr (Or.inl rfl), rfl⟩
      · exact Or.inr ⟨Or.inl rfl, rfl⟩
      · exact Or.inr ⟨Or.inl rfl, rfl⟩
  · have hne : status ≠ .success := by
      rintro rfl
      rcases hfail with hfail | hfail | hfail <;> cases hfail
    rw [if_pos hne]
    exact Or.inr ⟨hfail, rfl⟩

theorem Failure.ne_success {status : AltStatusCode} (h : Failure status) :
    status ≠ .success := by
  rintro rfl
  rcases h with h | h | h <;> cases h

theorem Failure.lateError {status : AltStatusCode} (h : Failure status) :
    lateError status = status := by
  rcases h with rfl | rfl | rfl <;> rfl

theorem Failure.not_refusal {status : AltStatusCode} (h : Failure status) :
    ¬Refusal status := by
  intro hrefusal
  rcases h with rfl | rfl | rfl <;>
    rcases hrefusal with hrefusal | hrefusal | hrefusal <;> cases hrefusal

/-- What is known when the port is about to be closed. -/
def Fed (dataStatus : AltStatusCode) (s : Seen) : Prop :=
  dataStatus = .success ∧ s.stage = .configured ∨
    Failure dataStatus ∧ s.stage = .feeding

/-- Steps 11 to 13 close the port and end in user mode exactly when they
succeed. -/
theorem wp_finishSteps {ctrlReg : UInt32} {dataStatus : AltStatusCode}
    (hkept : kept &&& driverBits = 0) (hctl : s.ctl = ctrlReg)
    (hcontrol : ctrlReg &&& kept = s.found &&& kept) (hpulled : ¬Pulled ctrlReg)
    (hfed : Fed dataStatus s) :
    (sequencer table kept answers).wp (finishSteps ctrlReg dataStatus)
      (fun status s' =>
        (status = .success ∧ dataStatus = .success ∧ s'.stage = .user ∨
          Failure status ∧ s'.stage ≠ .user) ∧
        s' = s.controlled (ctrlReg &&& ctlAxicfgenClrMsk) s'.stage) s := by
  have hclosed : ¬Pulled (ctrlReg &&& ctlAxicfgenClrMsk) := by
    rw [pulled_and_iff (by decide)]
    exact hpulled
  have hport := not_portOpen_and ctrlReg
  have hallowed : s.Allows table kept (.write .ctl (ctrlReg &&& ctlAxicfgenClrMsk)) := by
    refine ⟨?_, fun hopen => absurd hopen hport, Or.inr ⟨?_, ?_⟩⟩
    · rw [and_and_kept hkept (by decide), hcontrol]
    · rw [and_and_setupBits (by decide), hctl]
    · exact fun h => absurd h hclosed
  rw [finishSteps, wp_bind, wp_writeWord]
  refine ⟨hallowed, ?_⟩
  rcases hfed with ⟨rfl, hstage⟩ | ⟨hfail, hstage⟩
  · have hnext : s.stage.onControl (s.suits table (ctrlReg &&& ctlAxicfgenClrMsk))
        (ctrlReg &&& ctlAxicfgenClrMsk) = .closed := by
      simp [LoadStage.onControl, hclosed, hstage, hport]
    rw [sequencer_next, Seen.next_write_ctl, hnext]
    refine wp_bind_of (wp_dclkSetAndWaitClear _ hport rfl
      (fun h => by cases h)) ?_
    rintro status s' (⟨rfl, rfl⟩ | ⟨rfl, rfl⟩)
    · rw [if_neg (fun hne => hne rfl)]
      refine wp_bind_of (wp_waitForFpgaState altFpgaTmoState
        (fun h => by cases h) (fun h => by cases h) (by decide)
        (fun mode hmode => if_neg hmode)) ?_
      rintro status s' (⟨rfl, rfl⟩ | ⟨rfl, rfl⟩)
      · exact ⟨Or.inl ⟨rfl, rfl, rfl⟩, rfl⟩
      · exact ⟨Or.inr ⟨Or.inl rfl, fun h => by cases h⟩, rfl⟩
    · exact ⟨Or.inr ⟨Or.inl rfl, fun h => by cases h⟩, rfl⟩
  · have hnext : s.stage.onControl (s.suits table (ctrlReg &&& ctlAxicfgenClrMsk))
        (ctrlReg &&& ctlAxicfgenClrMsk) = .failed := by
      simp [LoadStage.onControl, hclosed, hstage]
    rw [sequencer_next, Seen.next_write_ctl, hnext]
    refine wp_bind_of (wp_dclkSetAndWaitClear _ hport rfl
      (fun h => by cases h)) ?_
    rintro status s' (⟨rfl, rfl⟩ | ⟨rfl, rfl⟩)
    · rw [if_neg (fun hne => hne rfl)]
      refine wp_bind_of (wp_waitForFpgaState altFpgaTmoState
        (fun h => by cases h) (fun h => by cases h) (by decide)
        (fun _ _ => rfl)) ?_
      rintro status s' (⟨rfl, rfl⟩ | ⟨rfl, rfl⟩)
      · exact ⟨Or.inr ⟨hfail, fun h => by cases h⟩, rfl⟩
      · rw [if_pos rfl, hfail.lateError]
        exact ⟨Or.inr ⟨hfail, fun h => by cases h⟩, rfl⟩
    · rw [if_pos (by decide), hfail.lateError]
      exact ⟨Or.inr ⟨hfail, fun h => by cases h⟩, rfl⟩

/-- The outcome of the steps, against the state they began in. -/
structure Outcome (kept : UInt32) (words : List UInt32)
    (imageStatus : AltStatusCode) (s : Seen) (status : AltStatusCode) (s' : Seen) :
    Prop where
  code : status = .success ∧ s'.stage = .user ∨ Failure status ∧ s'.stage ≠ .user
  found : s'.found = s.found
  touched : s'.touched = true
  control : s'.ctl &&& kept = s'.found &&& kept
  released : ¬Pulled s'.ctl
  port : PortOpen s'.ctl → PortOpen s.ctl ∧ s'.words = s.words
  sent : s'.words = s.words ∨ s'.words = s.words ++ words
  complete : status = .success →
    imageStatus = .success ∧ s'.words = s.words ++ words

/-- Steps 7 to 13. -/
theorem wp_loadSteps {ctrlReg : UInt32} {fpgaData : FpgaData}
    {words : List UInt32} {imageStatus : AltStatusCode}
    (himage : ImageOf fpgaData words imageStatus)
    (hkept : kept &&& driverBits = 0) (hctl : s.ctl = ctrlReg)
    (hcontrol : ctrlReg &&& kept = s.found &&& kept) (hpulled : ¬Pulled ctrlReg)
    (htouched : s.touched = true) (hstage : s.stage = .cfg) :
    (sequencer table kept answers).wp (loadSteps ctrlReg fpgaData)
      (Outcome kept words imageStatus s) s := by
  have hopened : ¬Pulled (ctrlReg ||| ctlAxicfgenSetMsk) := by
    rw [pulled_or_iff (by decide)]
    exact hpulled
  have hcontrol' : (ctrlReg ||| ctlAxicfgenSetMsk) &&& kept = s.found &&& kept := by
    rw [or_and_kept hkept (by decide), hcontrol]
  have hclear : s.next table (.write .portaEoi 0x1) = { s with stage := .cleared } := by
    simp [Seen.next, LoadStage.onClear, hstage, ← htouched]
  rw [loadSteps, wp_bind, wp_writeWord]
  refine ⟨⟨hstage, rfl⟩, ?_⟩
  rw [sequencer_next, show portaEoiNsSet 0x1 = 0x1 from rfl, hclear, wp_bind,
    wp_writeWord]
  have hsetup : (ctrlReg ||| ctlAxicfgenSetMsk) &&& setupBits =
      s.ctl &&& setupBits := by
    rw [or_and_setupBits (by decide), hctl]
  refine ⟨⟨hcontrol', fun _ => Or.inr rfl,
    Or.inr ⟨hsetup, fun h => absurd h hopened⟩⟩, ?_⟩
  have hopen : ∀ suits, LoadStage.cleared.onControl suits
      (ctrlReg ||| ctlAxicfgenSetMsk) = .feeding := by
    intro suits
    simp [LoadStage.onControl, hopened, portOpen_or]
  rw [sequencer_next, Seen.next_write_ctl, hopen]
  refine wp_bind_of (wp_altFpgaInternalConfigureIdata himage rfl rfl) ?_
  rintro dataStatus s' hdata
  have hfed : Fed dataStatus s' := by
    rcases hdata with ⟨hcode, _, rfl⟩ | ⟨hfail, rfl⟩
    · exact Or.inl ⟨hcode, rfl⟩
    · exact Or.inr ⟨hfail, rfl⟩
  have hsame : s'.found = s.found ∧ s'.words = s.words ++ words ∧
      s'.ctl = ctrlReg ||| ctlAxicfgenSetMsk := by
    rcases hdata with ⟨_, _, rfl⟩ | ⟨_, rfl⟩ <;> exact ⟨rfl, rfl, rfl⟩
  obtain ⟨hfound, hwords, hword⟩ := hsame
  apply wp_mono (wp_finishSteps hkept hword (by rw [hcontrol', hfound]) hopened
    hfed)
  rintro status last ⟨hcode, hlast⟩
  have hlastFound : last.found = s.found := by
    rw [hlast]
    exact hfound
  have hlastWords : last.words = s.words ++ words := by
    rw [hlast]
    exact hwords
  have hlastCtl : last.ctl =
      (ctrlReg ||| ctlAxicfgenSetMsk) &&& ctlAxicfgenClrMsk := by
    rw [hlast]
    rfl
  constructor
  · rcases hcode with ⟨hsuccess, _, huser⟩ | hfail
    · exact Or.inl ⟨hsuccess, huser⟩
    · exact Or.inr hfail
  · exact hlastFound
  · rw [hlast]
    rfl
  · rw [hlastCtl, hlastFound, and_and_kept hkept (by decide), hcontrol']
  · rw [hlastCtl, pulled_and_iff (by decide)]
    exact hopened
  · rw [hlastCtl]
    exact fun hport => absurd hport (not_portOpen_and _)
  · exact Or.inr hlastWords
  · intro hsuccess
    refine ⟨?_, hlastWords⟩
    rcases hcode with ⟨_, hdataStatus, _⟩ | ⟨hfail, _⟩
    · rcases hdata with ⟨_, himageStatus, _⟩ | ⟨hfail, _⟩
      · exact himageStatus
      · exact absurd hdataStatus hfail.ne_success
    · exact absurd hsuccess hfail.ne_success

/-- Steps 1 to 13, from the control word of step 1 on. -/
theorem wp_configureSteps {ctrlReg : UInt32} {fpgaData : FpgaData}
    {words : List UInt32} {imageStatus : AltStatusCode}
    (himage : ImageOf fpgaData words imageStatus)
    (hkept : kept &&& driverBits = 0)
    (hcontrol : ctrlReg &&& kept = s.found &&& kept)
    (hsuits : s.suits table ctrlReg = true) (hidle : s.stage = .idle)
    (hport : PortOpen ctrlReg → PortOpen s.ctl) :
    (sequencer table kept answers).wp (configureSteps ctrlReg fpgaData)
      (Outcome kept words imageStatus s) s := by
  have hheld : (ctrlReg ||| ctlNcfgpullSetMsk) &&& kept = s.found &&& kept := by
    rw [or_and_kept hkept (by decide), hcontrol]
  have hheldPort : PortOpen (ctrlReg ||| ctlNcfgpullSetMsk) ↔ PortOpen ctrlReg :=
    portOpen_or_iff (by decide)
  have hfree : (ctrlReg ||| ctlNcfgpullSetMsk) &&& ctlNcfgpullClrMsk &&& kept =
      s.found &&& kept := by
    rw [and_and_kept hkept (by decide), hheld]
  have hfreePort : PortOpen ((ctrlReg ||| ctlNcfgpullSetMsk) &&&
      ctlNcfgpullClrMsk) ↔ PortOpen ctrlReg := by
    rw [portOpen_and_iff (by decide), hheldPort]
  have hreleased := not_pulled_and (ctrlReg ||| ctlNcfgpullSetMsk)
  have hheldSuits : ∀ stage,
      (s.controlled ctrlReg stage).suits table (ctrlReg ||| ctlNcfgpullSetMsk) =
        true := by
    intro stage
    rw [← hsuits]
    simp only [Seen.suits, Seen.controlled, or_and_setupBits (show
      ctlNcfgpullSetMsk &&& setupBits = 0 by decide)]
  have hheldStage : ∀ stage : LoadStage,
      stage.onControl true (ctrlReg ||| ctlNcfgpullSetMsk) = .held :=
    fun _ => if_pos (pulled_or _)
  have hfreeSetup : (ctrlReg ||| ctlNcfgpullSetMsk) &&& ctlNcfgpullClrMsk &&&
      setupBits = (ctrlReg ||| ctlNcfgpullSetMsk) &&& setupBits :=
    and_and_setupBits (by decide) _
  have hresetStage : ∀ suits, LoadStage.reset.onControl suits
      ((ctrlReg ||| ctlNcfgpullSetMsk) &&& ctlNcfgpullClrMsk) = .released :=
    fun _ => if_neg hreleased
  have hfailedStage : ∀ suits, LoadStage.held.onControl suits
      ((ctrlReg ||| ctlNcfgpullSetMsk) &&& ctlNcfgpullClrMsk) = .failed :=
    fun _ => if_neg hreleased
  -- Both waits that time out leave the port and the data as they were.
  have htimeout : ∀ stage : LoadStage, stage ≠ .user →
      Outcome kept words imageStatus s .fpgaCfg (s.controlled
        ((ctrlReg ||| ctlNcfgpullSetMsk) &&& ctlNcfgpullClrMsk) stage) := by
    intro stage hstage
    exact ⟨Or.inr ⟨Or.inl rfl, hstage⟩, rfl, rfl, hfree, hreleased,
      fun hopen => ⟨hport (hfreePort.mp hopen), rfl⟩, Or.inl rfl,
      fun h => by cases h⟩
  rw [configureSteps, wp_bind, wp_writeWord]
  refine ⟨⟨hcontrol, fun h => Or.inl (hport h),
    Or.inl ⟨hsuits, Or.inr hidle⟩⟩, ?_⟩
  rw [sequencer_next, Seen.next_write_ctl, wp_bind, wp_writeWord]
  refine ⟨⟨hheld, fun h => Or.inl (hheldPort.mp h),
    Or.inl ⟨hheldSuits _, Or.inl (pulled_or _)⟩⟩, ?_⟩
  rw [sequencer_next, Seen.next_write_ctl, Seen.controlled_controlled, hheldSuits,
    hheldStage]
  refine wp_bind_of (wp_waitForFpgaState altFpgaTmoState (fun h => by cases h)
    (fun h => by cases h) (by decide) (fun mode hmode => if_neg hmode)) ?_
  rintro status s' (⟨rfl, rfl⟩ | ⟨rfl, rfl⟩)
  · rw [wp_bind, wp_writeWord]
    refine ⟨⟨hfree, fun h => Or.inl (hheldPort.mpr (hfreePort.mp h)),
      Or.inr ⟨hfreeSetup, fun h => absurd h hreleased⟩⟩, ?_⟩
    rw [if_neg (fun hne => hne rfl)]
    change (sequencer table kept answers).wp _ _
      (s.controlled _ (LoadStage.reset.onControl _ _))
    rw [hresetStage]
    refine wp_bind_of (wp_waitForFpgaState altFpgaTmoState (fun h => by cases h)
      (fun h => by cases h) (by decide) (fun mode hmode => if_neg hmode)) ?_
    rintro status s' (⟨rfl, rfl⟩ | ⟨rfl, rfl⟩)
    · rw [if_neg (fun hne => hne rfl)]
      refine wp_mono (wp_loadSteps himage hkept rfl hfree hreleased rfl rfl) ?_
      intro status last hlast
      refine ⟨hlast.code, hlast.found, hlast.touched, hlast.control,
        hlast.released, ?_, hlast.sent, hlast.complete⟩
      intro hopen
      have hbefore := hlast.port hopen
      exact ⟨hport (hfreePort.mp hbefore.1), hbefore.2⟩
    · exact htimeout .released (fun h => by cases h)
  · rw [wp_bind, wp_writeWord]
    refine ⟨⟨hfree, fun h => Or.inl (hheldPort.mpr (hfreePort.mp h)),
      Or.inr ⟨hfreeSetup, fun h => absurd h hreleased⟩⟩, ?_⟩
    rw [if_pos (fun h => by cases h), sequencer_next, Seen.next_write_ctl]
    change Outcome kept words imageStatus s _
      (s.controlled _ (LoadStage.held.onControl _ _))
    rw [hfailedStage]
    exact htimeout .failed (fun h => by cases h)

end Functions

end FpgaFramework
