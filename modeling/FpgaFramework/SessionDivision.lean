/-
The block sizes of a session.  A configuration is accepted whatever sizes it
names; where every accepted one names sizes other than zero, no check of a data
message divides by zero.
-/
import FpgaFramework.SessionInputs

namespace FpgaFramework

theorem Message.size_eq_zero_of_isValidData {message : Message} {size : UInt32}
    (h : message.isValidData size = none) : size = 0 := by
  unfold isValidData at h
  split at h
  · split at h
    · next hzero => exact hzero
    · cases h
  · cases h

namespace Session

variable {N : Type} {variant : Variant} {session after : Session N}
  {action : Action N}

/-- A first configuration names both sizes, a later one the output size: inputs
are not received any more once it is stored. -/
def NamesSizes : Action N → Prop
  | .firstMessage (.ok message) => message.1.isValidConfig = true →
      message.1.inputSize ≠ 0 ∧ message.1.outputSize ≠ 0
  | .userMessage (.ok message) => message.1.isValidConfig = true →
      message.1.outputSize ≠ 0
  | _ => True

instance (action : Action N) : Decidable (NamesSizes action) := by
  unfold NamesSizes
  split <;> infer_instance

/-- The divisors that are still to be used are not zero, and none was. -/
structure NonzeroSizes (session : Session N) : Prop where
  noDivision : session.fault ≠ some .divisionByZero
  input : session.phase.firstConfig = true → ∀ config ∈ session.config,
    config.message.1.inputSize ≠ 0
  output : ∀ config ∈ session.config, config.message.1.outputSize ≠ 0

theorem NonzeroSizes.initial {nodes : List N} {config data receiver : Counter} :
    NonzeroSizes (initial nodes config data receiver) := by
  constructor
  · simp [Session.initial]
  · intro hphase
    cases hphase
  · intro config hmem
    cases hmem

/-- The configuration does not change. -/
theorem NonzeroSizes.of_same (hinv : session.NonzeroSizes)
    (hfault : after.fault ≠ some .divisionByZero)
    (hphase : after.phase.firstConfig = true → session.phase.firstConfig = true)
    (hconfig : ∀ config ∈ after.config, config ∈ session.config) :
    after.NonzeroSizes := by
  constructor
  · exact hfault
  · intro hfirst config hmem
    exact hinv.input (hphase hfirst) config (hconfig config hmem)
  · intro config hmem
    exact hinv.output config (hconfig config hmem)

theorem NonzeroSizes.transition (hinv : session.NonzeroSizes)
    (hwaits : session.MainWaits) (hnames : NamesSizes action)
    (h : Transition variant session action after) : after.NonzeroSizes := by
  have hnone := hinv.noDivision
  cases h with
  | firstConfig hphase hvalid =>
      obtain ⟨hinput, houtput⟩ := hnames hvalid
      constructor
      · exact hnone
      · intro _ config hmem
        cases hmem
        exact hinput
      · intro config hmem
        cases hmem
        exact houtput
  | userConfig hphase hconfig hdata hvalid =>
      constructor
      · exact hnone
      · intro hfirst
        cases hfirst
      · intro config hmem
        cases hmem
        exact hnames hvalid
  | userDivision hphase hconfig hdata =>
      have hfirst : session.phase.firstConfig = true := by rw [hphase]; rfl
      exact absurd (Message.size_eq_zero_of_isValidData hdata)
        (hinv.input hfirst _ hconfig)
  | examineDivision _ _ hconfig hdata =>
      exact absurd (Message.size_eq_zero_of_isValidData hdata)
        (hinv.output _ hconfig)
  | configOk _ _ hfault | configFailed _ _ hfault =>
      refine hinv.of_same ?_ id fun _ => id
      rw [hfault]
      split
      · simp
      · simp
  | resumeEmpty => exact hinv.of_same (by simp) id fun _ => id
  | firstError | firstInvalid | respError | drained =>
      exact hinv.of_same hnone (fun hfirst => by cases hfirst) fun _ => id
  | userError | userInvalidQueue | stopped =>
      exact hinv.of_same hnone (fun hfirst => by cases hfirst)
        fun _ hmem => by cases hmem
  | configured hphase | respSent hphase =>
      exact hinv.of_same hnone (fun _ => by simp [hphase, Phase.firstConfig])
        fun _ => id
  | userInput hphase =>
      exact hinv.of_same hnone (fun _ => by simp [hphase, Phase.firstConfig])
        fun _ => id
  | resumed _ _ hwaiters =>
      exact hinv.of_same hnone (hwaits.firstConfig_of_resumed hwaiters) fun _ => id
  | _ => exact hinv.of_same hnone id fun _ => id

variable [DecidableEq N]

/-- Where every accepted configuration names its sizes, no run divides by
zero. -/
theorem no_division_of_namesSizes (variant : Variant) (nodes : List N)
    (config data receiver : Counter) {session : Session N}
    (h : Machine.Reaches (step variant) (fun _ => NamesSizes)
      (initial nodes config data receiver) session) :
    session.fault ≠ some .divisionByZero := by
  have hinv : session.NonzeroSizes ∧ session.MainWaits := by
    apply h.invariant
    · exact ⟨NonzeroSizes.initial, rfl⟩
    · rintro before action after ⟨hsizes, hwaits⟩ hnames hstep
      obtain ⟨_, htransition⟩ := transition_of_step hstep
      exact ⟨hsizes.transition hwaits hnames htransition,
        hwaits.transition htransition⟩
  exact hinv.1.noDivision

theorem no_division_of_namesSizes_reconfigured :
    ∃ session : Session Nat,
      Machine.run (step .queue) (fun _ => NamesSizes)
        (initial [0, 1] ⟨0⟩ ⟨0⟩ ⟨0⟩)
        (configuration (.config 1 1) [0, 1] ++
          [.userMessage (.ok (.data 5)), .userMessage (.ok (.config 0 1))]) =
          some session ∧
      session.phase = .draining ∧ session.fault ≠ some .divisionByZero :=
  ⟨_, rfl, rfl,
    no_division_of_namesSizes .queue [0, 1] ⟨0⟩ ⟨0⟩ ⟨0⟩
      (Machine.reaches_of_run
        (configuration (.config 1 1) [0, 1] ++
          [.userMessage (.ok (.data 5)), .userMessage (.ok (.config 0 1))]) rfl)⟩

/-- A configuration with input size zero is accepted by the server and by its
node; the user's first DATA message then divides by zero.  So does a node's
answer when the output size is zero. -/
theorem division_of_zeroSize :
    (∃ session : Session Nat,
      Machine.Reachable (step .queue) (initial [0] ⟨0⟩ ⟨0⟩ ⟨0⟩) session ∧
        session.acceptedConfigs = [⟨0, .config 0 1⟩] ∧
        session.fault = some .divisionByZero) ∧
    ∃ session : Session Nat,
      Machine.Reachable (step .queue) (initial [0] ⟨0⟩ ⟨0⟩ ⟨0⟩) session ∧
        session.acceptedConfigs = [⟨0, .config 1 0⟩] ∧
        session.fault = some .divisionByZero := by
  constructor
  · exact ⟨_, Machine.reaches_of_run (configuration (.config 0 1) [0] ++
      [.userMessage (.ok (.data 5))]) rfl, rfl, rfl⟩
  · exact ⟨_, Machine.reaches_of_run (configuration (.config 1 0) [0] ++
      [.nodeMessage ⟨0, .waiting⟩ (.ok (.data 5)) none,
        .examine ⟨0, .received (.ok ⟨3, .data 5⟩) none⟩]) rfl, rfl, rfl⟩

end Session

end FpgaFramework
