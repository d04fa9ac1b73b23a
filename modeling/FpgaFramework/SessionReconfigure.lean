/-
A new configuration in the middle of a session.  The main loop stores it before
it waits for the inputs of the old one, and the receiver loops judge every result
by what is stored.
-/
import FpgaFramework.SessionInputs

namespace FpgaFramework

open scoped List

namespace Session

variable {N : Type} {variant : Variant} {session after : Session N}
  {action : Action N}

/-- The accepted inputs that no receiver loop has disposed of. -/
def inFlight (session : Session N) : List Input :=
  session.pending ++ session.atNodes.map Prod.snd ++ session.answered

/-- The message would replace this configuration. -/
def Replaces (message : ValidMessage) (config : Held) : Prop :=
  message.1.isValidData config.message.1.inputSize = some false ∧
    message.1.isValidConfig = true

instance (message : ValidMessage) (config : Held) :
    Decidable (Replaces message config) := by
  unfold Replaces
  infer_instance

/-- A new configuration keeps the output size, or finds no input in flight. -/
def KeepsSizes (session : Session N) (action : Action N) : Prop :=
  ∀ result ∈ action.fromUser, ∀ message ∈ result.toOption,
    ∀ config ∈ session.config, Replaces message config →
      message.1.outputSize = config.message.1.outputSize ∨
        session.inFlight = []

instance [DecidableEq N] (session : Session N) (action : Action N) :
    Decidable (session.KeepsSizes action) := by
  unfold KeepsSizes
  infer_instance

/-- An input is accepted under the stored configuration, which stays stored. -/
theorem Transition.accepted_config
    (h : Transition variant session action after) :
    after.accepted = session.accepted ∨
      ∃ (input : Input) (config : Held),
        after.accepted = session.accepted ++ [input] ∧
          after.config = some config ∧ input.config = config.message := by
  cases h with
  | userInput _ hconfig => exact Or.inr ⟨_, _, rfl, hconfig, rfl⟩
  | _ => exact Or.inl rfl

theorem Transition.count_delivered_le
    (h : Transition variant session action after) (input : Input) :
    (session.delivered.map Prod.snd).count input ≤
      (after.delivered.map Prod.snd).count input := by
  cases h with
  | inputWhole =>
      rw [List.map_cons]
      exact List.count_le_count_cons
  | _ => exact Nat.le_refl _

theorem Transition.mem_pending (h : Transition variant session action after)
    {input : Input} (hmem : input ∈ after.pending) :
    input ∈ session.pending ∨
      ∃ config, after.config = some config ∧ input.config = config.message := by
  have hcount := h.count_inputs input
  have hdelivered := h.count_delivered_le input
  have hpos := List.count_pos_iff.mpr hmem
  rcases h.accepted_config with heq | ⟨fresh, config, heq, hconfig, hsame⟩
  · rw [heq] at hcount
    exact Or.inl (List.count_pos_iff.mp (by omega))
  · by_cases hfresh : input = fresh
    · exact Or.inr ⟨config, hconfig, hfresh ▸ hsame⟩
    · rw [heq, List.count_append, List.count_singleton] at hcount
      rw [if_neg (by simpa using Ne.symm hfresh)] at hcount
      exact Or.inl (List.count_pos_iff.mp (by omega))

theorem Transition.mem_answered (h : Transition variant session action after)
    {input : Input} (hmem : input ∈ after.answered) :
    input ∈ session.answered ∨ input ∈ session.atNodes.map Prod.snd := by
  have hmove : ∀ {loop : Loop N} {rest : List (Loop N)} {stage : LoopStage},
      session.loops ~ loop :: rest →
        (∀ other ∈ Loop.answering ⟨loop.node, stage⟩,
          other ∈ Loop.answering loop) →
        input ∈ (⟨loop.node, stage⟩ :: rest : List (Loop N)).flatMap
          Loop.answering → input ∈ session.answered := by
    intro loop rest stage hperm hless hin
    rw [answered, (hperm.flatMap_right Loop.answering).mem_iff]
    rw [List.flatMap_cons, List.mem_append] at hin ⊢
    exact hin.imp_left (hless input)
  cases h with
  | respSent =>
      simp only [answered, startLoops, List.flatMap_append, List.mem_append,
        List.mem_flatMap, List.mem_map] at hmem
      rcases hmem with ⟨_, ⟨_, _, rfl⟩, hnone⟩ | hold
      · cases hnone
      · exact Or.inl (List.mem_flatMap.mpr hold)
  | drained =>
      apply Or.inl
      simpa only [answered, List.flatMap_map, answering_notify] using hmem
  | nodeError hperm hstage | nodeUnasked hperm hstage | examineError hperm hstage
  | examineInvalid hperm hstage | forwardError hperm hstage
  | forwardDone hperm hstage | loopStopped hperm hstage =>
      exact Or.inl (hmove hperm (fun _ => List.not_mem_nil.elim) hmem)
  | examineValid hperm hstage =>
      refine Or.inl (hmove hperm ?_ hmem)
      simp only [Loop.answering, hstage]
      exact fun _ hother => hother
  | nodeAnswer hperm hstage _ hat =>
      rcases List.mem_append.mp hmem with hnew | hold
      · rw [List.mem_singleton.mp hnew, (hat.map Prod.snd).mem_iff]
        exact Or.inr List.mem_cons_self
      · apply Or.inl
        rw [answered, (hperm.flatMap_right Loop.answering).mem_iff]
        exact List.mem_append_right _ hold
  | loopHandler hperm =>
      apply Or.inl
      rw [answered, (hperm.flatMap_right Loop.answering).mem_iff]
      exact List.mem_append_right _ hmem
  | _ => exact Or.inl hmem

theorem Transition.mem_inFlight (h : Transition variant session action after)
    {input : Input} (hmem : input ∈ after.inFlight) :
    input ∈ session.inFlight ∨
      ∃ config, after.config = some config ∧ input.config = config.message := by
  simp only [inFlight, List.mem_append] at hmem ⊢
  rcases hmem with (hpending | hat) | hanswered
  · rcases h.mem_pending hpending with hold | hnew
    · exact Or.inl (Or.inl (Or.inl hold))
    · exact Or.inr hnew
  · obtain ⟨entry, hentry, rfl⟩ := List.mem_map.mp hat
    rcases h.mem_atNodes hentry with hold | ⟨_, _, _, _, _, hpending⟩
    · exact Or.inl (Or.inl (Or.inr (List.mem_map_of_mem hold)))
    · exact Or.inl (Or.inl (Or.inl hpending))
  · rcases h.mem_answered hanswered with hold | hat
    · exact Or.inl (Or.inr hold)
    · exact Or.inl (Or.inl (Or.inr hat))

/-- The ways in which the stored configuration changes. -/
theorem Transition.config (h : Transition variant session action after) :
    after.config = session.config ∨ after.config = none ∨
      session.phase = .awaitingConfig ∨
        ∃ message old id, action = .userMessage (.ok message) ∧
          session.config = some old ∧ Replaces message old ∧
            after.config = some ⟨id, message⟩ := by
  cases h with
  | firstConfig hphase => exact Or.inr (Or.inr (Or.inl hphase))
  | userError | userInvalidQueue | stopped => exact Or.inr (Or.inl rfl)
  | userConfig _ hconfig hdata hvalid =>
      exact Or.inr (Or.inr (Or.inr
        ⟨_, _, _, rfl, hconfig, ⟨hdata, hvalid⟩, rfl⟩))
  | _ => exact Or.inl rfl

/-- Nothing leads back to the wait for the first configuration. -/
theorem Transition.to_awaiting (h : Transition variant session action after)
    (hphase : after.phase = .awaitingConfig) :
    session.phase = .awaitingConfig := by
  cases h with
  | firstError hother | firstInvalid hother | firstConfig hother => exact hother
  | configured | respError | respSent | userError | userConfig
  | userInvalidQueue | drained | stopped => cases hphase
  | userInput hother =>
      rcases phase_acceptInput hother hphase with hafter | hafter <;> cases hafter
  | resumed => exact phase_of_resumed hphase (by simp)
  | _ => exact hphase

/-- A configuration is stored while the session works, and every input in flight
expects results of its output size. -/
structure SizesInv (session : Session N) : Prop where
  early : session.Early
  present : session.phase = .awaitingConfig ∨ session.phase = .returned ∨
    session.config ≠ none
  awaiting : session.phase = .awaitingConfig → session.inFlight = []
  same : ∀ config ∈ session.config, ∀ input ∈ session.inFlight,
    config.message.1.outputSize = input.config.1.outputSize

theorem SizesInv.initial {nodes : List N} {config data receiver : Counter} :
    SizesInv (initial nodes config data receiver) where
  early := Early.initial nodes config data receiver
  present := Or.inl rfl
  awaiting _ := rfl
  same := nofun

theorem SizesInv.same_transition (hinv : session.SizesInv)
    (hguard : session.KeepsSizes action)
    (h : Transition variant session action after) :
    ∀ config ∈ after.config, ∀ input ∈ after.inFlight,
      config.message.1.outputSize = input.config.1.outputSize := by
  intro config hconfig input hmem
  rcases h.mem_inFlight hmem with hold | ⟨other, hother, hsame⟩
  · rcases h.config with
      heq | heq | hphase | ⟨message, old, id, rfl, hold', hreplaces, heq⟩
    · rw [heq] at hconfig
      exact hinv.same config hconfig input hold
    · rw [heq] at hconfig
      cases hconfig
    · rw [hinv.awaiting hphase] at hold
      cases hold
    · rw [heq] at hconfig
      cases hconfig
      rcases hguard _ rfl message rfl old hold' hreplaces with hsize | hnone
      · exact hsize.trans (hinv.same old hold' input hold)
      · rw [hnone] at hold
        cases hold
  · rw [hother] at hconfig
    cases hconfig
    rw [hsame]

theorem SizesInv.transition (hinv : session.SizesInv)
    (hrunning : session.Running) (hguard : session.KeepsSizes action)
    (h : Transition variant session action after) : after.SizesInv where
  early := hinv.early.transition h
  present := Stored.transition hinv.present hinv.early hrunning h
  awaiting hphase := by
    rw [List.eq_nil_iff_forall_not_mem]
    intro input hmem
    rcases h.mem_inFlight hmem with hold | ⟨config, hconfig, _⟩
    · rw [hinv.awaiting (h.to_awaiting hphase)] at hold
      cases hold
    · rw [(hinv.early.transition h).noConfig hphase] at hconfig
      cases hconfig
  same := hinv.same_transition hguard h

section

variable [DecidableEq N]

/-- A result that a receiver loop is about to examine is judged by the sizes of
the configuration its input was accepted under; if it passes, it is forwarded,
and counted once it is sent. -/
structure JudgedByOwn (variant : Variant) (session : Session N) (loop : Loop N)
    (held : Held) (input : Input) : Prop where
  sameSize : ∃ config, session.config = some config ∧
    config.message.1.outputSize = input.config.1.outputSize
  forwarded :
    held.message.1.isValidData input.config.1.outputSize = some true →
      ∃ after, session.step variant (.examine loop) = some after ∧
        after.user = session.user.begin held.message ∧
          ⟨loop.node,
            .forwarding held session.user.sends.length (some input)⟩ ∈
              after.loops
  counted : ∀ before after ticket,
    step variant before
        (.forwardDone ⟨loop.node, .forwarding held ticket (some input)⟩) =
          some after →
      after.dataCounter = before.dataCounter.decr ∧
        after.completed = before.completed ++ [(loop.node, held)]

/-- As long as a new configuration keeps the output size or finds no input in
flight, every result is judged by its own configuration. -/
theorem judgedByOwn_of_keepsSizes (variant : Variant) (nodes : List N)
    (config data receiver : Counter) {session : Session N}
    (h : Machine.Reaches (step variant) KeepsSizes
      (initial nodes config data receiver) session)
    (hrunning : session.Running) {loop : Loop N} (hmem : loop ∈ session.loops)
    {held : Held} {input : Input}
    (hstage : loop.stage = .received (.ok held) (some input)) :
    JudgedByOwn variant session loop held input := by
  have hinv : session.SizesInv := by
    apply h.invariant SizesInv.initial
    intro before action after hinv hguard hstep
    obtain ⟨hrunning, htransition⟩ := transition_of_step hstep
    exact hinv.transition hrunning hguard htransition
  have hperm := List.perm_cons_erase hmem
  have hlate : session.phase ≠ .awaitingConfig := fun hphase =>
    hinv.early.not_before_of_loops hperm (beforeLoops_of_awaiting hphase)
  obtain ⟨stored, hstored⟩ := Option.ne_none_iff_exists'.mp
    ((hinv.present.resolve_left hlate).resolve_left hrunning.2)
  have hflight : input ∈ session.inFlight := by
    refine List.mem_append_right _ (List.mem_flatMap.mpr ⟨loop, hmem, ?_⟩)
    simp [Loop.answering, hstage]
  have hsize := hinv.same stored hstored input hflight
  refine ⟨⟨stored, hstored, hsize⟩, ?_, ?_⟩
  · intro hvalid
    rw [← hsize] at hvalid
    have hstep : session.step variant (.examine loop) =
        some (session.examine stored loop (session.loops.erase loop) (.ok held)
          (some input)) := by
      simp [step, hrunning, act, hstage, hmem, hstored]
    refine ⟨_, hstep, ?_, ?_⟩
    · simp only [examine, hvalid]
    · simp only [examine, hvalid, List.mem_cons, true_or]
  · intro before after ticket hstep
    cases (transition_of_step hstep).2 with
    | forwardDone _ hother =>
        cases hother
        exact ⟨rfl, rfl⟩

/-- The node answers its input, and a new configuration comes before the receiver
loop has looked at the answer. -/
def configuredInFlight (config : ValidMessage) : List (Action Nat) :=
  configuration (.config 1 1) [0, 1] ++
    [.userMessage (.ok (.data 5)), .inputPiece ⟨0, firstInput, 0⟩ 13,
      .inputSent ⟨0, firstInput, 13⟩,
      .nodeMessage ⟨0, .waiting⟩ (.ok (.data 7)) (some firstInput),
      .userMessage (.ok config)]

/-- The new configuration has another input size and the same output size. -/
theorem judgedByOwn_of_keepsSizes_inFlight :
    ∃ session : Session Nat,
      Machine.run (step .queue) KeepsSizes (initial [0, 1] ⟨0⟩ ⟨0⟩ ⟨0⟩)
        (configuredInFlight (.config 2 1)) = some session ∧
      session.phase = .draining ∧
        JudgedByOwn .queue session
          ⟨0, .received (.ok ⟨5, .data 7⟩) (some firstInput)⟩ ⟨5, .data 7⟩
          firstInput :=
  ⟨_, rfl, rfl,
    judgedByOwn_of_keepsSizes .queue [0, 1] ⟨0⟩ ⟨0⟩ ⟨0⟩
      (Machine.reaches_of_run (configuredInFlight (.config 2 1)) rfl)
      ⟨rfl, by decide⟩ List.mem_cons_self rfl⟩

/-- The new configuration has another output size, and the result that the old
one expects is not forwarded: the receiver loop ends. -/
theorem result_not_judged_by_own :
    ∃ session after : Session Nat,
      Machine.Reachable (step .queue) (initial [0, 1] ⟨0⟩ ⟨0⟩ ⟨0⟩) session ∧
        session.Running ∧
        (ValidMessage.data 7).1.isValidData firstInput.config.1.outputSize =
          some true ∧
        session.step .queue
          (.examine ⟨0, .received (.ok ⟨5, .data 7⟩) (some firstInput)⟩) =
            some after ∧
        after.loops = [⟨0, .finished⟩, ⟨1, .waiting⟩] ∧
        after.dataCounter.getValue = 1 ∧
        ¬JudgedByOwn .queue session
          ⟨0, .received (.ok ⟨5, .data 7⟩) (some firstInput)⟩ ⟨5, .data 7⟩
          firstInput := by
  refine ⟨_, _, Machine.reaches_of_run (configuredInFlight (.config 1 2)) rfl,
    ⟨rfl, by decide⟩, rfl, rfl, rfl, rfl, fun hjudged => ?_⟩
  obtain ⟨config, hconfig, hsize⟩ := hjudged.sameSize
  cases hconfig
  exact absurd hsize (by decide)

end

end Session

end FpgaFramework
