/-
The configurations of a session.  Only the first one is sent to the nodes: a
second one ends `_main_loop`, and then `start`.  So all inputs were accepted under
the configuration that the nodes have acknowledged, and only the first
configuration is answered.
-/
import FpgaFramework.SessionUser
import FpgaFramework.SessionTeardown

namespace FpgaFramework

open scoped List

namespace Session

variable {N : Type} {variant : Variant} {session after : Session N}
  {action : Action N}

/-- All that is done for a configuration is done for the first one. -/
structure OneConfig (session : Session N) : Prop where
  awaiting : session.phase = .awaitingConfig → session.acceptedConfigs = []
  stored : session.phase.firstConfig = true →
    session.acceptedConfigs = session.config.toList
  tasks : ∀ task ∈ session.configTasks,
    session.acceptedConfigs.head? = some task.config
  acknowledged : ∀ entry ∈ session.acknowledged,
    session.acceptedConfigs.head? = some entry.2
  inputs : ∀ input ∈ session.accepted, ∃ first later,
    session.acceptedConfigs = first :: later ∧
      input.message.1.isValidData first.message.1.inputSize = some true ∧
        ∀ config ∈ later, input.id < config.id

theorem OneConfig.initial {nodes : List N} {config data receiver : Counter} :
    OneConfig (initial nodes config data receiver) :=
  ⟨fun _ => rfl, nofun, nofun, nofun, nofun⟩

/-- Neither the configurations nor the inputs change. -/
theorem OneConfig.of_same (hinv : session.OneConfig)
    (hawaiting : after.phase = .awaitingConfig → session.phase = .awaitingConfig)
    (hphase : after.phase.firstConfig = true → session.phase.firstConfig = true)
    (hconfig : after.phase.firstConfig = true → after.config = session.config)
    (hconfigs : after.acceptedConfigs = session.acceptedConfigs)
    (htasks : ∀ task ∈ after.configTasks,
      ∃ old ∈ session.configTasks, old.config = task.config)
    (hacknowledged : ∀ entry ∈ after.acknowledged,
      entry ∈ session.acknowledged ∨
        ∃ old ∈ session.configTasks, old.config = entry.2)
    (haccepted : after.accepted = session.accepted) : after.OneConfig where
  awaiting h := hconfigs.trans (hinv.awaiting (hawaiting h))
  stored h := by
    rw [hconfigs, hconfig h]
    exact hinv.stored (hphase h)
  tasks task hmem := by
    obtain ⟨old, hold, hsame⟩ := htasks task hmem
    rw [hconfigs, ← hsame]
    exact hinv.tasks old hold
  acknowledged entry hmem := by
    rw [hconfigs]
    rcases hacknowledged entry hmem with hold | ⟨old, hold, hsame⟩
    · exact hinv.acknowledged entry hold
    · rw [← hsame]
      exact hinv.tasks old hold
  inputs := by
    rw [hconfigs, haccepted]
    exact hinv.inputs

theorem OneConfig.firstConfig (hinv : session.OneConfig) (hearly : session.Early)
    (hphase : session.phase = .awaitingConfig) (message : ValidMessage) :
    (session.configureNodes variant message).OneConfig := by
  have hnone := hinv.awaiting hphase
  constructor
  · intro hawaiting
    cases hawaiting
  · intro _
    simp only [configureNodes, hnone, List.nil_append, Option.toList_some]
  · intro task hmem
    simp only [configureNodes, hearly.noConfigTasks hphase, List.append_nil,
      List.mem_map] at hmem
    obtain ⟨node, _, rfl⟩ := hmem
    simp only [configureNodes, hnone, List.nil_append, List.head?_cons]
  · intro entry hmem
    have hhead := hinv.acknowledged entry hmem
    rw [hnone] at hhead
    cases hhead
  · intro input hmem
    obtain ⟨first, later, hsome, _⟩ := hinv.inputs input hmem
    rw [hnone] at hsome
    cases hsome

theorem OneConfig.acceptInput (hinv : session.OneConfig)
    (hphase : session.phase = .receiving) {config : Held}
    (hconfig : session.config = some config) {message : ValidMessage}
    (hdata : message.1.isValidData config.message.1.inputSize = some true) :
    (session.acceptInput config message).OneConfig := by
  have hone : session.acceptedConfigs = [config] := by
    rw [hinv.stored (by simp [hphase, Phase.firstConfig]), hconfig,
      Option.toList_some]
  constructor
  · intro hawaiting
    rcases phase_acceptInput hphase hawaiting with hother | hother <;> cases hother
  · intro _
    exact hone.trans (by simp [Session.acceptInput, dispatchInput, hconfig])
  · exact hinv.tasks
  · exact hinv.acknowledged
  · intro input hmem
    rcases List.mem_append.mp hmem with hold | hnew
    · exact hinv.inputs input hold
    · rw [List.mem_singleton.mp hnew]
      exact ⟨config, [], hone, hdata, fun _ hlater => by cases hlater⟩

theorem OneConfig.acceptConfig (hinv : session.OneConfig)
    (hmessage : session.MessageInv) (hphase : session.phase = .receiving)
    {old : Held} (hconfig : session.config = some old)
    (message : ValidMessage) :
    (session.acceptConfig old message).OneConfig := by
  have hone : session.acceptedConfigs = [old] := by
    rw [hinv.stored (by simp [hphase, Phase.firstConfig]), hconfig,
      Option.toList_some]
  have htwo : (session.acceptConfig old message).acceptedConfigs =
      [old, ⟨session.nextId, message⟩] := by
    simp only [Session.acceptConfig, hone, List.cons_append, List.nil_append]
  constructor
  · intro hawaiting
    cases hawaiting
  · intro hfirst
    cases hfirst
  · intro task hmem
    have hhead := hinv.tasks task hmem
    rw [hone] at hhead
    rw [htwo]
    exact hhead
  · intro entry hmem
    have hhead := hinv.acknowledged entry hmem
    rw [hone] at hhead
    rw [htwo]
    exact hhead
  · intro input hmem
    obtain ⟨first, later, hsome, hvalid, _⟩ := hinv.inputs input hmem
    rw [hone] at hsome
    cases hsome
    refine ⟨old, _, htwo, hvalid, ?_⟩
    intro config hlater
    rw [List.mem_singleton.mp hlater]
    exact hmessage.fresh input hmem

theorem OneConfig.transition (hinv : session.OneConfig)
    (hmessage : session.MessageInv) (hwaits : session.MainWaits)
    (h : Transition variant session action after) : after.OneConfig := by
  have hsameTasks : ∀ task ∈ session.configTasks,
      ∃ old ∈ session.configTasks, old.config = task.config :=
    fun task hmem => ⟨task, hmem, rfl⟩
  cases h with
  | firstError | firstInvalid | respError | userError | userInvalidQueue
  | drained | stopped =>
      exact hinv.of_same (fun h => by cases h) (fun h => by cases h)
        (fun h => by cases h) rfl hsameTasks (fun _ => Or.inl) rfl
  | firstConfig hphase => exact hinv.firstConfig hmessage.early hphase _
  | configPiece hperm | configSendError hperm | configSent hperm
  | configReplyError hperm | configRefused hperm =>
      exact hinv.of_same id id (fun _ => rfl) rfl
        (forall_moved hsameTasks hperm id) (fun _ => Or.inl) rfl
  | @configAcknowledged task rest reply hperm =>
      refine hinv.of_same id id (fun _ => rfl) rfl
        (forall_moved hsameTasks hperm id) ?_ rfl
      intro entry hmem
      rcases List.mem_cons.mp hmem with rfl | hold
      · exact Or.inr ⟨task, mem_of_perm hperm, rfl⟩
      · exact Or.inl hold
  | configOk hperm | configFailed hperm =>
      exact hinv.of_same id id (fun _ => rfl) rfl (forall_rest hsameTasks hperm)
        (fun _ => Or.inl) rfl
  | configured hphase | respSent hphase =>
      exact hinv.of_same (fun h => by cases h)
        (fun _ => by simp [hphase, Phase.firstConfig]) (fun _ => rfl) rfl
        hsameTasks (fun _ => Or.inl) rfl
  | userInput hphase hconfig hdata =>
      exact hinv.acceptInput hphase hconfig hdata
  | userConfig hphase hconfig =>
      exact hinv.acceptConfig hmessage hphase hconfig _
  | resumed _ _ hwaiters =>
      exact hinv.of_same (fun hphase => phase_of_resumed hphase (by simp))
        (hwaits.firstConfig_of_resumed hwaiters) (fun _ => rfl) rfl hsameTasks
        (fun _ => Or.inl) rfl
  | _ =>
      exact hinv.of_same id id (fun _ => rfl) rfl hsameTasks (fun _ => Or.inl) rfl

theorem holders_dispatchInput (session : Session N) (input : Input)
    (byMain : Bool) :
    (session.dispatchInput input byMain).holders ~
      input :: session.holders := by
  rcases dispatchInput_cases session input byMain with
    ⟨node, pool, _, hwaiters, heq⟩ | ⟨pool, _, _, hwaiters, heq⟩
  · rw [heq]
    simp only [holders, hwaiters, List.map_cons]
    exact List.perm_middle
  · rw [heq]
    simp only [holders, hwaiters, List.map_append, List.map_cons, List.map_nil,
      List.append_assoc, List.cons_append, List.nil_append]
    exact List.perm_middle

theorem Transition.mem_holders (h : Transition variant session action after)
    {input : Input} (hmem : input ∈ after.holders) :
    input ∈ session.holders ∨ input ∈ after.accepted := by
  have hmoved : ∀ {task : SendTask N} {rest : List (SendTask N)},
      session.sendTasks ~ task :: rest →
        input ∈ session.pool.waiters.map Dispatch.input ++
          (task.input :: rest.map SendTask.input) →
            input ∈ session.holders := by
    intro task rest hperm hin
    rw [holders, ((hperm.map SendTask.input).append_left _).mem_iff]
    exact hin
  cases h with
  | firstConfig =>
      simp only [holders, configureNodes, AsyncPool.waiters_popAll,
        AsyncPool.waiters_pushAll] at hmem
      exact Or.inl hmem
  | configOk =>
      simp only [holders, AsyncPool.waiters_push] at hmem
      exact Or.inl hmem
  | respSent =>
      simp only [holders, startLoops, AsyncPool.waiters_popAll,
        AsyncPool.waiters_pushAll] at hmem
      exact Or.inl hmem
  | userInput =>
      rcases List.mem_cons.mp ((holders_dispatchInput _ _ _).mem_iff.mp hmem) with
        rfl | hold
      · exact Or.inr (List.mem_append_right _ List.mem_cons_self)
      · exact Or.inl hold
  | inputPiece hperm | inputWhole hperm => exact Or.inl (hmoved hperm hmem)
  | inputSendError hperm =>
      apply Or.inl
      apply hmoved hperm
      rcases List.mem_cons.mp ((holders_dispatchInput _ _ _).mem_iff.mp hmem) with
        rfl | hold
      · exact List.mem_append_right _ List.mem_cons_self
      · exact (List.mem_append.mp hold).elim (List.mem_append_left _)
          fun hrest => List.mem_append_right _ (List.mem_cons_of_mem _ hrest)
  | inputSent hperm =>
      simp only [holders, AsyncPool.waiters_push] at hmem
      apply Or.inl
      apply hmoved hperm
      exact (List.mem_append.mp hmem).elim (List.mem_append_left _)
        fun hrest => List.mem_append_right _ (List.mem_cons_of_mem _ hrest)
  | resumed _ _ hwaiters =>
      apply Or.inl
      rw [holders, List.mem_append, (hwaiters.map Dispatch.input).mem_iff]
      simp only [holders, List.map_cons, List.mem_append, List.mem_cons]
        at hmem ⊢
      tauto
  | _ => exact Or.inl hmem

/-- The configuration that the node has acknowledged last. -/
def lastAcknowledged [DecidableEq N] (session : Session N) (node : N) :
    Option Held :=
  (session.acknowledged.find? (·.1 = node)).map Prod.snd

/-- What holds of the configurations in every reachable state. -/
structure ConfigsInv (nodes : List N) [DecidableEq N] (session : Session N) :
    Prop where
  node : NodeInv nodes session
  message : session.MessageInv
  mainWaits : session.MainWaits
  configs : session.OneConfig
  holders : ∀ input ∈ session.holders, input ∈ session.accepted

section

variable [DecidableEq N]

theorem ConfigsInv.transition {nodes : List N} (hnodup : nodes.Nodup)
    (hinv : ConfigsInv nodes session) (hrunning : session.Running)
    (h : Transition variant session action after) : ConfigsInv nodes after where
  node := hinv.node.transition hnodup hrunning h
  message := hinv.message.transition h
  mainWaits := hinv.mainWaits.transition h
  configs := hinv.configs.transition hinv.message hinv.mainWaits h
  holders input hmem := by
    rcases h.mem_holders hmem with hold | hnew
    · have haccepted := hinv.holders input hold
      rcases h.accepted with heq | ⟨_, heq, _⟩
      · rw [heq]
        exact haccepted
      · rw [heq]
        exact List.mem_append_left _ haccepted
    · exact hnew

theorem configsInv_of_reachable {nodes : List N} (hnodup : nodes.Nodup)
    {config data receiver : Counter}
    (h : Machine.Reachable (step variant) (initial nodes config data receiver)
      session) : ConfigsInv nodes session := by
  apply h.invariant
  · exact ⟨NodeInv.initial, MessageInv.initial, rfl, OneConfig.initial, nofun⟩
  · intro before action after hinv _ hstep
    obtain ⟨hrunning, htransition⟩ := transition_of_step hstep
    exact hinv.transition hnodup hrunning htransition

/-- A ready node has acknowledged the first configuration, and none since. -/
theorem ConfigsInv.lastAcknowledged {nodes : List N}
    (hinv : ConfigsInv nodes session) {node : N}
    (hmem : node ∈ session.readyNodes) {first : Held} {later : List Held}
    (hconfigs : session.acceptedConfigs = first :: later) :
    session.lastAcknowledged node = some first := by
  have hused := hinv.node.usedAcknowledged node (List.mem_append_left _ hmem)
  obtain ⟨entry, hentry, hnode⟩ := List.mem_map.mp hused
  have hfound : (session.acknowledged.find? (·.1 = node)).isSome = true := by
    rw [List.find?_isSome]
    exact ⟨entry, hentry, by simpa using hnode⟩
  obtain ⟨found, heq⟩ := Option.isSome_iff_exists.mp hfound
  have hhead := hinv.configs.acknowledged found (List.mem_of_find?_eq_some heq)
  rw [hconfigs, List.head?_cons, Option.some.injEq] at hhead
  rw [Session.lastAcknowledged, heq, Option.map_some, hhead]

/-- Every input that a send task writes was checked against the configuration
that its node has acknowledged last. -/
theorem input_valid_of_sendTask (variant : Variant) (nodes : List N)
    (hnodup : nodes.Nodup) (config data receiver : Counter) {session : Session N}
    (h : Machine.Reachable (step variant) (initial nodes config data receiver)
      session) (task : SendTask N) (hmem : task ∈ session.sendTasks) :
    ∃ acknowledged, session.lastAcknowledged task.node = some acknowledged ∧
      task.input.message.1.isValidData acknowledged.message.1.inputSize =
        some true := by
  have hinv := configsInv_of_reachable hnodup h
  have hready : task.node ∈ session.readyNodes :=
    List.mem_append_right _ (List.mem_map_of_mem hmem)
  have haccepted := hinv.holders task.input
    (List.mem_append_right _ (List.mem_map_of_mem hmem))
  obtain ⟨first, later, hconfigs, hvalid, _⟩ :=
    hinv.configs.inputs task.input haccepted
  exact ⟨first, hinv.lastAcknowledged hready hconfigs, hvalid⟩

/-- The input that is sent again is still checked by the first configuration,
though a second one is stored already. -/
theorem input_valid_of_sendTask_retry :
    ∃ session : Session Nat,
      Machine.run (step .queue) (fun _ _ => True)
        (initial [0, 1] ⟨0⟩ ⟨0⟩ ⟨0⟩)
        (retry ++ [.userMessage (.ok (.config 2 1)),
          .inputPiece ⟨1, firstInput, 0⟩ 5]) = some session ∧
      session.config = some ⟨5, .config 2 1⟩ ∧
        ∃ acknowledged, session.lastAcknowledged 1 = some acknowledged ∧
          firstInput.message.1.isValidData acknowledged.message.1.inputSize =
            some true :=
  ⟨_, rfl, rfl,
    input_valid_of_sendTask .queue [0, 1] (by decide) ⟨0⟩ ⟨0⟩ ⟨0⟩
      (Machine.reaches_of_run
        (retry ++ [.userMessage (.ok (.config 2 1)),
          .inputPiece ⟨1, firstInput, 0⟩ 5]) rfl)
      ⟨1, firstInput, 5⟩ List.mem_cons_self⟩

end

/-- The message that the session receives from its user with the step. -/
def Action.received : Action N → List ValidMessage
  | .firstMessage result | .userMessage result => result.toOption.toList
  | _ => []

def noteReceived (_before : Session N) (action : Action N)
    (_after : Session N) : List ValidMessage :=
  action.received

/-- Every valid configuration in the user's stream is accepted. -/
theorem Transition.acceptedConfigs
    (h : Transition variant session action after) :
    after.acceptedConfigs.map Held.message =
      session.acceptedConfigs.map Held.message ++
        action.received.filter (·.1.isValidConfig) := by
  have hdataType : ∀ {message : ValidMessage} {size : UInt32},
      message.1.isValidData size ≠ some false →
        message.1.isValidConfig = false := by
    intro message size hdata
    have htype : message.1.header.type = .data := by
      by_contra hnot
      exact hdata (by simp [Message.isValidData, hnot])
    simp [Message.isValidConfig, htype, MessageType.data, MessageType.config]
  cases h with
  | firstInvalid _ hinvalid | userInvalidQueue _ _ _ _ hinvalid
  | userInvalidStack _ _ _ _ hinvalid =>
      simp [Action.received, Except.toOption, hinvalid, dropMessage, endSession]
  | firstConfig _ hvalid | userConfig _ _ _ hvalid =>
      simp [Action.received, Except.toOption, hvalid, configureNodes,
        Session.acceptConfig]
  | userDivision _ _ hdata =>
      have hnot := hdataType (by rw [hdata]; decide)
      simp [Action.received, Except.toOption, hnot]
  | userInput _ _ hdata =>
      have hnot := hdataType (by rw [hdata]; decide)
      simp [Action.received, Except.toOption, hnot, Session.acceptInput,
        dispatchInput]
  | _ => exact (List.append_nil _).symm

/-- The user's connection does not fail while the response is being sent. -/
def Action.losesResponse : Action N → Bool
  | .respError _ => true
  | _ => false

def KeepsResponse (_session : Session N) (action : Action N) : Prop :=
  action.losesResponse = false

instance (session : Session N) (action : Action N) :
    Decidable (session.KeepsResponse action) := by
  unfold KeepsResponse
  infer_instance

/-- `start` returns before it has a configuration, when it cannot send the
response, or after `_main_loop`. -/
theorem Transition.returned (hrunning : session.Running)
    (h : Transition variant session action after)
    (hreturned : after.phase = .returned) :
    after.user = session.user ∧
      after.acceptedConfigs = session.acceptedConfigs ∧
        (session.phase = .awaitingConfig ∧ after.config = session.config ∨
          action.losesResponse = true ∨
          session.phase.mainLoop = true ∧ after.config = none) := by
  cases h with
  | firstError hphase | firstInvalid hphase =>
      exact ⟨rfl, rfl, Or.inl ⟨hphase, rfl⟩⟩
  | respError => exact ⟨rfl, rfl, Or.inr (Or.inl rfl)⟩
  | userError hphase | userInvalidQueue _ hphase | stopped hphase =>
      exact ⟨rfl, rfl, Or.inr (Or.inr ⟨by simp [hphase, Phase.mainLoop], rfl⟩)⟩
  | firstConfig | configured | respSent | userConfig | drained => cases hreturned
  | userInput hphase =>
      rcases phase_acceptInput hphase hreturned with hafter | hafter <;>
        cases hafter
  | resumed => exact absurd (phase_of_resumed hreturned (by simp)) hrunning.2
  | _ => exact absurd hreturned hrunning.2

/-- How many configuration responses have been sent whole. -/
def responsesSent (session : Session N) : Nat :=
  session.user.sends.countP fun transfer =>
    transfer.message.1.header.type == .configResp &&
      transfer.written == (encode transfer.message).length

/-- Whether the response is out, by the configurations accepted. -/
structure ResponseOut (session : Session N) : Prop where
  asked : session.phase ≠ .awaitingConfig → session.phase ≠ .returned →
    session.acceptedConfigs ≠ []
  unasked : session.acceptedConfigs = [] → session.user.messages = []
  returned : session.phase = .returned → session.acceptedConfigs ≠ [] →
    session.user.Done encode 0

theorem ResponseFirst.responsesSent_eq_one (hinv : session.ResponseFirst)
    (hdata : ∀ entry ∈ session.forwarded, entry.2.message.1.header.type = .data)
    (hdone : session.user.Done encode 0) : session.responsesSent = 1 := by
  obtain ⟨transfer, hget, hfull⟩ := hdone
  rcases hinv.order with ⟨hnone, _⟩ | ⟨memory, hmessages⟩
  · rw [SharedStream.messages, List.map_eq_nil_iff] at hnone
    rw [hnone] at hget
    cases hget
  · cases hsends : session.user.sends with
    | nil =>
        rw [hsends] at hget
        cases hget
    | cons first rest =>
        rw [hsends] at hget
        cases hget
        rw [SharedStream.messages, hsends, List.map_cons, List.cons.injEq]
          at hmessages
        have hrest : rest.countP (fun transfer =>
            transfer.message.1.header.type == .configResp &&
              transfer.written == (encode transfer.message).length) = 0 := by
          rw [List.countP_eq_zero]
          intro other hother
          have hmem := hmessages.2 ▸ List.mem_map_of_mem hother
          obtain ⟨entry, hentry, hsame⟩ := List.mem_map.mp hmem
          simp [← hsame, hdata entry hentry, MessageType.data,
            MessageType.configResp]
        have htype : transfer.message.1.header.type = .configResp := by
          rw [hmessages.1]
          rfl
        rw [responsesSent, hsends, List.countP_cons, hrest]
        simp [htype, hfull]

theorem ResponseOut.initial {nodes : List N} {config data receiver : Counter} :
    ResponseOut (initial nodes config data receiver) :=
  ⟨fun hphase => absurd rfl hphase, fun _ => rfl, nofun⟩

theorem ResponseOut.asked_transition (hinv : session.ResponseOut)
    (hearly : session.Early) (hrunning : session.Running)
    (h : Transition variant session action after)
    (hawaiting : after.phase ≠ .awaitingConfig)
    (hreturned : after.phase ≠ .returned) : after.acceptedConfigs ≠ [] := by
  have hasked : session.phase ≠ .awaitingConfig →
      session.acceptedConfigs ≠ [] :=
    fun hphase => hinv.asked hphase hrunning.2
  cases h with
  | firstError | firstInvalid | respError | userError | userInvalidQueue
  | stopped => exact absurd rfl hreturned
  | firstConfig | userConfig => exact List.append_ne_nil_of_right_ne_nil _ (by simp)
  | configured hphase | respSent hphase | userInput hphase | drained hphase =>
      exact hasked (by simp [hphase])
  | resumed _ _ hwaiters =>
      apply hasked
      intro hphase
      exact not_nil_of_perm hwaiters
        (hearly.noWaiters (beforeLoops_of_awaiting hphase))
  | _ => exact hasked hawaiting

theorem ResponseOut.unasked_transition (hinv : session.ResponseOut)
    (hresponse : session.ResponseFirst) (hearly : session.Early)
    (hrunning : session.Running)
    (h : Transition variant session action after)
    (hnone : after.acceptedConfigs = []) : after.user.messages = [] := by
  cases h with
  | firstConfig | userConfig =>
      exact absurd hnone (List.append_ne_nil_of_right_ne_nil _ (by simp))
  | configured hphase =>
      exact absurd hnone (hinv.asked (by simp [hphase]) hrunning.2)
  | respPiece _ hpiece | forwardPiece _ _ hpiece =>
      exact (SharedStream.messages_piece hpiece).trans (hinv.unasked hnone)
  | examineValid hperm =>
      have hdone := hresponse.mainLoop (hearly.mainLoop_of_loop hrunning hperm)
      have hlength := hdone.lt_length
      have hmessages := hinv.unasked hnone
      rw [SharedStream.messages, List.map_eq_nil_iff] at hmessages
      simp [hmessages] at hlength
  | _ => exact hinv.unasked hnone

theorem ResponseOut.returned_transition (hresponse : session.ResponseFirst)
    (hconfigs : session.OneConfig) (hrunning : session.Running)
    (hguard : session.KeepsResponse action)
    (h : Transition variant session action after)
    (hreturned : after.phase = .returned) (hsome : after.acceptedConfigs ≠ []) :
    after.user.Done encode 0 := by
  obtain ⟨huser, hsame, hcases⟩ := h.returned hrunning hreturned
  rw [huser]
  rcases hcases with ⟨hphase, _⟩ | hloses | ⟨hmain, _⟩
  · rw [hsame] at hsome
    exact absurd (hconfigs.awaiting hphase) hsome
  · rw [hguard] at hloses
    cases hloses
  · exact hresponse.mainLoop hmain

/-- Every input is sent only to nodes that have acknowledged the configurations
before it. -/
def InForce (session : Session N) : Prop :=
  ∀ input ∈ session.accepted, ∀ config ∈ session.acceptedConfigs,
    config.id < input.id →
      ∀ node ∈ session.readyNodes, (node, config) ∈ session.acknowledged

section

variable [DecidableEq N]

theorem ConfigsInv.inForce {nodes : List N} (hinv : ConfigsInv nodes session) :
    session.InForce := by
  intro input hinput config hconfig hbefore node hnode
  obtain ⟨first, later, hconfigs, _, hlater⟩ := hinv.configs.inputs input hinput
  rw [hconfigs] at hconfig
  rcases List.mem_cons.mp hconfig with rfl | hmem
  · have hused := hinv.node.usedAcknowledged node (List.mem_append_left _ hnode)
    obtain ⟨entry, hentry, rfl⟩ := List.mem_map.mp hused
    have hhead := hinv.configs.acknowledged entry hentry
    rw [hconfigs, List.head?_cons, Option.some.injEq] at hhead
    rw [hhead]
    exact hentry
  · have hafter := hlater config hmem
    omega

/-- Every accepted configuration is answered, and at every moment of the run the
nodes in use have acknowledged those before any accepted input. -/
structure Applied (variant : Variant) (start session : Session N) : Prop where
  answered : session.responsesSent = session.acceptedConfigs.length
  inForce : ∀ moment, Machine.Reachable (step variant) start moment →
    Machine.Reachable (step variant) moment session → moment.InForce

/-- What is known of the response and the configurations that were received. -/
structure AnswerInv (nodes : List N) (session : Session N)
    (received : List ValidMessage) : Prop where
  configs : ConfigsInv nodes session
  user : UserInv nodes session
  response : session.ResponseOut
  received : session.acceptedConfigs.map Held.message =
    received.filter (·.1.isValidConfig)

theorem AnswerInv.transition {nodes : List N} (hnodup : nodes.Nodup)
    {received : List ValidMessage} (hinv : AnswerInv nodes session received)
    (hrunning : session.Running) (hguard : session.KeepsResponse action)
    (h : Transition variant session action after) :
    AnswerInv nodes after (received ++ action.received) where
  configs := hinv.configs.transition hnodup hrunning h
  user := hinv.user.transition hnodup hrunning h
  response :=
    ⟨hinv.response.asked_transition hinv.user.node.early hrunning h,
      hinv.response.unasked_transition hinv.user.response hinv.user.node.early
        hrunning h,
      ResponseOut.returned_transition hinv.user.response hinv.configs.configs
        hrunning hguard h⟩
  received := by
    rw [h.acceptedConfigs, hinv.received, List.filter_append]

/-- A session answers as many configurations as it has accepted, and applies
them, exactly if the user has sent no more than one. -/
theorem applied_iff_oneConfig (variant : Variant) (nodes : List N)
    (hnodup : nodes.Nodup) (config data receiver : Counter) {session : Session N}
    {received : List ValidMessage}
    (h : Machine.Records (step variant) noteReceived KeepsResponse
      (initial nodes config data receiver) session received)
    (hreturned : session.phase = .returned) :
    Applied variant (initial nodes config data receiver) session ↔
      (received.filter (·.1.isValidConfig)).length ≤ 1 := by
  have hinv : AnswerInv nodes session received := by
    apply h.invariant
    · exact ⟨⟨NodeInv.initial, MessageInv.initial, rfl, OneConfig.initial, nofun⟩,
        ⟨NodeInv.initial, ResponseFirst.initial, ResultsFresh.initial,
          InOrder.initial, nofun⟩, ResponseOut.initial, rfl⟩
    · intro before action after received _ hinv hguard hstep
      obtain ⟨hrunning, htransition⟩ := transition_of_step hstep
      exact hinv.transition hnodup hrunning hguard htransition
  have hlength : session.acceptedConfigs.length =
      (received.filter (·.1.isValidConfig)).length := by
    rw [← hinv.received, List.length_map]
  have hanswers : session.responsesSent =
      if session.acceptedConfigs = [] then 0 else 1 := by
    split
    · next hnone =>
        have hmessages := hinv.response.unasked hnone
        rw [SharedStream.messages, List.map_eq_nil_iff] at hmessages
        rw [responsesSent, hmessages, List.countP_nil]
    · next hsome =>
        exact hinv.user.response.responsesSent_eq_one hinv.user.data
          (hinv.response.returned hreturned hsome)
  rw [← hlength]
  constructor
  · intro happlied
    rw [← happlied.answered, hanswers]
    split
    · exact Nat.zero_le 1
    · exact Nat.le_refl 1
  · intro hone
    constructor
    · rw [hanswers]
      split
      · next hnone => rw [hnone, List.length_nil]
      · next hsome =>
          have hpos := List.length_pos_iff.mpr hsome
          omega
    · intro moment hmoment _
      exact (configsInv_of_reachable hnodup hmoment).inForce

/-- One configuration and one input, and then the user disconnects. -/
theorem applied_iff_oneConfig_once :
    ∃ (session : Session Nat) (received : List ValidMessage),
      Machine.run (Machine.recording (step .queue) noteReceived)
        (fun entry => KeepsResponse entry.1) (initial [0, 1] ⟨0⟩ ⟨0⟩ ⟨0⟩, [])
        (configuration (.config 1 1) [0, 1] ++
          [.userMessage (.ok (.data 5)), .userMessage (.error .eof)]) =
            some (session, received) ∧
      received = [.config 1 1, .data 5] ∧
        (Applied .queue (initial [0, 1] ⟨0⟩ ⟨0⟩ ⟨0⟩) session ↔
          (received.filter (·.1.isValidConfig)).length ≤ 1) :=
  ⟨_, _, rfl, rfl,
    applied_iff_oneConfig .queue [0, 1] (by decide) ⟨0⟩ ⟨0⟩ ⟨0⟩
      (Machine.records_of_run
        (configuration (.config 1 1) [0, 1] ++
          [.userMessage (.ok (.data 5)), .userMessage (.error .eof)]) rfl) rfl⟩

/-- A second configuration stops the receiver loops, and the session ends: no
node is sent the configuration, and the user gets no second response. -/
theorem second_config_not_applied :
    ∃ session : Session Nat,
      Machine.Records (step .queue) noteReceived KeepsResponse
        (initial [0, 1] ⟨0⟩ ⟨0⟩ ⟨0⟩) session [.config 1 1, .config 2 1] ∧
        session.phase = .returned ∧ session.acceptedConfigs.length = 2 ∧
          session.responsesSent = 1 ∧
            ¬Applied .queue (initial [0, 1] ⟨0⟩ ⟨0⟩ ⟨0⟩) session := by
  refine ⟨_, Machine.records_of_run
    (configuration (.config 1 1) [0, 1] ++
      .userMessage (.ok (.config 2 1)) :: stopLoops) rfl, rfl, rfl, rfl, ?_⟩
  intro happlied
  exact absurd happlied.answered (by decide)

end

end Session

end FpgaFramework
