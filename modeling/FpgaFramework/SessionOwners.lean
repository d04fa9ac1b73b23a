/-
The owners of the messages.  Messages are passed on and destroyed by hand, and on
two paths nobody does it: the main loop forgets a message that is neither an input
nor a configuration, and `start` forgets the configuration when the response
cannot be sent.  On a third it is done too early: `start` destroys the
configuration while receiver loops are left that read it.
-/
import FpgaFramework.SessionConfigurations

namespace FpgaFramework

open scoped List

/-- The message is neither an input under the configuration nor a configuration. -/
def ValidMessage.untaken (config message : ValidMessage) : Bool :=
  message.1.isValidData config.1.inputSize == some false &&
    !message.1.isValidConfig

namespace Session

variable {N : Type} {variant : Variant} {session after : Session N}
  {action : Action N}

/-- The messages that tasks hold: dispatches, send tasks and receiver loops. -/
def taskIds (session : Session N) : List Nat :=
  session.pool.waiters.map (·.input.id) ++
    session.sendTasks.map (·.input.id) ++ session.loops.flatMap Loop.heldIds

/-- The messages that somebody holds, once for each holder. -/
def heldIds (session : Session N) : List Nat :=
  session.config.toList.map Held.id ++ Phase.responseIds session.phase ++
    session.taskIds

/-- A receiver loop that goes on to check a result by `_config`. -/
def Loop.readsConfig (loop : Loop N) : Bool :=
  match loop.stage with
  | .waiting | .received (.ok _) _ | .forwarding _ _ _ => true
  | .received (.error _) _ | .notified | .finished => false

/-- The message that `_config` points to for a receiver loop, be it destroyed or
not. -/
def loopIds (session : Session N) : List Nat :=
  if session.loops.any Loop.readsConfig then
    session.acceptedConfigs.getLast?.toList.map Held.id
  else []

/-- The messages that a coroutine may still read. -/
def readIds (session : Session N) : List Nat :=
  session.configTasks.map (·.config.id) ++ session.loopIds ++ session.heldIds

/-- `_main_loop` takes the message neither as an input nor as a configuration. -/
def drops (session : Session N) : Except ErrorCode ValidMessage → Bool
  | .error _ => false
  | .ok message =>
      match session.config with
      | none => false
      | some config => config.message.untaken message

/-- The stored configuration is destroyed with this step. -/
def Action.freesConfig : Action N → Bool
  | .userMessage (.error _) | .stopped => true
  | .userMessage (.ok message) => message.1.isValidConfig
  | _ => false

/-- The stored configuration is destroyed and no other one takes its place. -/
def Action.endsConfig : Action N → Bool
  | .userMessage (.error _) | .stopped => true
  | _ => false

/-- No message is forgotten, and the stored configuration is not destroyed while a
configuration task may read it, nor without a new one while a receiver loop may. -/
structure FreesAll (session : Session N) (action : Action N) : Prop where
  takes : ∀ result ∈ action.fromUser, session.drops result = false
  keepsResponse : session.KeepsResponse action
  unread : action.freesConfig = true → session.configTasks = []
  unreadByLoops : action.endsConfig = true →
    ∀ loop ∈ session.loops, Loop.readsConfig loop = false

instance [DecidableEq N] (session : Session N) (action : Action N) :
    Decidable (session.FreesAll action) :=
  decidable_of_iff
    ((∀ result ∈ action.fromUser, session.drops result = false) ∧
      session.KeepsResponse action ∧
      (action.freesConfig = true → session.configTasks = []) ∧
      (action.endsConfig = true →
        ∀ loop ∈ session.loops, Loop.readsConfig loop = false))
    ⟨fun h => ⟨h.1, h.2.1, h.2.2.1, h.2.2.2⟩,
      fun h => ⟨h.takes, h.keepsResponse, h.unread, h.unreadByLoops⟩⟩

theorem idCount_eq (session : Session N) (id : Nat) :
    session.idCount id = session.heldIds.count id +
      session.destroyed.count id + session.leaked.count id := by
  simp only [idCount, heldIds, taskIds, List.count_append]
  omega

/-- Messages are forgotten by the main loop only. -/
theorem Transition.leaked (h : Transition variant session action after) :
    after.leaked = session.leaked ∨
      ∃ result ∈ action.fromUser, session.drops result = true := by
  cases h with
  | userInvalidQueue _ _ hconfig hdata hinvalid
  | userInvalidStack _ _ hconfig hdata hinvalid =>
      refine Or.inr ⟨_, rfl, ?_⟩
      simp [drops, ValidMessage.untaken, hconfig, hdata, hinvalid]
  | _ => exact Or.inl rfl

/-- When `start` has returned it has destroyed its configuration. -/
theorem Transition.config_returned (hearly : session.Early)
    (hrunning : session.Running) (hguard : session.KeepsResponse action)
    (h : Transition variant session action after)
    (hreturned : after.phase = .returned) : after.config = none := by
  rcases (h.returned hrunning hreturned).2.2 with
    ⟨hphase, hconfig⟩ | hloses | ⟨_, hconfig⟩
  · rw [hconfig]
    exact hearly.noConfig hphase
  · rw [hguard] at hloses
    cases hloses
  · exact hconfig

/-- A configuration task reads the stored configuration. -/
def ReadsStored (session : Session N) : Prop :=
  ∀ task ∈ session.configTasks, session.config = some task.config

theorem ReadsStored.transition (hinv : session.ReadsStored)
    (hearly : session.Early) (hguard : session.FreesAll action)
    (h : Transition variant session action after) : after.ReadsStored := by
  have hended : action.freesConfig = true →
      ∀ task ∈ session.configTasks, after.config = some task.config := by
    intro hfrees task hmem
    rw [hguard.unread hfrees] at hmem
    cases hmem
  cases h with
  | firstConfig hphase =>
      intro task hmem
      simp only [configureNodes, hearly.noConfigTasks hphase, List.append_nil,
        List.mem_map] at hmem
      obtain ⟨node, _, rfl⟩ := hmem
      rfl
  | configPiece hperm | configSendError hperm | configSent hperm
  | configReplyError hperm | configRefused hperm | configAcknowledged hperm =>
      exact forall_moved hinv hperm id
  | configOk hperm | configFailed hperm => exact forall_rest hinv hperm
  | userError | stopped => exact hended rfl
  | userConfig _ _ _ hvalid => exact hended hvalid
  | userInvalidQueue _ _ hconfig hdata hinvalid =>
      have htaken := hguard.takes _ rfl
      simp [drops, ValidMessage.untaken, hconfig, hdata, hinvalid] at htaken
  | _ => exact hinv

/-- A receiver loop reads the stored configuration. -/
def LoopsReadStored (session : Session N) : Prop :=
  session.config = session.acceptedConfigs.getLast? ∨
    session.phase = .returned ∧
      ∀ loop ∈ session.loops, Loop.readsConfig loop = false

theorem LoopsReadStored.transition (hinv : session.LoopsReadStored)
    (hrunning : session.Running) (hguard : session.FreesAll action)
    (h : Transition variant session action after) : after.LoopsReadStored := by
  have hstored : session.config = session.acceptedConfigs.getLast? :=
    hinv.resolve_right fun hreturned => hrunning.2 hreturned.1
  cases h with
  | firstConfig =>
      exact Or.inl (by simp only [configureNodes, List.getLast?_concat])
  | userConfig => exact Or.inl (by simp only [acceptConfig, List.getLast?_concat])
  | userError | stopped => exact Or.inr ⟨rfl, hguard.unreadByLoops rfl⟩
  | userInvalidQueue _ _ hconfig hdata hinvalid =>
      have htaken := hguard.takes _ rfl
      simp [drops, ValidMessage.untaken, hconfig, hdata, hinvalid] at htaken
  | _ => exact Or.inl hstored

theorem LoopsReadStored.mem_heldIds (hinv : session.LoopsReadStored) {id : Nat}
    (hmem : id ∈ session.loopIds) : id ∈ session.heldIds := by
  unfold loopIds at hmem
  split at hmem
  · next hany =>
      rcases hinv with hstored | ⟨_, hnone⟩
      · rw [← hstored] at hmem
        exact List.mem_append_left _ (List.mem_append_left _ hmem)
      · obtain ⟨loop, hloop, hreads⟩ := List.any_eq_true.mp hany
        rw [hnone loop hloop] at hreads
        cases hreads
  · cases hmem

/-- Nothing is forgotten. -/
structure FreedInv (session : Session N) : Prop where
  message : session.MessageInv
  leaked : session.leaked = []
  reads : session.ReadsStored
  loops : session.LoopsReadStored
  returned : session.phase = .returned → session.config = none

theorem FreedInv.transition (hinv : session.FreedInv)
    (hrunning : session.Running) (hguard : session.FreesAll action)
    (h : Transition variant session action after) : after.FreedInv where
  message := hinv.message.transition h
  leaked := by
    rcases h.leaked with heq | ⟨result, hresult, hdrops⟩
    · exact heq.trans hinv.leaked
    · rw [hguard.takes result hresult] at hdrops
      cases hdrops
  reads := hinv.reads.transition hinv.message.early hguard h
  loops := hinv.loops.transition hrunning hguard h
  returned := h.config_returned hinv.message.early hrunning hguard.keepsResponse

/-- Each message has one owner or is destroyed, once; what may be read is not
destroyed; and what `start` leaves behind is held by a task. -/
structure OneOwner (session : Session N) : Prop where
  owners : ∀ id < session.nextId,
    session.heldIds.count id + session.destroyed.count id = 1
  readable : ∀ id ∈ session.readIds, id ∉ session.destroyed
  returned : session.phase = .returned → ∀ id < session.nextId,
    id ∉ session.destroyed → id ∈ session.taskIds

theorem FreedInv.count_owners (hinv : session.FreedInv) (id : Nat) :
    session.heldIds.count id + session.destroyed.count id =
      (List.range session.nextId).count id := by
  have hids := hinv.message.ids id
  rwa [idCount_eq, hinv.leaked, List.count_nil, Nat.add_zero] at hids

theorem FreedInv.not_destroyed (hinv : session.FreedInv) {id : Nat}
    (hmem : id ∈ session.heldIds) : id ∉ session.destroyed := by
  have howners := hinv.count_owners id
  have hone := List.nodup_iff_count_le_one.mp
    (List.nodup_range (n := session.nextId)) id
  have hpos := List.count_pos_iff.mpr hmem
  rw [← List.count_eq_zero]
  omega

section

variable [DecidableEq N]

/-- As long as the main loop takes every message, the response is sent and the
configuration outlives those who read it, every message has one owner until it is
destroyed. -/
theorem oneOwner_of_freesAll (variant : Variant) (nodes : List N)
    (config data receiver : Counter) {session : Session N}
    (h : Machine.Reaches (step variant) FreesAll
      (initial nodes config data receiver) session) : session.OneOwner := by
  have hinv : session.FreedInv := by
    apply h.invariant ⟨MessageInv.initial, rfl, nofun, Or.inl rfl, nofun⟩
    intro before action after hinv hguard hstep
    obtain ⟨hrunning, htransition⟩ := transition_of_step hstep
    exact hinv.transition hrunning hguard htransition
  have howners : ∀ id < session.nextId,
      session.heldIds.count id + session.destroyed.count id = 1 := by
    intro id hlt
    rw [hinv.count_owners]
    exact List.count_eq_one_of_mem List.nodup_range (List.mem_range.mpr hlt)
  refine ⟨howners, ?_, ?_⟩
  · intro id hmem
    apply hinv.not_destroyed
    rcases List.mem_append.mp hmem with hread | hheld
    · rcases List.mem_append.mp hread with htasks | hloops
      · obtain ⟨task, htask, rfl⟩ := List.mem_map.mp htasks
        simp [heldIds, hinv.reads task htask]
      · exact hinv.loops.mem_heldIds hloops
    · exact hheld
  · intro hphase id hlt hnot
    have hheld : id ∈ session.heldIds := by
      have howner := howners id hlt
      rw [List.count_eq_zero.mpr hnot, Nat.add_zero] at howner
      exact List.count_pos_iff.mp (by omega)
    simpa [heldIds, hinv.returned hphase, hphase, Phase.responseIds] using hheld

theorem oneOwner_of_freesAll_reconfigured :
    ∃ session : Session Nat,
      Machine.run (step .stack) FreesAll (initial [0, 1] ⟨0⟩ ⟨0⟩ ⟨0⟩)
        reconfigured = some session ∧
      session.phase = .returned ∧ session.OneOwner :=
  ⟨_, rfl, rfl,
    oneOwner_of_freesAll .stack [0, 1] ⟨0⟩ ⟨0⟩ ⟨0⟩
      (Machine.reaches_of_run reconfigured rfl)⟩

/-- The main loop of the stack variant forgets two invalid messages and goes on;
that of the queue variant forgets one and returns; if the response cannot be sent,
nobody destroys the configuration; and if the user disconnects while a receiver
loop has a result to check, the configuration is destroyed before it is read. -/
theorem message_not_owned :
    (∃ session : Session Nat,
      Machine.Reachable (step .stack) (initial [0] ⟨0⟩ ⟨0⟩ ⟨0⟩) session ∧
        session.phase = .receiving ∧ session.leaked = [4, 3] ∧
          ¬session.OneOwner) ∧
    (∃ session : Session Nat,
      Machine.Reachable (step .queue) (initial [0] ⟨0⟩ ⟨0⟩ ⟨0⟩) session ∧
        session.phase = .returned ∧ session.leaked = [3] ∧
          ¬session.OneOwner) ∧
    (∃ session : Session Nat,
      Machine.Reachable (step .queue) (initial [0] ⟨0⟩ ⟨0⟩ ⟨0⟩) session ∧
        session.phase = .returned ∧ session.config = some ⟨0, .config 1 1⟩ ∧
          ¬session.OneOwner) ∧
    ∃ session : Session Nat,
      Machine.Reachable (step .queue) (initial [0] ⟨0⟩ ⟨0⟩ ⟨0⟩) session ∧
        session.phase = .returned ∧
        session.loops = [⟨0, .received (.ok ⟨3, .data 7⟩) none⟩] ∧
          ¬session.OneOwner := by
  let invalid : ValidMessage := .newConfigResp (fun _ => 0) .success
  refine ⟨⟨_, Machine.reaches_of_run
    (configuration (.config 1 1) [0] ++
      [.userMessage (.ok invalid), .userMessage (.ok invalid)]) rfl, rfl, rfl,
      fun howner => ?_⟩, ⟨_, Machine.reaches_of_run
    (configuration (.config 1 1) [0] ++ [.userMessage (.ok invalid)]) rfl, rfl,
      rfl, fun howner => ?_⟩, ⟨_, Machine.reaches_of_run
    (.firstMessage (.ok (.config 1 1)) :: acknowledge (.config 1 1) 0 ++
      [.configured fun _ => 0, .respError .eof]) rfl, rfl, rfl,
      fun howner => ?_⟩, ⟨_, Machine.reaches_of_run
    (configuration (.config 1 1) [0] ++
      [.nodeMessage ⟨0, .waiting⟩ (.ok (.data 7)) none,
        .userMessage (.error .eof)]) rfl, rfl, rfl, fun howner => ?_⟩⟩
  · exact absurd (howner.owners 3 (by decide)) (by decide)
  · exact absurd (howner.owners 3 (by decide)) (by decide)
  · exact absurd (howner.returned rfl 0 (by decide) (by decide)) (by decide)
  · exact howner.readable 0 (by decide) (by decide)

end

end Session

end FpgaFramework
