/-
A session between a bench user and bench nodes.  Nobody sends anything unexpected,
and then the session drops nothing: every input that was written to a node is there,
in a receiver loop's hands, or forwarded.
-/
import FpgaFramework.BenchUser
import FpgaFramework.SessionCounters
import FpgaFramework.SessionInputs
import FpgaFramework.SessionReader

namespace FpgaFramework

open scoped List

namespace Session

variable {N : Type} {variant : Variant} {sizes : BenchSizes}
  {session after : Session N} {action : Action N}

/-- The message is a bench node's result for the input. -/
structure BenchResult (sizes : BenchSizes) (input result : ValidMessage) : Prop where
  holdsBlock : result.1.frame.HoldsBlock sizes.outputSize
  key_eq : result.1.frame.benchKey = input.1.frame.benchKey

/-- What the parties of the bench send, on connections that do not fail. -/
def BenchServes (sizes : BenchSizes) : Action N → Prop
  | .firstMessage result => ∃ message, result = .ok message ∧
      message.1.frame = BenchUser.configFrame sizes
  | .configReply _ result => ∃ reply, result = .ok reply ∧
      reply.1.frame = responseFrame
  | .userMessage result => ∀ message, result = .ok message →
      message.1.frame.HoldsBlock sizes.inputSize
  | .nodeMessage _ result answers => ∃ message input, result = .ok message ∧
      answers = some input ∧ BenchResult sizes input.message message
  | .configSendError _ _ => False
  | .respError _ => False
  | .inputSendError _ _ => False
  | .forwardError _ _ => False
  | _ => True

/-- The key of the input whose result the loop has and does not forward yet. -/
def Loop.benchKeys (loop : Loop N) : List BenchKey :=
  match loop.stage with
  | .received _ answers => answers.toList.map fun input => input.message.1.frame.benchKey
  | _ => []

/-- The loop waits, or has the result for an input. -/
def Loop.Benched (sizes : BenchSizes) (loop : Loop N) : Prop :=
  match loop.stage with
  | .waiting => True
  | .received (.ok held) (some input) =>
      BenchResult sizes input.message held.message
  | .forwarding _ _ (some _) => True
  | _ => False

/-- What holds of a session in a bench. -/
structure BenchInv (sizes : BenchSizes) (session : Session N) : Prop where
  config : ∀ config ∈ session.config,
    config.message.1.frame = BenchUser.configFrame sizes
  tasks : ∀ task ∈ session.configTasks,
    task.config.message.1.frame = BenchUser.configFrame sizes ∧
      ∀ ec, task.stage ≠ .finished (some ec)
  loops : ∀ loop ∈ session.loops, Loop.Benched sizes loop
  phase : session.phase ≠ .draining ∧ session.phase ≠ .stopping
  noFault : session.fault = none
  noneRetired : session.retired = []
  onlyMain : ∀ waiter ∈ session.pool.waiters, waiter.byMain = true
  woken : session.pool.woken ≠ [] → session.pool.items ≠ []
  forwarded : ∀ entry ∈ session.forwarded,
    entry.2.message.1.frame.HoldsBlock sizes.outputSize
  conserved : session.delivered.map (fun entry => entry.2.message.1.frame.benchKey) ~
    session.atNodes.map (fun entry => entry.2.message.1.frame.benchKey) ++
      (session.loops.flatMap Loop.benchKeys ++
        session.forwarded.map fun entry => entry.2.message.1.frame.benchKey)

theorem BenchInv.initial {nodes : List N} {config data receiver : Counter} :
    BenchInv sizes (initial nodes config data receiver) := by
  constructor
  · intro config hmem
    cases hmem
  · intro task hmem
    cases hmem
  · intro loop hmem
    cases hmem
  · exact ⟨Phase.noConfusion, Phase.noConfusion⟩
  · rfl
  · rfl
  · intro waiter hmem
    cases hmem
  · exact fun h => absurd rfl h
  · intro entry hmem
    cases hmem
  · exact List.Perm.refl _

/-- What the stored configuration says about sizes. -/
theorem BenchInv.reads (hinv : BenchInv sizes session) {config : Held}
    (hconfig : session.config = some config) :
    BenchUser.ReadsConfig sizes config.message.1 :=
  BenchUser.readsConfig_of_frame config.message (hinv.config config hconfig)

theorem BenchInv.isValidData_input (hinv : BenchInv sizes session) {config : Held}
    (hconfig : session.config = some config) {message : ValidMessage}
    (h : message.1.frame.HoldsBlock sizes.inputSize) :
    message.1.isValidData config.message.1.inputSize = some true := by
  rw [(hinv.reads hconfig).input_eq]
  exact BenchUser.isValidData_of_frame message (BenchUser.inputSize_ne_zero sizes) h

theorem BenchInv.isValidData_output (hinv : BenchInv sizes session) {config : Held}
    (hconfig : session.config = some config) {message : ValidMessage}
    (h : message.1.frame.HoldsBlock sizes.outputSize) :
    message.1.isValidData config.message.1.outputSize = some true := by
  rw [(hinv.reads hconfig).output_eq]
  exact BenchUser.isValidData_of_frame message (BenchUser.outputSize_ne_zero sizes) h

/-- A loop that is examined has a result, which passes. -/
theorem BenchInv.received (hinv : BenchInv sizes session) {loop : Loop N}
    (hmem : loop ∈ session.loops) {result : Except ErrorCode Held}
    {answers : Option Input} (hstage : loop.stage = .received result answers) :
    ∃ held input, result = .ok held ∧ answers = some input ∧
      BenchResult sizes input.message held.message := by
  have hloop := hinv.loops loop hmem
  rw [Loop.Benched, hstage] at hloop
  cases result with
  | error ec => exact hloop.elim
  | ok held =>
      cases answers with
      | none => exact hloop.elim
      | some input => exact ⟨held, input, rfl, rfl, hloop⟩

/-- The steps that a bench does not take. -/
theorem BenchInv.no_invalid (hinv : BenchInv sizes session) {loop : Loop N}
    (hmem : loop ∈ session.loops) {held : Held} {answers : Option Input}
    (hstage : loop.stage = .received (.ok held) answers) {config : Held}
    (hconfig : session.config = some config) :
    held.message.1.isValidData config.message.1.outputSize = some true := by
  obtain ⟨_, input, hok, _, hresult⟩ := hinv.received hmem hstage
  cases hok
  exact hinv.isValidData_output hconfig hresult.holdsBlock

theorem isValidConfig_of_firstMessage {message : ValidMessage}
    (hserves : BenchServes sizes (.firstMessage (.ok message) : Action N)) :
    message.1.frame = BenchUser.configFrame sizes ∧
      message.1.isValidConfig = true := by
  obtain ⟨_, hok, hframe⟩ := hserves
  cases hok
  exact ⟨hframe, (BenchUser.readsConfig_of_frame message hframe).valid⟩

theorem accepts_of_responseFrame (reply : ValidMessage)
    (hframe : reply.1.frame = responseFrame) :
    reply.1.isValidConfigResp = true ∧ reply.1.status = .success := by
  have htype : reply.1.header.type = .configResp := congrArg Frame.type hframe
  have hsize : reply.1.header.payloadSize = 1 := congrArg Frame.payloadSize hframe
  have hpayload : reply.1.payload = [ConfigRespStatus.success.byte] :=
    congrArg Frame.payload hframe
  have hstatus : reply.1.status = .success := by
    rw [Message.status, hpayload]
    rfl
  refine ⟨?_, hstatus⟩
  rw [Message.isValidConfigResp, reply.2, htype, hsize, hstatus]
  rfl

theorem accepts_of_configReply {task : ConfigTask N} {reply : ValidMessage}
    (hserves : BenchServes sizes (.configReply task (.ok reply))) :
    reply.1.isValidConfigResp = true ∧ reply.1.status = .success := by
  obtain ⟨_, hok, hframe⟩ := hserves
  cases hok
  exact accepts_of_responseFrame reply hframe

theorem BenchInv.no_second (hinv : BenchInv sizes session) {message : ValidMessage}
    (hserves : BenchServes sizes (.userMessage (.ok message) : Action N))
    {config : Held} (hconfig : session.config = some config) :
    message.1.isValidData config.message.1.inputSize = some true :=
  hinv.isValidData_input hconfig (hserves message rfl)

theorem BenchInv.config_transition (hinv : BenchInv sizes session)
    (hserves : BenchServes sizes action)
    (h : Transition variant session action after) :
    ∀ config ∈ after.config, config.message.1.frame = BenchUser.configFrame sizes := by
  cases h with
  | firstConfig =>
      intro config hmem
      cases hmem
      exact (isValidConfig_of_firstMessage hserves).1
  | userConfig _ hconfig hdata =>
      rw [hinv.no_second hserves hconfig] at hdata
      cases hdata
  | userError | userInvalidQueue | stopped =>
      intro config hmem
      cases hmem
  | _ => exact hinv.config

theorem BenchInv.tasks_transition (hinv : BenchInv sizes session)
    (hearly : session.Early) (hserves : BenchServes sizes action)
    (h : Transition variant session action after) :
    ∀ task ∈ after.configTasks,
      task.config.message.1.frame = BenchUser.configFrame sizes ∧
        ∀ ec, task.stage ≠ .finished (some ec) := by
  cases h with
  | firstConfig hphase =>
      intro task hmem
      simp only [configureNodes, hearly.noConfigTasks hphase, List.append_nil,
        List.mem_map] at hmem
      obtain ⟨node, _, rfl⟩ := hmem
      exact ⟨(isValidConfig_of_firstMessage hserves).1, fun ec => by simp⟩
  | configSendError => exact hserves.elim
  | configReplyError =>
      obtain ⟨_, hok, _⟩ := hserves
      cases hok
  | configRefused _ _ hrefused => exact absurd (accepts_of_configReply hserves) hrefused
  | configPiece hperm | configSent hperm | configAcknowledged hperm =>
      exact forall_moved hinv.tasks hperm fun htask => ⟨htask.1, fun ec => by simp⟩
  | configOk hperm | configFailed hperm => exact forall_rest hinv.tasks hperm
  | _ => exact hinv.tasks

theorem BenchInv.loops_transition (hinv : BenchInv sizes session)
    (hserves : BenchServes sizes action)
    (h : Transition variant session action after) :
    ∀ loop ∈ after.loops, Loop.Benched sizes loop := by
  cases h with
  | respSent =>
      intro loop hmem
      rcases List.mem_append.mp hmem with hnew | hold
      · obtain ⟨node, _, rfl⟩ := List.mem_map.mp hnew
        exact True.intro
      · exact hinv.loops loop hold
  | drained hphase => exact absurd hphase hinv.phase.1
  | nodeError =>
      obtain ⟨_, _, hok, _⟩ := hserves
      cases hok
  | nodeUnasked =>
      obtain ⟨_, _, _, hsome, _⟩ := hserves
      cases hsome
  | @nodeAnswer loop rest message held input restAt hperm _ hheld =>
      obtain ⟨_, _, hok, hsome, hresult⟩ := hserves
      cases hok
      cases hsome
      refine forall_moved hinv.loops hperm fun _ => ?_
      rw [hheld]
      exact hresult
  | examineError hperm hstage =>
      obtain ⟨_, _, hok, _⟩ := hinv.received (mem_of_perm hperm) hstage
      cases hok
  | examineInvalid hperm hstage hconfig hdata =>
      rw [hinv.no_invalid (mem_of_perm hperm) hstage hconfig] at hdata
      cases hdata
  | examineValid hperm hstage =>
      obtain ⟨held, input, _, rfl, _⟩ := hinv.received (mem_of_perm hperm) hstage
      exact forall_moved hinv.loops hperm fun _ => True.intro
  | forwardError => exact hserves.elim
  | forwardDone hperm => exact forall_moved hinv.loops hperm fun _ => True.intro
  | loopStopped hperm hstage =>
      have hloop := hinv.loops _ (mem_of_perm hperm)
      rw [Loop.Benched, hstage] at hloop
      exact hloop.elim
  | loopHandler hperm => exact forall_rest hinv.loops hperm
  | _ => exact hinv.loops

theorem BenchInv.phase_transition (hinv : BenchInv sizes session)
    (hserves : BenchServes sizes action)
    (h : Transition variant session action after) :
    after.phase ≠ .draining ∧ after.phase ≠ .stopping := by
  cases h with
  | firstError | firstInvalid | firstConfig | configured | respError | respSent
  | userError | userInvalidQueue | stopped =>
      exact ⟨Phase.noConfusion, Phase.noConfusion⟩
  | userInput hphase =>
      rcases phase_acceptInput hphase rfl with hafter | hafter <;>
        rw [hafter] <;> exact ⟨Phase.noConfusion, Phase.noConfusion⟩
  | userConfig _ hconfig hdata =>
      rw [hinv.no_second hserves hconfig] at hdata
      cases hdata
  | drained hphase => exact absurd hphase hinv.phase.1
  | resumed =>
      dsimp only
      split
      · exact ⟨Phase.noConfusion, Phase.noConfusion⟩
      · exact hinv.phase
  | _ => exact hinv.phase

theorem BenchInv.noFault_transition (hinv : BenchInv sizes session)
    {bound : Nat} (hconfig : ConfigInv bound session)
    (hserves : BenchServes sizes action)
    (h : Transition variant session action after) : after.fault = none := by
  cases h with
  | configOk hperm _ hfault | configFailed hperm _ hfault =>
      simpa [counterLives, hconfig.phase_of_task hperm] using hfault
  | userDivision _ hstored hdata =>
      rw [hinv.no_second hserves hstored] at hdata
      cases hdata
  | resumeEmpty hmem hempty =>
      exact absurd hempty (hinv.woken (List.ne_nil_of_mem hmem))
  | examineDivision hmem hstage hstored hdata =>
      rw [hinv.no_invalid hmem hstage hstored] at hdata
      cases hdata
  | _ => exact hinv.noFault

theorem BenchInv.noneRetired_transition (hinv : BenchInv sizes session)
    (hserves : BenchServes sizes action)
    (h : Transition variant session action after) : after.retired = [] := by
  cases h with
  | configFailed hperm hstage =>
      exact absurd hstage ((hinv.tasks _ (mem_of_perm hperm)).2 _)
  | inputSendError => exact hserves.elim
  | _ => exact hinv.noneRetired

/-- A session that is not in a dispatch of its main loop has nobody waiting. -/
theorem BenchInv.noWaiters (hinv : BenchInv sizes session)
    (hwaits : session.MainWaits) (hphase : session.phase ≠ .dispatching) :
    session.pool.waiters = [] := by
  rw [MainWaits, if_neg hphase, List.countP_eq_zero] at hwaits
  cases hwaiters : session.pool.waiters with
  | nil => rfl
  | cons waiter rest =>
      have hmem : waiter ∈ session.pool.waiters := by
        rw [hwaiters]
        exact List.mem_cons_self
      exact absurd (hinv.onlyMain waiter hmem) (hwaits waiter hmem)

theorem BenchInv.onlyMain_transition (hinv : BenchInv sizes session)
    (hserves : BenchServes sizes action)
    (h : Transition variant session action after) :
    ∀ waiter ∈ after.pool.waiters, waiter.byMain = true := by
  cases h with
  | firstConfig =>
      intro waiter hmem
      simp only [configureNodes, AsyncPool.waiters_popAll,
        AsyncPool.waiters_pushAll] at hmem
      exact hinv.onlyMain waiter hmem
  | configOk | inputSent =>
      simpa only [AsyncPool.waiters_push] using hinv.onlyMain
  | respSent =>
      intro waiter hmem
      simp only [startLoops, AsyncPool.waiters_pushAll,
        AsyncPool.waiters_popAll] at hmem
      exact hinv.onlyMain waiter hmem
  | @userInput message config =>
      rw [acceptInput]
      rcases dispatchInput_cases
        { session with
          dataCounter := session.dataCounter.incr
          nextId := session.nextId + 1
          accepted := session.accepted ++
            [⟨⟨session.nextId, message⟩, config.message⟩] }
        ⟨⟨session.nextId, message⟩, config.message⟩ true with
        ⟨_, _, _, hwaiters, heq⟩ | ⟨_, _, _, hwaiters, heq⟩
      · rw [heq]
        simp only [hwaiters]
        exact hinv.onlyMain
      · rw [heq]
        simp only [hwaiters]
        intro waiter hmem
        rcases List.mem_append.mp hmem with hold | hnew
        · exact hinv.onlyMain waiter hold
        · rw [List.mem_singleton.mp hnew]
  | inputSendError => exact hserves.elim
  | resumed _ _ hperm => exact forall_rest hinv.onlyMain hperm
  | _ => exact hinv.onlyMain

theorem woken_of_noWaiters {pool : AsyncPool N Dispatch} (h : pool.waiters = []) :
    pool.woken = [] :=
  (List.append_eq_nil_iff.mp h).1

theorem woken_asyncPop (pool : AsyncPool N Dispatch) (waiter : Dispatch) :
    (pool.asyncPop waiter).2.woken = pool.woken := by
  unfold AsyncPool.asyncPop
  split <;> rfl

theorem items_push_ne_nil (discipline : Discipline) (pool : AsyncPool N Dispatch)
    (node : N) : (pool.push discipline node).items ≠ [] := by
  rw [AsyncPool.items_push]
  exact not_nil_of_perm (AsyncPool.put_perm discipline node pool.items)

theorem BenchInv.woken_transition (hinv : BenchInv sizes session)
    (hwaits : session.MainWaits) (hearly : session.Early)
    (hserves : BenchServes sizes action)
    (h : Transition variant session action after) :
    after.pool.woken ≠ [] → after.pool.items ≠ [] := by
  cases h with
  | firstConfig hphase =>
      have hnone := hearly.noWaiters (beforeLoops_of_awaiting hphase)
      intro hsome
      refine absurd (woken_of_noWaiters ?_) hsome
      simpa only [configureNodes, AsyncPool.waiters_popAll,
        AsyncPool.waiters_pushAll] using hnone
  | configOk | inputSent => exact fun _ => items_push_ne_nil _ _ _
  | respSent hphase =>
      have hnone := hearly.noWaiters (by simp [BeforeLoops, hphase, Phase.beforeLoops])
      intro hsome
      refine absurd (woken_of_noWaiters ?_) hsome
      simpa only [startLoops, AsyncPool.waiters_pushAll,
        AsyncPool.waiters_popAll] using hnone
  | userInput hphase =>
      have hnone := hinv.noWaiters hwaits (by simp [hphase])
      intro hsome
      refine absurd ?_ hsome
      rw [acceptInput, dispatchInput]
      exact (woken_asyncPop _ _).trans (woken_of_noWaiters hnone)
  | inputSendError => exact hserves.elim
  | @resumed waiter node pool hmem hitems hperm =>
      intro hsome
      refine absurd (woken_of_noWaiters ?_) hsome
      have hall : session.pool.waiters.countP (·.byMain) =
          session.pool.waiters.length := by
        rw [List.countP_eq_length]
        exact hinv.onlyMain
      rw [MainWaits, hall, hperm.length_eq, List.length_cons] at hwaits
      apply List.eq_nil_of_length_eq_zero
      change pool.waiters.length = 0
      split at hwaits <;> omega
  | _ => exact hinv.woken

theorem BenchInv.forwarded_transition (hinv : BenchInv sizes session)
    (h : Transition variant session action after) :
    ∀ entry ∈ after.forwarded,
      entry.2.message.1.frame.HoldsBlock sizes.outputSize := by
  cases h with
  | examineValid hperm hstage =>
      obtain ⟨_, _, hok, _, hresult⟩ := hinv.received (mem_of_perm hperm) hstage
      cases hok
      intro entry hmem
      rcases List.mem_append.mp hmem with hold | hnew
      · exact hinv.forwarded entry hold
      · rw [List.mem_singleton.mp hnew]
        exact hresult.holdsBlock
  | _ => exact hinv.forwarded

/-- A loop that moves from one stage to another with the same key in hand. -/
theorem benchKeys_moved {loop : Loop N} {rest : List (Loop N)}
    (hperm : session.loops ~ loop :: rest) (stage : LoopStage)
    (hsame : Loop.benchKeys { loop with stage := stage } = Loop.benchKeys loop) :
    ({ loop with stage := stage } :: rest).flatMap Loop.benchKeys ~
      session.loops.flatMap Loop.benchKeys := by
  rw [List.flatMap_cons, hsame, ← List.flatMap_cons]
  exact (hperm.flatMap_right Loop.benchKeys).symm

theorem BenchInv.conserved_transition (hinv : BenchInv sizes session)
    (hserves : BenchServes sizes action)
    (h : Transition variant session action after) :
    after.delivered.map (fun entry => entry.2.message.1.frame.benchKey) ~
      after.atNodes.map (fun entry => entry.2.message.1.frame.benchKey) ++
        (after.loops.flatMap Loop.benchKeys ++
          after.forwarded.map fun entry => entry.2.message.1.frame.benchKey) := by
  have hconserved := hinv.conserved
  cases h with
  | respSent =>
      have hnone : ∀ nodes : List N,
          (nodes.map fun node => (⟨node, .waiting⟩ : Loop N)).flatMap
            Loop.benchKeys = [] := by
        intro nodes
        simp [Loop.benchKeys]
      simpa only [startLoops, List.flatMap_append, hnone, List.nil_append] using
        hconserved
  | drained hphase => exact absurd hphase hinv.phase.1
  | inputWhole => exact hconserved.cons _
  | nodeError =>
      obtain ⟨_, _, hok, _⟩ := hserves
      cases hok
  | nodeUnasked =>
      obtain ⟨_, _, _, hsome, _⟩ := hserves
      cases hsome
  | @nodeAnswer loop rest message held input restAt hperm hstage _ hat =>
      rw [List.perm_iff_count] at hconserved ⊢
      intro key
      have hkeys := hconserved key
      have hcount := count_flatMap_of_perm hperm Loop.benchKeys key
      have hmoved :=
        (hat.map fun entry => entry.2.message.1.frame.benchKey).count_eq key
      simp only [Loop.benchKeys, hstage, List.count_nil, Nat.zero_add] at hcount
      simp only [List.map_cons, List.count_cons] at hmoved
      simp only [List.count_append, List.flatMap_cons, Loop.benchKeys,
        Option.toList_some, List.map_cons, List.map_nil, List.count_cons,
        List.count_nil] at hkeys ⊢
      omega
  | examineError hperm hstage =>
      obtain ⟨_, _, hok, _⟩ := hinv.received (mem_of_perm hperm) hstage
      cases hok
  | examineInvalid hperm hstage hconfig hdata =>
      rw [hinv.no_invalid (mem_of_perm hperm) hstage hconfig] at hdata
      cases hdata
  | @examineValid loop rest held answers config hperm hstage =>
      obtain ⟨_, input, hok, rfl, hresult⟩ := hinv.received (mem_of_perm hperm) hstage
      cases hok
      rw [List.perm_iff_count] at hconserved ⊢
      intro key
      have hkeys := hconserved key
      have hcount := count_flatMap_of_perm hperm Loop.benchKeys key
      have hsame := hresult.key_eq
      simp only [Loop.benchKeys, hstage, Option.toList_some, List.map_cons,
        List.map_nil, List.count_cons, List.count_nil] at hcount
      simp only [List.count_append, List.flatMap_cons, Loop.benchKeys,
        List.map_append, List.map_cons, List.map_nil, List.count_cons,
        List.count_nil, hsame] at hkeys ⊢
      omega
  | forwardError => exact hserves.elim
  | forwardDone hperm hstage =>
      have hloops := benchKeys_moved hperm .waiting
        (by simp only [Loop.benchKeys, hstage])
      exact hconserved.trans ((hloops.symm.append_right _).append_left _)
  | loopStopped hperm hstage =>
      have hloop := hinv.loops _ (mem_of_perm hperm)
      rw [Loop.Benched, hstage] at hloop
      exact hloop.elim
  | loopHandler hperm hstage =>
      have hloop := hinv.loops _ (mem_of_perm hperm)
      rw [Loop.Benched, hstage] at hloop
      exact hloop.elim
  | _ => exact hconserved

theorem BenchInv.transition (hinv : BenchInv sizes session) {bound : Nat}
    (hconfig : ConfigInv bound session) (hwaits : session.MainWaits)
    (hserves : BenchServes sizes action)
    (h : Transition variant session action after) : BenchInv sizes after where
  config := hinv.config_transition hserves h
  tasks := hinv.tasks_transition hconfig.early hserves h
  loops := hinv.loops_transition hserves h
  phase := hinv.phase_transition hserves h
  noFault := hinv.noFault_transition hconfig hserves h
  noneRetired := hinv.noneRetired_transition hserves h
  onlyMain := hinv.onlyMain_transition hserves h
  woken := hinv.woken_transition hwaits hconfig.early hserves h
  forwarded := hinv.forwarded_transition h
  conserved := hinv.conserved_transition hserves h

end Session

end FpgaFramework
