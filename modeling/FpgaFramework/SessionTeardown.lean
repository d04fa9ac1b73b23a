/-
The end of a session.  When `start` returns the session is destroyed, so no
coroutine that uses it may be left.  Only a new configuration makes the main loop
stop the receiver loops and wait for them; it returns at once on everything else
that ends it.  Then nothing is left if every input has gone to a node and every
node has been lost; which nodes were lost is noted along the run.
-/
import FpgaFramework.SessionBarrier
import FpgaFramework.SessionInputs

namespace FpgaFramework

open scoped List

namespace Session

variable {N : Type} {variant : Variant} {session after : Session N}
  {action : Action N}

/-- No coroutine that the session spawned on itself is left. -/
structure Idle (session : Session N) : Prop where
  noConfigTasks : session.configTasks = []
  noSendTasks : session.sendTasks = []
  noWaiters : session.pool.waiters = []
  noLoops : session.loops = []

instance [DecidableEq N] (session : Session N) : Decidable session.Idle :=
  decidable_of_iff
    (session.configTasks = [] ∧ session.sendTasks = [] ∧
      session.pool.waiters = [] ∧ session.loops = [])
    ⟨fun ⟨htasks, hsends, hwaiters, hloops⟩ => ⟨htasks, hsends, hwaiters, hloops⟩,
      fun h => ⟨h.noConfigTasks, h.noSendTasks, h.noWaiters, h.noLoops⟩⟩

/-- `_main_loop` returns at once on what it received. -/
def quits (variant : Variant) (session : Session N) :
    Except ErrorCode ValidMessage → Bool
  | .error _ => true
  | .ok message =>
      match session.config with
      | none => false
      | some config =>
          variant == .queue &&
            message.1.isValidData config.message.1.inputSize == some false &&
              !message.1.isValidConfig

/-- The loop that has forwarded its result with this step. -/
def Action.forwards : Action N → Option (Loop N)
  | .forwardDone loop => some loop
  | _ => none

/-- The input that is answered with this step, and the node that answers it. -/
def Action.answer : Action N → Option (N × Input)
  | .nodeMessage loop _ answers => answers.map (loop.node, ·)
  | _ => none

/-- A receiver loop ends on what its node sends: the connection has failed, or the
message is no result under the configuration. -/
def refused (config : Option Held) : Except ErrorCode ValidMessage → Bool
  | .error _ => true
  | .ok message =>
      match config with
      | none => false
      | some config =>
          message.1.isValidData config.message.1.outputSize == some false

/-- The node that the session loses with this step: its connection fails, it sends
what is no result, or its result cannot be sent to the user. -/
def loses (session : Session N) : Action N → List N
  | .nodeMessage loop result _ =>
      if refused session.config result then [loop.node] else []
  | .forwardError loop _ => [loop.node]
  | _ => []

def noteLost (before : Session N) (action : Action N) (_after : Session N) :
    List N :=
  before.loses action

/-- The node of a receiver loop that will read from it again. -/
def Loop.reading (config : Option Held) (loop : Loop N) : List N :=
  match loop.stage with
  | .finished => []
  | .received (.error _) _ => []
  | .received (.ok held) _ =>
      if refused config (.ok held.message) then [] else [loop.node]
  | _ => [loop.node]

/-- The nodes that are still read from. -/
def reading (session : Session N) : List N :=
  session.loops.flatMap (Loop.reading session.config)

/-- Every accepted input was written to a node, every node that acknowledged the
configuration was lost, and the send tasks and receiver loops for which this is so
have run to their end. -/
structure Deserted (session : Session N) (lost : List N) : Prop where
  inputsWritten : ∀ input ∈ session.accepted,
    input ∈ session.delivered.map Prod.snd
  nodesLost : session.acknowledged.map Prod.fst <+~ lost
  sendsEnded : ∀ task ∈ session.sendTasks, SendTask.unwritten task ≠ []
  loopsEnded : ∀ loop ∈ session.loops, Loop.reading session.config loop ≠ []

instance [DecidableEq N] (session : Session N) (lost : List N) :
    Decidable (session.Deserted lost) :=
  decidable_of_iff
    ((∀ input ∈ session.accepted, input ∈ session.delivered.map Prod.snd) ∧
      session.acknowledged.map Prod.fst <+~ lost ∧
      (∀ task ∈ session.sendTasks, SendTask.unwritten task ≠ []) ∧
      ∀ loop ∈ session.loops, Loop.reading session.config loop ≠ [])
    ⟨fun h => ⟨h.1, h.2.1, h.2.2.1, h.2.2.2⟩,
      fun h => ⟨h.inputsWritten, h.nodesLost, h.sendsEnded, h.loopsEnded⟩⟩

/-- The main loop returns at once only when the session is deserted, the data
counter does not wrap, a result that answers no input leaves every outstanding
input counted, and an input is answered only after its send task has ended. -/
structure Orderly (variant : Variant) (session : Session N) (lost : List N)
    (action : Action N) : Prop where
  quitsDeserted : ∀ result ∈ action.fromUser,
    session.quits variant result = true → session.Deserted lost
  noWrap : ∀ result ∈ action.fromUser,
    session.accepts result = true → session.dataCounter.getValue + 1 < 2 ^ 32
  forwardsAnswer : ∀ loop ∈ action.forwards, Loop.answering loop ≠ [] ∨
    session.outstanding ≤ session.dataCounter.getValue - 1
  answersSent : ∀ entry ∈ action.answer, ∀ task ∈ session.sendTasks,
    (task.node, task.input) ≠ entry

instance [DecidableEq N] (variant : Variant) (session : Session N)
    (lost : List N) (action : Action N) :
    Decidable (session.Orderly variant lost action) :=
  decidable_of_iff
    ((∀ result ∈ action.fromUser,
        session.quits variant result = true → session.Deserted lost) ∧
      (∀ result ∈ action.fromUser, session.accepts result = true →
        session.dataCounter.getValue + 1 < 2 ^ 32) ∧
      (∀ loop ∈ action.forwards, Loop.answering loop ≠ [] ∨
        session.outstanding ≤ session.dataCounter.getValue - 1) ∧
      ∀ entry ∈ action.answer, ∀ task ∈ session.sendTasks,
        (task.node, task.input) ≠ entry)
    ⟨fun h => ⟨h.1, h.2.1, h.2.2.1, h.2.2.2⟩,
      fun h => ⟨h.quitsDeserted, h.noWrap, h.forwardsAnswer, h.answersSent⟩⟩

/-- A send task either has something to write, or its node holds the input. -/
def Written (session : Session N) : Prop :=
  ∀ task ∈ session.sendTasks, SendTask.unwritten task = [] →
    (task.node, task.input) ∈ session.atNodes

theorem Transition.mem_sendTasks (h : Transition variant session action after)
    {task : SendTask N} (hmem : task ∈ after.sendTasks)
    (hwritten : SendTask.unwritten task = []) :
    task ∈ session.sendTasks ∨ (task.node, task.input) ∈ after.atNodes := by
  have hnew : ∀ {input : Input} {byMain : Bool} {before : Session N},
      task ∈ (before.dispatchInput input byMain).sendTasks →
        task ∈ before.sendTasks := by
    intro input byMain before hmem
    refine (List.mem_append.mp hmem).resolve_left fun hpopped => ?_
    obtain ⟨node, _, rfl⟩ := List.mem_map.mp hpopped
    rw [unwritten_new] at hwritten
    cases hwritten
  cases h with
  | userInput => exact Or.inl (hnew hmem)
  | inputPiece hperm _ hpart =>
      rcases List.mem_cons.mp hmem with rfl | hrest
      · rw [unwritten_of_lt hpart] at hwritten
        cases hwritten
      · exact Or.inl (hperm.mem_iff.mpr (List.mem_cons_of_mem _ hrest))
  | inputWhole hperm =>
      rcases List.mem_cons.mp hmem with rfl | hrest
      · exact Or.inr List.mem_cons_self
      · exact Or.inl (hperm.mem_iff.mpr (List.mem_cons_of_mem _ hrest))
  | inputSendError hperm =>
      exact Or.inl (hperm.mem_iff.mpr (List.mem_cons_of_mem _ (hnew hmem)))
  | inputSent hperm =>
      exact Or.inl (hperm.mem_iff.mpr (List.mem_cons_of_mem _ hmem))
  | resumed =>
      rcases List.mem_cons.mp hmem with rfl | hold
      · rw [unwritten_new] at hwritten
        cases hwritten
      · exact Or.inl hold
  | _ => exact Or.inl hmem

theorem Transition.atNodes_kept (h : Transition variant session action after)
    {entry : N × Input} (hmem : entry ∈ session.atNodes) :
    entry ∈ after.atNodes ∨
      ∃ loop result, action = .nodeMessage loop result (some entry.2) ∧
        loop.node = entry.1 := by
  cases h with
  | inputWhole => exact Or.inl (List.mem_cons_of_mem _ hmem)
  | nodeAnswer _ _ _ hat =>
      rcases List.mem_cons.mp (hat.mem_iff.mp hmem) with rfl | hrest
      · exact Or.inr ⟨_, _, rfl, rfl⟩
      · exact Or.inl hrest
  | _ => exact Or.inl hmem

theorem Written.transition {lost : List N} (hinv : session.Written)
    (hguard : session.Orderly variant lost action)
    (h : Transition variant session action after) : after.Written := by
  intro task hmem hwritten
  rcases h.mem_sendTasks hmem hwritten with hold | hnew
  · rcases h.atNodes_kept (hinv task hold hwritten) with
      hkept | ⟨loop, result, rfl, hnode⟩
    · exact hkept
    · exact absurd (by rw [hnode]) (hguard.answersSent _ rfl task hold)
  · exact hnew

/-- The data counter counts every outstanding input. -/
theorem outstanding_le_transition {lost : List N}
    (hguard : session.Orderly variant lost action)
    (hbound : session.outstanding ≤ session.dataCounter.getValue)
    (h : Transition variant session action after) :
    after.outstanding ≤ after.dataCounter.getValue := by
  cases h.accounting with
  | same hsame hdata =>
      rw [hsame, hdata]
      exact hbound
  | accepted _ haccepts hmore hdata =>
      have hroom := hguard.noWrap _ rfl haccepts
      rw [hmore, hdata, Counter.getValue_incr, Nat.mod_eq_of_lt hroom]
      exact Nat.succ_le_succ hbound
  | @completed loop _ _ answers hstage hless hdata =>
      rw [hdata, Counter.getValue_decr]
      rcases hguard.forwardsAnswer loop rfl with hanswers | hcounted
      · simp only [Loop.answering, hstage, ne_eq,
          ← List.length_eq_zero_iff] at hanswers
        omega
      · omega
  | ended loop _ hless hdata =>
      rw [hdata]
      omega

theorem idle_of_stopped {bound : Nat} (hconfig : ConfigInv bound session)
    (hphase : session.phase = .stopping)
    (hloops : session.nodeReceiverCounter.getValue = session.loops.length)
    (hzero : session.nodeReceiverCounter.val = 0)
    (hwritten : session.Written)
    (hnone : session.outstanding = 0) : session.Idle := by
  simp only [outstanding, pending, List.length_append, List.length_map] at hnone
  have hat : session.atNodes = [] := List.eq_nil_of_length_eq_zero (by omega)
  have hunwritten : session.sendTasks.flatMap SendTask.unwritten = [] :=
    List.eq_nil_of_length_eq_zero (by omega)
  refine ⟨?_, ?_, List.eq_nil_of_length_eq_zero (by omega), ?_⟩
  · exact hconfig.configuring.resolve_left (by simp [hphase])
  · rw [List.eq_nil_iff_forall_not_mem]
    intro task hmem
    have hentry := hwritten task hmem
      (List.flatMap_eq_nil_iff.mp hunwritten task hmem)
    rw [hat] at hentry
    cases hentry
  · rw [(Counter.val_eq_zero_iff _).mp hzero] at hloops
    exact List.eq_nil_of_length_eq_zero hloops.symm

/-- `_main_loop` has received no second configuration. -/
def takesInputs (session : Session N) : Bool :=
  match session.phase with
  | .receiving | .dispatching => true
  | _ => false

theorem Transition.takesInputs_before (hwaits : session.MainWaits)
    (h : Transition variant session action after)
    (htakes : after.takesInputs = true) :
    session.takesInputs = true ∨ action = .respSent := by
  cases h with
  | firstError | firstInvalid | firstConfig | configured | respError | userError
  | userConfig | userInvalidQueue | drained | stopped => cases htakes
  | respSent => exact Or.inr rfl
  | userInput hphase => exact Or.inl (by simp [hphase, takesInputs])
  | @resumed waiter _ _ _ _ hwaiters =>
      refine Or.inl ?_
      by_cases hmain : waiter.byMain = true
      · simp [hwaits.dispatching hwaiters hmain, takesInputs]
      · simpa [hmain, takesInputs] using htakes
  | _ => exact Or.inl htakes

theorem reading_waiting (config : Option Held) (ready : List N) :
    (ready.map fun node => (⟨node, .waiting⟩ : Loop N)).flatMap
      (Loop.reading config) = ready := by
  simp [Loop.reading, List.flatMap_map]

section

variable [DecidableEq N]

/-- A node is acknowledged with the outcome that says so. -/
theorem Transition.count_acknowledged
    (h : Transition variant session action after) (node : N) :
    (after.acknowledged.map Prod.fst).count node =
      (session.acknowledged.map Prod.fst).count node +
        action.outcome.count (node, true) := by
  cases h with
  | configSendError | configReplyError => simp [Action.outcome, accepting]
  | configRefused _ _ hreply => simp [Action.outcome, accepting, hreply]
  | configAcknowledged _ _ hreply =>
      simp [Action.outcome, accepting, hreply, List.count_cons]
  | _ => rfl

omit [DecidableEq N] in
theorem Transition.acknowledged_of_noTasks
    (h : Transition variant session action after)
    (hnone : session.configTasks = []) :
    after.acknowledged = session.acknowledged := by
  cases h with
  | configAcknowledged hperm => exact absurd hnone (not_nil_of_perm hperm)
  | _ => rfl

/-- Until a second configuration comes, a node is read from until it is lost. -/
theorem Transition.count_reading (h : Transition variant session action after)
    (htakes : session.takesInputs = true)
    (htakesAfter : after.takesInputs = true)
    (hnotified : ∀ loop ∈ session.loops, loop.stage ≠ .notified) (node : N) :
    after.reading.count node + (session.loses action).count node =
      session.reading.count node := by
  have hsplit : ∀ {loop : Loop N} {rest : List (Loop N)},
      session.loops ~ loop :: rest →
        session.reading.count node =
          (Loop.reading session.config loop).count node +
            (rest.flatMap (Loop.reading session.config)).count node :=
    fun hperm => count_flatMap_of_perm hperm _ node
  cases h with
  | respSent hphase =>
      simp [hphase, takesInputs] at htakes
  | firstError | firstInvalid | firstConfig | configured | respError | userError
  | userConfig | userInvalidQueue | drained | stopped => cases htakesAfter
  | nodeError hperm hstage =>
      rw [hsplit hperm]
      simp only [reading, loses, refused, List.flatMap_cons, Loop.reading, hstage,
        if_true, List.nil_append]
      exact Nat.add_comm _ _
  | nodeUnasked hperm hstage hheld | nodeAnswer hperm hstage hheld =>
      rw [hsplit hperm]
      simp only [reading, loses, List.flatMap_cons, Loop.reading, hstage, hheld,
        List.count_append]
      split
      · simp only [List.count_nil]
        omega
      · simp only [List.count_nil]
        omega
  | examineError hperm hstage =>
      rw [hsplit hperm]
      simp only [reading, loses, List.flatMap_cons, Loop.reading, hstage,
        List.nil_append, List.count_nil, Nat.add_zero, Nat.zero_add]
  | examineInvalid hperm hstage hconfig hdata =>
      rw [hsplit hperm]
      simp [reading, loses, Loop.reading, hstage, refused, hconfig, hdata]
  | examineValid hperm hstage hconfig hdata =>
      rw [hsplit hperm]
      simp [reading, loses, Loop.reading, hstage, refused, hconfig, hdata,
        List.count_cons, Nat.add_comm]
  | forwardError hperm hstage =>
      rw [hsplit hperm]
      simp only [reading, loses, List.flatMap_cons, Loop.reading, hstage,
        List.nil_append]
      exact Nat.add_comm _ _
  | forwardDone hperm hstage =>
      rw [hsplit hperm]
      simp only [reading, loses, List.flatMap_cons, Loop.reading, hstage,
        List.count_append, List.count_nil, Nat.add_zero]
  | loopStopped hperm hstage =>
      exact absurd hstage (hnotified _ (mem_of_perm hperm))
  | loopHandler hperm hstage =>
      rw [hsplit hperm]
      simp only [reading, loses, Loop.reading, hstage, List.count_nil,
        Nat.add_zero, Nat.zero_add]
  | _ => rfl

/-- The nodes that acknowledged the configuration, in the notes of the lost
nodes. -/
structure ReaderAccount (session : Session N) (lost : List N) : Prop where
  before : session.BeforeLoops → lost = [] ∧
    ∀ node, (session.acknowledged.map Prod.fst).count node =
      session.settled.count (node, true) + session.unsettled.count (node, true)
  mainLoop : session.takesInputs = true →
    ∀ node, (session.acknowledged.map Prod.fst).count node =
      session.reading.count node + lost.count node

theorem ReaderAccount.initial {nodes : List N} {config data receiver : Counter} :
    ReaderAccount (initial nodes config data receiver) [] :=
  ⟨fun _ => ⟨rfl, fun _ => rfl⟩, nofun⟩

theorem count_settled (session : Session N) (node : N) :
    session.settled.count (node, true) = session.pool.items.count node := by
  have hready : ((session.pool.items.map (·, true)) : List (N × Bool)).count
      (node, true) = session.pool.items.count node :=
    List.count_map_of_injective _ _ (fun _ _ h => (Prod.mk.injEq _ _ _ _ ▸ h).1) _
  have hretired : ((session.retired.map (·, false)) : List (N × Bool)).count
      (node, true) = 0 := by
    simp [List.count_eq_zero]
  rw [settled, List.count_append, hready, hretired, Nat.add_zero]

omit [DecidableEq N] in
/-- No node is lost before there is a loop that reads from it. -/
theorem Transition.loses_before (hearly : session.Early)
    (h : Transition variant session action after)
    (hbefore : session.BeforeLoops) : session.loses action = [] := by
  cases h with
  | nodeError hperm | nodeUnasked hperm | nodeAnswer hperm | forwardError hperm =>
      exact absurd hbefore (hearly.not_before_of_loops hperm)
  | _ => rfl

theorem ReaderAccount.transition {lost : List N} {bound : Nat}
    (hinv : session.ReaderAccount lost) (hconfig : ConfigInv bound session)
    (hstop : session.StopInv) (h : Transition variant session action after) :
    after.ReaderAccount (lost ++ session.loses action) where
  before hbefore := by
    have hstart := h.to_before hbefore
    obtain ⟨hlost, hcount⟩ := hinv.before hstart
    refine ⟨?_, fun node => ?_⟩
    · rw [hlost, h.loses_before hconfig.early hstart, List.nil_append]
    · have hmove := h.count_outcomes hconfig.early hbefore (node, true)
      rw [h.count_acknowledged, hcount, hmove]
  mainLoop htakes node := by
    rw [List.count_append]
    rcases h.takesInputs_before hstop.mainWaits htakes with hbefore | rfl
    · have hnotified : ∀ loop ∈ session.loops, loop.stage ≠ .notified := by
        intro loop hmem hstage
        rcases hstop.notified loop hmem hstage with hphase | hphase <;>
          simp [hphase, takesInputs] at hbefore
      have hreading := h.count_reading hbefore htakes hnotified node
      have hcount := hinv.mainLoop hbefore node
      have hsame : after.acknowledged = session.acknowledged := by
        refine h.acknowledged_of_noTasks (hconfig.configuring.resolve_left ?_)
        intro hphase
        simp [hphase, takesInputs] at hbefore
      rw [hsame]
      omega
    · cases h with
      | respSent hphase =>
          have hstart : session.BeforeLoops := by
            simp [BeforeLoops, hphase, Phase.beforeLoops]
          obtain ⟨hlost, hcount⟩ := hinv.before hstart
          have htasks := hconfig.configuring.resolve_left (by simp [hphase])
          have hready := hcount node
          simp only [count_settled, unsettled, htasks, List.flatMap_nil,
            List.count_nil, Nat.add_zero] at hready
          simp only [reading, startLoops, hlost, hconfig.early.noLoops hstart,
            List.append_nil, reading_waiting, loses, List.count_nil, Nat.add_zero]
          exact hready

end

/-- What holds of every state of an orderly run. -/
structure TeardownInv [DecidableEq N] (bound : Nat) (session : Session N)
    (lost : List N) : Prop where
  config : ConfigInv bound session
  message : session.MessageInv
  account : session.ReaderAccount lost
  loops : session.nodeReceiverCounter.getValue = session.loops.length
  stop : session.StopInv
  counted : session.outstanding ≤ session.dataCounter.getValue
  written : session.Written
  returned : session.phase = .returned → session.Idle

/-- `start` returns in a step that leaves the coroutines as they are. -/
theorem Idle.of_eq (hidle : session.Idle)
    (htasks : after.configTasks = session.configTasks)
    (hsends : after.sendTasks = session.sendTasks)
    (hwaiters : after.pool.waiters = session.pool.waiters)
    (hloops : after.loops = session.loops) : after.Idle where
  noConfigTasks := htasks.trans hidle.noConfigTasks
  noSendTasks := hsends.trans hidle.noSendTasks
  noWaiters := hwaiters.trans hidle.noWaiters
  noLoops := hloops.trans hidle.noLoops

section

variable [DecidableEq N] {bound : Nat} {lost : List N}

theorem TeardownInv.idle_before (hinv : TeardownInv bound session lost)
    (hbefore : session.BeforeLoops) (hphase : session.phase ≠ .configuring) :
    session.Idle where
  noConfigTasks := hinv.config.configuring.resolve_left hphase
  noSendTasks := hinv.config.early.noSendTasks hbefore
  noWaiters := hinv.config.early.noWaiters hbefore
  noLoops := hinv.config.early.noLoops hbefore

omit [DecidableEq N] in
/-- No input is on its way to a node once all have been written to one. -/
theorem MessageInv.pending_eq_nil (hinv : session.MessageInv)
    (hwritten : ∀ input ∈ session.accepted,
      input ∈ session.delivered.map Prod.snd) : session.pending = [] := by
  rw [List.eq_nil_iff_forall_not_mem]
  intro input hmem
  have hpending := List.count_pos_iff.mpr hmem
  have haccepted : input ∈ session.accepted := by
    have hinputs := hinv.inputs input
    exact List.count_pos_iff.mp (by omega)
  have hdelivered := List.count_pos_iff.mpr (hwritten input haccepted)
  have hone := hinv.count_accepted haccepted
  omega

/-- In the main loop a deserted session has nothing left, and no other one. -/
theorem TeardownInv.deserted_iff_idle (hinv : TeardownInv bound session lost)
    (hphase : session.phase = .receiving) :
    session.Deserted lost ↔ session.Idle := by
  have hcount := hinv.account.mainLoop (by simp [takesInputs, hphase])
  constructor
  · intro hdeserted
    have hpending := hinv.message.pending_eq_nil hdeserted.inputsWritten
    obtain ⟨hwaiters, hunwritten⟩ := List.append_eq_nil_iff.mp hpending
    have hreading : session.reading = [] := by
      rw [List.eq_nil_iff_forall_not_mem]
      intro node hmem
      have hread := List.count_pos_iff.mpr hmem
      have hlost := List.subperm_iff_count.mp hdeserted.nodesLost node
      rw [hcount node] at hlost
      omega
    refine ⟨?_, ?_, List.map_eq_nil_iff.mp hwaiters, ?_⟩
    · exact hinv.config.configuring.resolve_left (by simp [hphase])
    · rw [List.eq_nil_iff_forall_not_mem]
      intro task hmem
      exact hdeserted.sendsEnded task hmem
        (List.flatMap_eq_nil_iff.mp hunwritten task hmem)
    · rw [List.eq_nil_iff_forall_not_mem]
      intro loop hmem
      exact hdeserted.loopsEnded loop hmem
        (List.flatMap_eq_nil_iff.mp hreading loop hmem)
  · intro hidle
    have hpending : session.pending = [] := by
      simp only [pending, hidle.noWaiters, hidle.noSendTasks, List.map_nil,
        List.flatMap_nil, List.append_nil]
    have hreading : session.reading = [] := by
      simp only [reading, hidle.noLoops, List.flatMap_nil]
    refine ⟨?_, ?_, ?_, ?_⟩
    · intro input hmem
      have hone := hinv.message.count_accepted hmem
      rw [hpending, List.count_nil, Nat.zero_add] at hone
      exact List.count_pos_iff.mp (by omega)
    · rw [List.subperm_iff_count]
      intro node
      rw [hcount node, hreading, List.count_nil, Nat.zero_add]
    · rw [hidle.noSendTasks]
      intro task hmem
      cases hmem
    · rw [hidle.noLoops]
      intro loop hmem
      cases hmem

theorem TeardownInv.returned_transition (hinv : TeardownInv bound session lost)
    (hrunning : session.Running) (hguard : session.Orderly variant lost action)
    (h : Transition variant session action after)
    (hreturned : after.phase = .returned) : after.Idle := by
  cases h with
  | firstError hphase | firstInvalid hphase =>
      have hidle := hinv.idle_before (beforeLoops_of_awaiting hphase)
        (by simp [hphase])
      exact hidle.of_eq rfl rfl rfl rfl
  | respError hphase =>
      have hidle := hinv.idle_before
        (by simp [BeforeLoops, hphase, Phase.beforeLoops]) (by simp [hphase])
      exact hidle.of_eq rfl rfl rfl rfl
  | userError hphase =>
      have hidle := (hinv.deserted_iff_idle hphase).mp
        (hguard.quitsDeserted _ rfl rfl)
      exact hidle.of_eq rfl rfl rfl rfl
  | @userInvalidQueue message _ hvariant hphase hconfig hdata hinvalid =>
      have hquits : session.quits variant (.ok message) = true := by
        simp only [quits, hconfig, hvariant, hdata, hinvalid]
        rfl
      have hidle := (hinv.deserted_iff_idle hphase).mp
        (hguard.quitsDeserted _ rfl hquits)
      exact hidle.of_eq rfl rfl rfl rfl
  | stopped hphase hzero =>
      have hnone : session.outstanding = 0 := by
        have hcounted := hinv.counted
        rw [hinv.stop.stopping hphase] at hcounted
        exact Nat.le_zero.mp hcounted
      have hidle := idle_of_stopped hinv.config hphase hinv.loops hzero
        hinv.written hnone
      exact hidle.of_eq rfl rfl rfl rfl
  | firstConfig | configured | respSent | userConfig | drained => cases hreturned
  | userInput hphase =>
      rcases phase_acceptInput hphase hreturned with hafter | hafter <;>
        cases hafter
  | resumed => exact absurd (phase_of_resumed hreturned (by simp)) hrunning.2
  | _ => exact absurd hreturned hrunning.2

theorem TeardownInv.transition (hbound : bound < 2 ^ 32)
    (hinv : TeardownInv bound session lost) (hrunning : session.Running)
    (hguard : session.Orderly variant lost action)
    (h : Transition variant session action after) :
    TeardownInv bound after (lost ++ session.loses action) where
  config := hinv.config.transition hbound h
  message := hinv.message.transition h
  account := hinv.account.transition hinv.config hinv.stop h
  loops := hinv.config.loops_transition hbound hinv.loops h
  stop := hinv.stop.transition hrunning h
  counted := outstanding_le_transition hguard hinv.counted h
  written := hinv.written.transition hguard h
  returned := hinv.returned_transition hrunning hguard h

/-- In an orderly run of a session whose configuration and receiver counters
start at zero, nothing is left when `start` returns. -/
theorem idle_of_returned (variant : Variant) (nodes : List N)
    (hbound : nodes.length < 2 ^ 32) (config data receiver : Counter)
    (hconfig : config.getValue = 0) (hreceiver : receiver.getValue = 0)
    {session : Session N} {lost : List N}
    (h : Machine.Reaches (Machine.recording (step variant) noteLost)
      (fun entry => Orderly variant entry.1 entry.2)
      (initial nodes config data receiver, []) (session, lost))
    (hreturned : session.phase = .returned) : session.Idle := by
  have hinv : ∀ entry : Session N × List N,
      Machine.Reaches (Machine.recording (step variant) noteLost)
        (fun entry => Orderly variant entry.1 entry.2)
        (initial nodes config data receiver, []) entry →
          TeardownInv nodes.length entry.1 entry.2 := by
    intro entry hreach
    induction hreach with
    | refl =>
        exact ⟨ConfigInv.initial hconfig, MessageInv.initial,
          ReaderAccount.initial, hreceiver, StopInv.initial, Nat.zero_le _, nofun,
          nofun⟩
    | tail _ hguard hstep ih =>
        obtain ⟨hmove, hnotes⟩ := Machine.recording_eq_some.mp hstep
        obtain ⟨hrunning, htransition⟩ := transition_of_step hmove
        rw [hnotes]
        exact ih.transition hbound hrunning hguard htransition
  exact (hinv (session, lost) h).returned hreturned

/-- The last steps after a new configuration: both loops are stopped. -/
def stopLoops : List (Action Nat) :=
  [.drained, .loopStopped ⟨0, .notified⟩, .loopStopped ⟨1, .notified⟩,
    .loopHandler ⟨0, .finished⟩, .loopHandler ⟨1, .finished⟩, .stopped]

/-- An input is answered before the new configuration comes. -/
def reconfigured : List (Action Nat) :=
  configuration (.config 1 1) [0, 1] ++
    [.userMessage (.ok (.data 5)), .inputPiece ⟨0, firstInput, 0⟩ 13,
      .inputSent ⟨0, firstInput, 13⟩,
      .nodeMessage ⟨0, .waiting⟩ (.ok (.data 7)) (some firstInput),
      .examine ⟨0, .received (.ok ⟨5, .data 7⟩) (some firstInput)⟩,
      .forwardPiece ⟨0, .forwarding ⟨5, .data 7⟩ 1 (some firstInput)⟩ 13,
      .forwardDone ⟨0, .forwarding ⟨5, .data 7⟩ 1 (some firstInput)⟩,
      .userMessage (.ok (.config 1 2))] ++ stopLoops

/-- The node disconnects after its answer, and then the user does. -/
def deserted : List (Action Nat) :=
  let input : Input := ⟨⟨3, .data 5⟩, .config 1 1⟩
  configuration (.config 1 1) [0] ++
    [.userMessage (.ok (.data 5)), .inputPiece ⟨0, input, 0⟩ 13,
      .inputSent ⟨0, input, 13⟩,
      .nodeMessage ⟨0, .waiting⟩ (.ok (.data 7)) (some input),
      .examine ⟨0, .received (.ok ⟨4, .data 7⟩) (some input)⟩,
      .forwardPiece ⟨0, .forwarding ⟨4, .data 7⟩ 1 (some input)⟩ 13,
      .forwardDone ⟨0, .forwarding ⟨4, .data 7⟩ 1 (some input)⟩,
      .nodeMessage ⟨0, .waiting⟩ (.error .eof) none,
      .examine ⟨0, .received (.error .eof) none⟩, .loopHandler ⟨0, .finished⟩,
      .userMessage (.error .eof)]

theorem idle_of_returned_reconfigured :
    (∃ session : Session Nat,
      Machine.run (Machine.recording (step .queue) noteLost)
        (fun entry => Orderly .queue entry.1 entry.2)
        (initial [0, 1] ⟨0⟩ ⟨0⟩ ⟨0⟩, []) reconfigured = some (session, []) ∧
      session.phase = .returned ∧ session.Idle) ∧
    ∃ session : Session Nat,
      Machine.run (Machine.recording (step .queue) noteLost)
        (fun entry => Orderly .queue entry.1 entry.2)
        (initial [0] ⟨0⟩ ⟨0⟩ ⟨0⟩, []) deserted = some (session, [0]) ∧
      session.phase = .returned ∧ session.Idle :=
  ⟨⟨_, rfl, rfl,
    idle_of_returned .queue [0, 1] (by decide) ⟨0⟩ ⟨0⟩ ⟨0⟩ rfl rfl
      (Machine.reaches_of_run reconfigured rfl) rfl⟩, ⟨_, rfl, rfl,
    idle_of_returned .queue [0] (by decide) ⟨0⟩ ⟨0⟩ ⟨0⟩ rfl rfl
      (Machine.reaches_of_run deserted rfl) rfl⟩⟩

/-- The user disconnects while the receiver loop waits for the node.  And where a
node sends a result that nobody asked for, the wait for the inputs ends while one
is still being sent. -/
theorem returned_not_idle :
    (∃ session : Session Nat,
      Machine.Reachable (step .queue) (initial [0] ⟨0⟩ ⟨0⟩ ⟨0⟩) session ∧
        session.phase = .returned ∧ ¬session.Idle) ∧
    ∃ session : Session Nat,
      Machine.Reachable (step .queue) (initial [0, 1] ⟨0⟩ ⟨0⟩ ⟨0⟩) session ∧
        session.phase = .returned ∧ ¬session.Idle := by
  refine ⟨⟨_, Machine.reaches_of_run
    (configuration (.config 1 1) [0] ++ [.userMessage (.error .eof)]) rfl, rfl,
    fun hidle => ?_⟩, ⟨_, Machine.reaches_of_run
    (configuration (.config 1 1) [0, 1] ++
      [.userMessage (.ok (.data 5)), .inputPiece ⟨0, firstInput, 0⟩ 1,
        .nodeMessage ⟨1, .waiting⟩ (.ok (.data 6)) none,
        .examine ⟨1, .received (.ok ⟨5, .data 6⟩) none⟩,
        .forwardPiece ⟨1, .forwarding ⟨5, .data 6⟩ 1 none⟩ 13,
        .forwardDone ⟨1, .forwarding ⟨5, .data 6⟩ 1 none⟩,
        .userMessage (.ok (.config 1 2))] ++ stopLoops) rfl, rfl,
    fun hidle => ?_⟩⟩
  · exact List.cons_ne_nil _ _ hidle.noLoops
  · exact List.cons_ne_nil _ _ hidle.noSendTasks

end

end Session

end FpgaFramework
