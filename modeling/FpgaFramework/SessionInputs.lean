/-
The account of the accepted inputs.  An input is outstanding while it is pending,
held by a node, or answered by a result that a receiver loop has in hand; the
data counter is meant to say how many there are.
-/
import FpgaFramework.SessionLoops

namespace FpgaFramework

open scoped List

namespace Session

variable {N : Type} {variant : Variant} {session after : Session N}
  {action : Action N}

/-- The input that the result in a loop's hands answers. -/
def Loop.answering (loop : Loop N) : List Input :=
  match loop.stage with
  | .received _ answers => answers.toList
  | .forwarding _ _ answers => answers.toList
  | _ => []

/-- The inputs whose result a receiver loop has in hand. -/
def answered (session : Session N) : List Input :=
  session.loops.flatMap Loop.answering

def outstanding (session : Session N) : Nat :=
  session.pending.length + session.atNodes.length + session.answered.length

@[simp] theorem answering_notify (loop : Loop N) :
    Loop.answering (notify loop) = Loop.answering loop := by
  unfold notify
  split
  · next hstage => simp [Loop.answering, hstage]
  · rfl

theorem answering_map_notify (loops : List (Loop N)) :
    (loops.map notify).flatMap Loop.answering = loops.flatMap Loop.answering := by
  simp only [List.flatMap_map, answering_notify]

/-- A loop that has just been started answers nothing. -/
theorem answering_waiting (ready : List N) :
    (ready.map fun node => (⟨node, .waiting⟩ : Loop N)).flatMap Loop.answering =
      [] := by
  simp [Loop.answering]

/-- What `_main_loop` receives with this step. -/
def Action.fromUser : Action N → Option (Except ErrorCode ValidMessage)
  | .userMessage result => some result
  | _ => none

/-- `_main_loop` accepts what it received as an input. -/
def accepts (session : Session N) : Except ErrorCode ValidMessage → Bool
  | .error _ => false
  | .ok message =>
      match session.config with
      | none => false
      | some config =>
          message.1.isValidData config.message.1.inputSize == some true

/-- How one step changes the number of outstanding inputs and the data
counter. -/
inductive Accounting (session after : Session N) : Action N → Prop
  | same {action : Action N}
      (hsame : after.outstanding = session.outstanding)
      (hdata : after.dataCounter = session.dataCounter) :
      Accounting session after action
  | accepted {message : ValidMessage} (hphase : session.phase = .receiving)
      (haccepts : session.accepts (.ok message) = true)
      (hmore : after.outstanding = session.outstanding + 1)
      (hdata : after.dataCounter = session.dataCounter.incr) :
      Accounting session after (.userMessage (.ok message))
  | completed {loop : Loop N} {held : Held} {ticket : Nat}
      {answers : Option Input}
      (hstage : loop.stage = .forwarding held ticket answers)
      (hless : after.outstanding + answers.toList.length = session.outstanding)
      (hdata : after.dataCounter = session.dataCounter.decr) :
      Accounting session after (.forwardDone loop)
  | ended {action : Action N} (loop : Loop N)
      (hended : loop ∈ session.ended action)
      (hless : after.outstanding + (Loop.answering loop).length =
        session.outstanding)
      (hdata : after.dataCounter = session.dataCounter) :
      Accounting session after action

theorem length_answered {loop : Loop N} {rest : List (Loop N)}
    (hperm : session.loops ~ loop :: rest) :
    session.answered.length =
      (Loop.answering loop).length + (rest.flatMap Loop.answering).length := by
  have hlength := (hperm.flatMap_right Loop.answering).length_eq
  rw [List.flatMap_cons, List.length_append] at hlength
  exact hlength

/-- A loop that drops the result in its hands drops the input with it. -/
theorem outstanding_of_drop {loop : Loop N} {rest : List (Loop N)}
    (hperm : session.loops ~ loop :: rest)
    (hpending : after.pending = session.pending)
    (hat : after.atNodes = session.atNodes)
    (hanswered : after.answered = rest.flatMap Loop.answering) :
    after.outstanding + (Loop.answering loop).length = session.outstanding := by
  simp only [outstanding, hpending, hat, hanswered, length_answered hperm]
  omega

/-- A step that neither accepts nor delivers an input, and loses no result. -/
theorem Accounting.still (h : Transition variant session action after)
    (haccepted : after.accepted = session.accepted)
    (hdelivered : after.delivered = session.delivered)
    (hhands : after.atNodes.length + after.answered.length =
      session.atNodes.length + session.answered.length)
    (hdata : after.dataCounter = session.dataCounter) :
    Accounting session after action := by
  have hinputs := h.length_inputs
  rw [haccepted, hdelivered] at hinputs
  refine Accounting.same ?_ hdata
  simp only [outstanding]
  omega

theorem Transition.accounting (h : Transition variant session action after) :
    Accounting session after action := by
  have htransition := h
  have hinputs := h.length_inputs
  cases h with
  | firstConfig | configOk | inputPiece | inputSendError | inputSent | resumed =>
      exact Accounting.still htransition rfl rfl rfl rfl
  | respSent =>
      refine Accounting.still htransition rfl rfl ?_ rfl
      simp only [answered, startLoops, List.flatMap_append, answering_waiting,
        List.nil_append]
  | userInput hphase hconfig hdata =>
      refine Accounting.accepted hphase (by simp [accepts, hconfig, hdata]) ?_ rfl
      simp only [outstanding, acceptInput, dispatchInput, answered,
        List.length_append, List.length_singleton] at hinputs ⊢
      omega
  | drained =>
      refine Accounting.still htransition rfl rfl ?_ rfl
      simp only [answered, answering_map_notify]
  | inputWhole =>
      refine Accounting.same ?_ rfl
      simp only [outstanding, answered, List.length_cons] at hinputs ⊢
      omega
  | nodeError hperm hstage | nodeUnasked hperm hstage
  | examineValid hperm hstage =>
      refine Accounting.still htransition rfl rfl ?_ rfl
      simp only [length_answered hperm]
      simp only [answered, List.flatMap_cons, Loop.answering, hstage,
        Option.toList, List.length_append]
  | nodeAnswer hperm hstage _ hat =>
      refine Accounting.still htransition rfl rfl ?_ rfl
      simp only [length_answered hperm]
      simp only [answered, List.flatMap_cons, Loop.answering, hstage, hat.length_eq,
        Option.toList, List.length_append, List.length_cons, List.length_nil]
      omega
  | examineError hperm hstage =>
      exact Accounting.ended _ (by simp [ended, rejects, hstage])
        (outstanding_of_drop hperm rfl rfl rfl) rfl
  | examineInvalid hperm hstage hconfig hdata =>
      exact Accounting.ended _ (by simp [ended, rejects, hstage, hconfig, hdata])
        (outstanding_of_drop hperm rfl rfl rfl) rfl
  | forwardError hperm | loopStopped hperm =>
      exact Accounting.ended _ rfl (outstanding_of_drop hperm rfl rfl rfl) rfl
  | @forwardDone loop _ _ _ answers hperm hstage =>
      have hanswers : Loop.answering loop = answers.toList := by
        simp only [Loop.answering, hstage]
      refine Accounting.completed hstage ?_ rfl
      rw [← hanswers]
      exact outstanding_of_drop hperm rfl rfl rfl
  | @loopHandler loop _ hperm hstage =>
      have hanswers : (Loop.answering loop).length = 0 := by
        simp only [Loop.answering, hstage, List.length_nil]
      refine Accounting.same ?_ rfl
      rw [← Nat.add_zero (outstanding _), ← hanswers]
      exact outstanding_of_drop hperm rfl rfl rfl
  | _ => exact Accounting.same rfl rfl

/-- `_main_loop` waits for a node exactly while it is suspended there. -/
def MainWaits (session : Session N) : Prop :=
  session.pool.waiters.countP (·.byMain) =
    if session.phase = .dispatching then 1 else 0

/-- Only the main loop goes back to receiving, from its own dispatch. -/
theorem MainWaits.dispatching (hwaits : session.MainWaits) {waiter : Dispatch}
    {waiters : List Dispatch} (hwaiters : session.pool.waiters ~ waiter :: waiters)
    (hmain : waiter.byMain = true) : session.phase = .dispatching := by
  by_contra hphase
  simp [MainWaits, hwaiters.countP_eq, hmain, hphase] at hwaits

theorem MainWaits.firstConfig_of_resumed (hwaits : session.MainWaits)
    {waiter : Dispatch} {waiters : List Dispatch}
    (hwaiters : session.pool.waiters ~ waiter :: waiters)
    (h : (if waiter.byMain = true then Phase.receiving
      else session.phase).firstConfig = true) :
    session.phase.firstConfig = true := by
  split at h
  · next hmain => rw [hwaits.dispatching hwaiters hmain, Phase.firstConfig]
  · exact h

theorem MainWaits.dispatchInput (hwaits : session.MainWaits) (input : Input)
    {byMain : Bool} (hphase : byMain = true → session.phase ≠ .dispatching) :
    (session.dispatchInput input byMain).MainWaits := by
  rcases dispatchInput_cases session input byMain with
    ⟨ready, pool, _, hwaiters, heq⟩ | ⟨pool, _, _, hwaiters, heq⟩
  · simpa only [heq, MainWaits, hwaiters] using hwaits
  · simp only [heq, MainWaits, hwaiters, List.countP_append, List.countP_singleton]
    simp only [MainWaits] at hwaits
    cases byMain with
    | false => simpa using hwaits
    | true => simp [hwaits, hphase rfl]

theorem MainWaits.transition (hwaits : session.MainWaits)
    (h : Transition variant session action after) : after.MainWaits := by
  cases h with
  | firstError hphase | firstInvalid hphase | configured hphase
  | respError hphase | userError hphase | userConfig hphase
  | userInvalidQueue _ hphase | drained hphase | stopped hphase =>
      simpa [MainWaits, hphase, endSession, acceptConfig, dropMessage] using hwaits
  | firstConfig hphase =>
      simpa [MainWaits, hphase, configureNodes] using hwaits
  | configOk => simpa [MainWaits] using hwaits
  | respSent hphase =>
      simpa [MainWaits, hphase, startLoops] using hwaits
  | userInput hphase =>
      refine MainWaits.dispatchInput hwaits _ fun _ => ?_
      simp [hphase]
  | inputSendError =>
      exact MainWaits.dispatchInput hwaits _ (fun hmain => by cases hmain)
  | inputSent => simpa [MainWaits] using hwaits
  | @resumed waiter _ _ _ _ hperm =>
      simp only [MainWaits, hperm.countP_eq, List.countP_cons] at hwaits ⊢
      cases hmain : waiter.byMain with
      | false => simpa [hmain] using hwaits
      | true =>
          -- The main loop is the waiter that resumes, and there is no second.
          simp only [hmain, ↓reduceIte] at hwaits ⊢
          split at hwaits
          · simpa using hwaits
          · omega
  | _ => exact hwaits

theorem Transition.of_stopping (hwaits : session.MainWaits)
    (h : Transition variant session action after)
    (hphase : session.phase = .stopping) :
    after.phase = .stopping ∨ after.phase = .returned := by
  cases h with
  | firstError | firstInvalid | respError | userError | userInvalidQueue
  | stopped => exact Or.inr rfl
  | firstConfig hother | configured hother | respSent hother | userInput hother
  | userConfig hother | drained hother =>
      rw [hphase] at hother
      cases hother
  | @resumed waiter _ _ _ _ hperm =>
      simp only [MainWaits, hphase, hperm.countP_eq, List.countP_cons] at hwaits
      cases hmain : waiter.byMain with
      | false => exact Or.inl (by simp [hphase])
      | true => simp [hmain] at hwaits
  | _ => exact Or.inl hphase

theorem Transition.to_stopping (h : Transition variant session action after)
    (hphase : after.phase = .stopping) :
    session.phase = .stopping ∨
      after.dataCounter = session.dataCounter ∧ session.dataCounter.val = 0 := by
  cases h with
  | firstError | firstInvalid | firstConfig | configured | respError | respSent
  | userError | userConfig | userInvalidQueue | stopped => cases hphase
  | userInput hother =>
      rcases phase_acceptInput hother hphase with hafter | hafter <;> cases hafter
  | drained _ hzero => exact Or.inr ⟨rfl, hzero⟩
  | resumed => exact Or.inl (phase_of_resumed hphase (by simp))
  | _ => exact Or.inl hphase

theorem Transition.mem_atNodes (h : Transition variant session action after)
    {entry : N × Input} (hmem : entry ∈ after.atNodes) :
    entry ∈ session.atNodes ∨
      ∃ task count, action = .inputPiece task count ∧
        task.written + count = (encode task.input.message).length ∧
          entry = (task.node, task.input) ∧ entry.2 ∈ session.pending := by
  cases h with
  | inputWhole hperm hpos hwhole =>
      rcases List.mem_cons.mp hmem with rfl | hold
      · refine Or.inr ⟨_, _, rfl, hwhole, rfl, List.mem_append_right _ ?_⟩
        rw [(hperm.flatMap_right SendTask.unwritten).mem_iff, List.flatMap_cons,
          unwritten_of_lt (by omega)]
        exact List.mem_cons_self
      · exact Or.inl hold
  | nodeAnswer _ _ _ hat =>
      exact Or.inl (hat.mem_iff.mpr (List.mem_cons_of_mem _ hmem))
  | _ => exact Or.inl hmem

theorem Transition.ended_mem (h : Transition variant session action after)
    {loop : Loop N} (hended : loop ∈ session.ended action) :
    loop ∈ session.loops := by
  cases h with
  | examineError hperm | examineInvalid hperm | examineValid hperm =>
      simp only [ended, Option.mem_def, Option.ite_none_right_eq_some,
        Option.some.injEq] at hended
      rw [← hended.2]
      exact mem_of_perm hperm
  | examineDivision hmem =>
      simp only [ended, Option.mem_def, Option.ite_none_right_eq_some,
        Option.some.injEq] at hended
      rw [← hended.2]
      exact hmem
  | forwardError hperm | loopStopped hperm =>
      cases hended
      exact mem_of_perm hperm
  | _ => cases hended

theorem Transition.mem_notified (h : Transition variant session action after)
    {loop : Loop N} (hmem : loop ∈ after.loops)
    (hnotified : loop.stage = .notified) :
    loop ∈ session.loops ∨ after.phase = .stopping := by
  cases h with
  | respSent =>
      rcases List.mem_append.mp hmem with hnew | hold
      · obtain ⟨node, _, rfl⟩ := List.mem_map.mp hnew
        cases hnotified
      · exact Or.inl hold
  | drained => exact Or.inr rfl
  | nodeError hperm | nodeUnasked hperm | nodeAnswer hperm | examineError hperm
  | examineInvalid hperm | examineValid hperm | forwardError hperm
  | forwardDone hperm | loopStopped hperm =>
      rcases List.mem_cons.mp hmem with rfl | hrest
      · cases hnotified
      · exact Or.inl (hperm.mem_iff.mpr (List.mem_cons_of_mem _ hrest))
  | loopHandler hperm =>
      exact Or.inl (hperm.mem_iff.mpr (List.mem_cons_of_mem _ hmem))
  | _ => exact Or.inl hmem

/-- The main loop has nothing left to wait for but its receiver loops. -/
def Stopped (session : Session N) : Prop :=
  session.phase = .stopping ∨ session.phase = .returned

/-- Where the stop event finds the session. -/
structure StopInv (session : Session N) : Prop where
  mainWaits : session.MainWaits
  stopping : session.phase = .stopping → session.dataCounter.getValue = 0
  notified : ∀ loop ∈ session.loops, loop.stage = .notified → session.Stopped

theorem StopInv.initial {nodes : List N} {config data receiver : Counter} :
    StopInv (initial nodes config data receiver) :=
  ⟨rfl, nofun, nofun⟩

theorem Stopped.transition (hstopped : session.Stopped)
    (hwaits : session.MainWaits) (hrunning : session.Running)
    (h : Transition variant session action after) : after.Stopped := by
  rcases hstopped with hphase | hphase
  · exact h.of_stopping hwaits hphase
  · exact absurd hphase hrunning.2

theorem StopInv.transition (hinv : session.StopInv) (hrunning : session.Running)
    (h : Transition variant session action after) : after.StopInv where
  mainWaits := hinv.mainWaits.transition h
  stopping hphase := by
    rcases h.to_stopping hphase with hbefore | ⟨hdata, hzero⟩
    · have hzero := hinv.stopping hbefore
      cases h.accounting with
      | same _ hdata | ended _ _ _ hdata =>
          rw [hdata]
          exact hzero
      | accepted hreceiving =>
          rw [hbefore] at hreceiving
          cases hreceiving
      | completed _ _ hdata => rw [hdata, Counter.getValue_decr, hzero]
    · rw [hdata]
      exact (Counter.val_eq_zero_iff _).mp hzero
  notified loop hmem hnotified := by
    rcases h.mem_notified hmem hnotified with hold | hphase
    · exact (hinv.notified loop hold hnotified).transition hinv.mainWaits
        hrunning h
    · exact Or.inl hphase

/-- The node to which the step writes the last piece of an input. -/
def Action.handsTo : Action N → Option N
  | .inputPiece task count =>
      if task.written + count = (encode task.input.message).length then
        some task.node
      else none
  | _ => none

/-- A loop that ends, other than by the stop event, leaves no input behind: its
node holds none, and it has none in hand.  And no input is handed to a node
completely whose loop has ended. -/
structure KeepsInputs (session : Session N) (action : Action N) : Prop where
  leavesNone : ∀ loop ∈ session.ended action, loop.stage ≠ .notified →
    (∀ entry ∈ session.atNodes, entry.1 ≠ loop.node) ∧ Loop.answering loop = []
  handsToServed : ∀ node ∈ action.handsTo, node ∈ session.servedNodes

instance [DecidableEq N] (session : Session N) (action : Action N) :
    Decidable (session.KeepsInputs action) :=
  decidable_of_iff
    ((∀ loop ∈ session.ended action, loop.stage ≠ .notified →
      (∀ entry ∈ session.atNodes, entry.1 ≠ loop.node) ∧
        Loop.answering loop = []) ∧
      ∀ node ∈ action.handsTo, node ∈ session.servedNodes)
    ⟨fun h => ⟨h.1, h.2⟩, fun h => ⟨h.leavesNone, h.handsToServed⟩⟩

/-- The accepted inputs that can still be completed. -/
def completable [DecidableEq N] (session : Session N) : Nat :=
  session.pending.length +
    (session.atNodes.filter (·.1 ∈ session.servedNodes)).length +
      session.answered.length

/-- The data counter counts no more than what is outstanding, and until the loops
are stopped the nodes that hold inputs are read from. -/
structure AccountInv (session : Session N) : Prop where
  stop : session.StopInv
  bound : session.dataCounter.getValue ≤ session.outstanding
  served : session.Stopped ∨
    ∀ entry ∈ session.atNodes, entry.1 ∈ session.servedNodes

theorem answering_of_notified {loop : Loop N} (h : loop.stage = .notified) :
    Loop.answering loop = [] := by
  simp only [Loop.answering, h]

theorem AccountInv.bound_transition (hinv : session.AccountInv)
    (hguard : session.KeepsInputs action)
    (h : Transition variant session action after) :
    after.dataCounter.getValue ≤ after.outstanding := by
  have hbound := hinv.bound
  cases h.accounting with
  | same hsame hdata =>
      rw [hsame, hdata]
      exact hbound
  | accepted _ _ hmore hdata =>
      rw [hmore, hdata]
      exact (Counter.getValue_incr_le _).trans (Nat.succ_le_succ hbound)
  | @completed _ _ _ answers _ hless hdata =>
      have hone : answers.toList.length ≤ 1 := by cases answers <;> simp
      rw [hdata, Counter.getValue_decr]
      omega
  | ended loop hended hless hdata =>
      have hnone : Loop.answering loop = [] := by
        by_cases hstage : loop.stage = .notified
        · exact answering_of_notified hstage
        · exact (hguard.leavesNone loop hended hstage).2
      rw [hnone, List.length_nil, Nat.add_zero] at hless
      rw [hless, hdata]
      exact hbound

theorem AccountInv.served_transition (hinv : session.AccountInv)
    (hrunning : session.Running) (hguard : session.KeepsInputs action)
    (h : Transition variant session action after) :
    after.Stopped ∨ ∀ entry ∈ after.atNodes, entry.1 ∈ after.servedNodes := by
  by_cases hstopped : session.Stopped
  · exact Or.inl (hstopped.transition hinv.stop.mainWaits hrunning h)
  · refine Or.inr fun entry hmem => ?_
    have hstage : ∀ loop ∈ session.ended action, loop.stage ≠ .notified :=
      fun loop hended hnotified => hstopped
        (hinv.stop.notified loop (h.ended_mem hended) hnotified)
    rcases h.mem_atNodes hmem with hold | ⟨task, count, rfl, hwhole, rfl, _⟩
    · apply h.mem_servedNodes (hinv.served.resolve_left hstopped entry hold)
      intro loop hended hsame
      exact (hguard.leavesNone loop hended (hstage loop hended)).1 entry hold
        hsame.symm
    · refine h.mem_servedNodes
        (hguard.handsToServed task.node (if_pos hwhole)) ?_
      intro loop hended
      cases hended

theorem AccountInv.transition (hinv : session.AccountInv)
    (hrunning : session.Running) (hguard : session.KeepsInputs action)
    (h : Transition variant session action after) : after.AccountInv where
  stop := hinv.stop.transition hrunning h
  bound := hinv.bound_transition hguard h
  served := hinv.served_transition hrunning hguard h

section

variable [DecidableEq N]

/-- As long as no loop ends with inputs that its node holds, the data counter
counts no more than the inputs that can still be completed. -/
theorem dataCounter_le_completable (variant : Variant) (nodes : List N)
    (config data receiver : Counter) (hdata : data.getValue = 0)
    {session : Session N}
    (h : Machine.Reaches (step variant) KeepsInputs
      (initial nodes config data receiver) session)
    (hmain : session.phase.mainLoop = true) :
    session.dataCounter.getValue ≤ session.completable := by
  have hinv : session.AccountInv := by
    apply h.invariant ⟨StopInv.initial, hdata.le, Or.inr nofun⟩
    intro before action after hinv hguard hstep
    obtain ⟨hrunning, htransition⟩ := transition_of_step hstep
    exact hinv.transition hrunning hguard htransition
  rcases hinv.served with (hphase | hphase) | hserved
  · rw [hinv.stop.stopping hphase]
    exact Nat.zero_le _
  · rw [hphase] at hmain
    cases hmain
  · have hall : session.atNodes.filter (·.1 ∈ session.servedNodes) =
        session.atNodes := by
      rw [List.filter_eq_self]
      intro entry hmem
      exact decide_eq_true (hserved entry hmem)
    rw [completable, hall]
    exact hinv.bound

/-- The inputs of the runs below, with the ids that they get. -/
def firstInput : Input := ⟨⟨4, .data 5⟩, .config 1 1⟩

def secondInput : Input := ⟨⟨5, .data 6⟩, .config 1 1⟩

/-- One node has answered its input, and disconnects; the other holds one. -/
def answeredRun : List (Action Nat) :=
  configuration (.config 1 1) [0, 1] ++
    [.userMessage (.ok (.data 5)), .inputPiece ⟨0, firstInput, 0⟩ 13,
      .inputSent ⟨0, firstInput, 13⟩, .userMessage (.ok (.data 6)),
      .inputPiece ⟨1, secondInput, 0⟩ 13,
      .nodeMessage ⟨0, .waiting⟩ (.ok (.data 7)) (some firstInput),
      .examine ⟨0, .received (.ok ⟨6, .data 7⟩) (some firstInput)⟩,
      .forwardPiece ⟨0, .forwarding ⟨6, .data 7⟩ 1 (some firstInput)⟩ 13,
      .forwardDone ⟨0, .forwarding ⟨6, .data 7⟩ 1 (some firstInput)⟩,
      .nodeMessage ⟨0, .waiting⟩ (.error .eof) none,
      .examine ⟨0, .received (.error .eof) none⟩]

theorem dataCounter_le_completable_answered :
    ∃ session : Session Nat,
      Machine.run (step .queue) KeepsInputs (initial [0, 1] ⟨0⟩ ⟨0⟩ ⟨0⟩)
        answeredRun = some session ∧
      session.dataCounter = ⟨1⟩ ∧
        session.dataCounter.getValue ≤ session.completable :=
  ⟨_, rfl, rfl,
    dataCounter_le_completable .queue [0, 1] ⟨0⟩ ⟨0⟩ ⟨0⟩ rfl
      (Machine.reaches_of_run answeredRun rfl) rfl⟩

/-- A node disconnects while it holds an input.  Nobody can answer the input any
more, but the data counter still counts it. -/
theorem dataCounter_not_le_completable :
    ∃ session : Session Nat,
      Machine.Reachable (step .queue) (initial [0, 1] ⟨0⟩ ⟨0⟩ ⟨0⟩) session ∧
        session.phase = .receiving ∧
          ¬session.dataCounter.getValue ≤ session.completable := by
  refine ⟨_, Machine.reaches_of_run
    (configuration (.config 1 1) [0, 1] ++
      [.userMessage (.ok (.data 5)), .inputPiece ⟨0, firstInput, 0⟩ 13,
        .inputSent ⟨0, firstInput, 13⟩,
        .nodeMessage ⟨0, .waiting⟩ (.error .eof) none,
        .examine ⟨0, .received (.error .eof) none⟩]) rfl, rfl, ?_⟩
  change ¬1 ≤ 0
  decide

end

end Session

end FpgaFramework
