/-
The steps of a session.  A label names the coroutine that moves and what its
socket operation brought; the coroutine's record is part of the label, since
every coroutine is known by where it stands.  `Transition` says once what a step
can do, and all invariants are read off it.
-/
import FpgaFramework.Session

namespace FpgaFramework

open scoped List

namespace Session

variable {N : Type}

/-- Everything that can happen next.  `answers` is the input, if any, that a
node's message answers; the server does not see it. -/
inductive Action (N : Type) where
  | firstMessage (result : Except ErrorCode ValidMessage)
  | configPiece (task : ConfigTask N) (count : Nat)
  | configSendError (task : ConfigTask N) (ec : ErrorCode)
  | configSent (task : ConfigTask N)
  | configReply (task : ConfigTask N) (result : Except ErrorCode ValidMessage)
  | configHandler (task : ConfigTask N)
  | configured (memory : Message.Memory)
  | respPiece (count : Nat)
  | respError (ec : ErrorCode)
  | respSent
  | userMessage (result : Except ErrorCode ValidMessage)
  | drained
  | stopped
  | inputPiece (task : SendTask N) (count : Nat)
  | inputSendError (task : SendTask N) (ec : ErrorCode)
  | inputSent (task : SendTask N)
  | resume (waiter : Dispatch)
  | nodeMessage (loop : Loop N) (result : Except ErrorCode ValidMessage)
      (answers : Option Input)
  | examine (loop : Loop N)
  | forwardPiece (loop : Loop N) (count : Nat)
  | forwardError (loop : Loop N) (ec : ErrorCode)
  | forwardDone (loop : Loop N)
  | loopStopped (loop : Loop N)
  | loopHandler (loop : Loop N)

/-- `start` on the first message. -/
def firstMessage (variant : Variant) (session : Session N) :
    Except ErrorCode ValidMessage → Session N
  | .error _ => { session with phase := .returned }
  | .ok message =>
      if message.1.isValidConfig then session.configureNodes variant message
      else
        { session with
          phase := .returned
          nextId := session.nextId + 1
          destroyed := session.nextId :: session.destroyed }

/-- `_configure_node` on the node's reply, which it destroys at once. -/
def configReply (session : Session N) (task : ConfigTask N)
    (rest : List (ConfigTask N)) : Except ErrorCode ValidMessage → Session N
  | .error ec =>
      { session with
        configTasks := { task with stage := .finished (some ec) } :: rest }
  | .ok reply =>
      if reply.1.isValidConfigResp ∧ reply.1.status = .success then
        { session with
          configTasks := { task with stage := .finished none } :: rest
          nextId := session.nextId + 1
          destroyed := session.nextId :: session.destroyed
          acknowledged := (task.node, task.config) :: session.acknowledged }
      else
        { session with
          configTasks :=
            { task with stage := .finished (some .fault) } :: rest
          nextId := session.nextId + 1
          destroyed := session.nextId :: session.destroyed }

/-- `config_counter` lives while `_configure_nodes` runs. -/
def counterLives (session : Session N) : Bool :=
  match session.phase with
  | .configuring | .responding _ _ => true
  | _ => false

/-- The completion handler of `_configure_node`. -/
def configHandler (variant : Variant) (session : Session N)
    (task : ConfigTask N) (rest : List (ConfigTask N)) (ec : Option ErrorCode) :
    Session N :=
  let fault := if session.counterLives then session.fault else some .deadCounter
  match ec with
  | none =>
      { session with
        configTasks := rest
        pool := session.pool.push variant.discipline task.node
        configCounter := session.configCounter.decr
        fault := fault }
  | some _ =>
      { session with
        configTasks := rest
        retired := task.node :: session.retired
        configCounter := session.configCounter.decr
        fault := fault }

/-- `_main_loop` on what it received. -/
def userMessage (variant : Variant) (session : Session N) (config : Held) :
    Except ErrorCode ValidMessage → Session N
  | .error _ => session.endSession
  | .ok message =>
      match message.1.isValidData config.message.1.inputSize with
      | none => { session with fault := some .divisionByZero }
      | some true => session.acceptInput config message
      | some false =>
          if message.1.isValidConfig then session.acceptConfig config message
          else
            match variant with
            | .queue => session.dropMessage.endSession
            | .stack => session.dropMessage

/-- A receiver loop on what it received. -/
def examine (session : Session N) (config : Held) (loop : Loop N)
    (rest : List (Loop N)) (result : Except ErrorCode Held)
    (answers : Option Input) : Session N :=
  match result with
  | .error _ =>
      { session with loops := { loop with stage := .finished } :: rest }
  | .ok held =>
      match held.message.1.isValidData config.message.1.outputSize with
      | none => { session with fault := some .divisionByZero }
      | some false =>
          { session with
            loops := { loop with stage := .finished } :: rest
            destroyed := held.id :: session.destroyed }
      | some true =>
          { session with
            loops :=
              { loop with
                stage := .forwarding held session.user.sends.length answers } ::
                  rest
            user := session.user.begin held.message
            forwarded := session.forwarded ++ [(loop.node, held)] }

/-- The `User` still exists, and nothing undefined has happened. -/
def Running (session : Session N) : Prop :=
  session.fault = none ∧ session.phase ≠ .returned

instance (session : Session N) : Decidable session.Running := by
  unfold Running
  infer_instance

/-- What one step can do.  A coroutine that moves is taken out of its list and
`rest` is what stays there. -/
inductive Transition (variant : Variant) (session : Session N) :
    Action N → Session N → Prop
  | firstError {ec : ErrorCode} (hphase : session.phase = .awaitingConfig) :
      Transition variant session (.firstMessage (.error ec))
        { session with phase := .returned }
  | firstInvalid {message : ValidMessage}
      (hphase : session.phase = .awaitingConfig)
      (hinvalid : message.1.isValidConfig = false) :
      Transition variant session (.firstMessage (.ok message))
        { session with
          phase := .returned
          nextId := session.nextId + 1
          destroyed := session.nextId :: session.destroyed }
  | firstConfig {message : ValidMessage}
      (hphase : session.phase = .awaitingConfig)
      (hvalid : message.1.isValidConfig = true) :
      Transition variant session (.firstMessage (.ok message))
        (session.configureNodes variant message)
  | configPiece {task : ConfigTask N} {rest : List (ConfigTask N)}
      {written count : Nat} (hperm : session.configTasks ~ task :: rest)
      (hstage : task.stage = .sending written)
      (hbound : 0 < count ∧
        written + count ≤ (encode task.config.message).length) :
      Transition variant session (.configPiece task count)
        { session with
          configTasks :=
            { task with stage := .sending (written + count) } :: rest }
  | configSendError {task : ConfigTask N} {rest : List (ConfigTask N)}
      {written : Nat} {ec : ErrorCode}
      (hperm : session.configTasks ~ task :: rest)
      (hstage : task.stage = .sending written) :
      Transition variant session (.configSendError task ec)
        { session with
          configTasks := { task with stage := .finished (some ec) } :: rest }
  | configSent {task : ConfigTask N} {rest : List (ConfigTask N)}
      (hperm : session.configTasks ~ task :: rest)
      (hstage : task.stage = .sending (encode task.config.message).length) :
      Transition variant session (.configSent task)
        { session with
          configTasks := { task with stage := .receiving } :: rest }
  | configReplyError {task : ConfigTask N} {rest : List (ConfigTask N)}
      {ec : ErrorCode} (hperm : session.configTasks ~ task :: rest)
      (hstage : task.stage = .receiving) :
      Transition variant session (.configReply task (.error ec))
        { session with
          configTasks := { task with stage := .finished (some ec) } :: rest }
  | configRefused {task : ConfigTask N} {rest : List (ConfigTask N)}
      {reply : ValidMessage} (hperm : session.configTasks ~ task :: rest)
      (hstage : task.stage = .receiving)
      (hrefused : ¬(reply.1.isValidConfigResp ∧ reply.1.status = .success)) :
      Transition variant session (.configReply task (.ok reply))
        { session with
          configTasks := { task with stage := .finished (some .fault) } :: rest
          nextId := session.nextId + 1
          destroyed := session.nextId :: session.destroyed }
  | configAcknowledged {task : ConfigTask N} {rest : List (ConfigTask N)}
      {reply : ValidMessage} (hperm : session.configTasks ~ task :: rest)
      (hstage : task.stage = .receiving)
      (hsuccess : reply.1.isValidConfigResp ∧ reply.1.status = .success) :
      Transition variant session (.configReply task (.ok reply))
        { session with
          configTasks := { task with stage := .finished none } :: rest
          nextId := session.nextId + 1
          destroyed := session.nextId :: session.destroyed
          acknowledged := (task.node, task.config) :: session.acknowledged }
  | configOk {task : ConfigTask N} {rest : List (ConfigTask N)}
      {fault : Option Fault} (hperm : session.configTasks ~ task :: rest)
      (hstage : task.stage = .finished none)
      (hfault : fault =
        if session.counterLives then none else some .deadCounter) :
      Transition variant session (.configHandler task)
        { session with
          configTasks := rest
          pool := session.pool.push variant.discipline task.node
          configCounter := session.configCounter.decr
          fault := fault }
  | configFailed {task : ConfigTask N} {rest : List (ConfigTask N)}
      {ec : ErrorCode} {fault : Option Fault}
      (hperm : session.configTasks ~ task :: rest)
      (hstage : task.stage = .finished (some ec))
      (hfault : fault =
        if session.counterLives then none else some .deadCounter) :
      Transition variant session (.configHandler task)
        { session with
          configTasks := rest
          retired := task.node :: session.retired
          configCounter := session.configCounter.decr
          fault := fault }
  | configured {memory : Message.Memory} {response : Held}
      (hphase : session.phase = .configuring)
      (hzero : session.configCounter.val = 0)
      (hresponse : response =
        ⟨session.nextId, ValidMessage.newConfigResp memory .success⟩) :
      Transition variant session (.configured memory)
        { session with
          phase := .responding response session.user.sends.length
          user := session.user.begin response.message
          nextId := session.nextId + 1 }
  | respPiece {response : Held} {ticket count : Nat}
      {user : SharedStream ValidMessage UInt8}
      (hphase : session.phase = .responding response ticket)
      (hpiece : session.user.piece encode ticket count = some user) :
      Transition variant session (.respPiece count) { session with user := user }
  | respError {response : Held} {ticket : Nat} {ec : ErrorCode}
      (hphase : session.phase = .responding response ticket) :
      Transition variant session (.respError ec)
        { session with
          phase := .returned
          destroyed := response.id :: session.destroyed }
  | respSent {response : Held} {ticket : Nat}
      (hphase : session.phase = .responding response ticket)
      (hdone : session.user.Done encode ticket) :
      Transition variant session .respSent
        (startLoops variant { session with
          destroyed := response.id :: session.destroyed })
  | userError {ec : ErrorCode} (hphase : session.phase = .receiving) :
      Transition variant session (.userMessage (.error ec)) session.endSession
  | userDivision {message : ValidMessage} {config : Held}
      (hphase : session.phase = .receiving)
      (hconfig : session.config = some config)
      (hdata : message.1.isValidData config.message.1.inputSize = none) :
      Transition variant session (.userMessage (.ok message))
        { session with fault := some .divisionByZero }
  | userInput {message : ValidMessage} {config : Held}
      (hphase : session.phase = .receiving)
      (hconfig : session.config = some config)
      (hdata : message.1.isValidData config.message.1.inputSize = some true) :
      Transition variant session (.userMessage (.ok message))
        (session.acceptInput config message)
  | userConfig {message : ValidMessage} {config : Held}
      (hphase : session.phase = .receiving)
      (hconfig : session.config = some config)
      (hdata : message.1.isValidData config.message.1.inputSize = some false)
      (hvalid : message.1.isValidConfig = true) :
      Transition variant session (.userMessage (.ok message))
        (session.acceptConfig config message)
  | userInvalidQueue {message : ValidMessage} {config : Held}
      (hvariant : variant = .queue)
      (hphase : session.phase = .receiving)
      (hconfig : session.config = some config)
      (hdata : message.1.isValidData config.message.1.inputSize = some false)
      (hinvalid : message.1.isValidConfig = false) :
      Transition variant session (.userMessage (.ok message))
        session.dropMessage.endSession
  | userInvalidStack {message : ValidMessage} {config : Held}
      (hvariant : variant = .stack)
      (hphase : session.phase = .receiving)
      (hconfig : session.config = some config)
      (hdata : message.1.isValidData config.message.1.inputSize = some false)
      (hinvalid : message.1.isValidConfig = false) :
      Transition variant session (.userMessage (.ok message))
        session.dropMessage
  | drained (hphase : session.phase = .draining)
      (hzero : session.dataCounter.val = 0) :
      Transition variant session .drained
        { session with
          phase := .stopping
          loops := session.loops.map notify }
  | stopped (hphase : session.phase = .stopping)
      (hzero : session.nodeReceiverCounter.val = 0) :
      Transition variant session .stopped session.endSession
  | inputPiece {task : SendTask N} {rest : List (SendTask N)} {count : Nat}
      (hperm : session.sendTasks ~ task :: rest) (hpos : 0 < count)
      (hpart : task.written + count < (encode task.input.message).length) :
      Transition variant session (.inputPiece task count)
        { session with
          sendTasks := { task with written := task.written + count } :: rest }
  | inputWhole {task : SendTask N} {rest : List (SendTask N)} {count : Nat}
      (hperm : session.sendTasks ~ task :: rest) (hpos : 0 < count)
      (hwhole : task.written + count = (encode task.input.message).length) :
      Transition variant session (.inputPiece task count)
        { session with
          sendTasks := { task with written := task.written + count } :: rest
          delivered := (task.node, task.input) :: session.delivered
          atNodes := (task.node, task.input) :: session.atNodes }
  | inputSendError {task : SendTask N} {rest : List (SendTask N)}
      {ec : ErrorCode} (hperm : session.sendTasks ~ task :: rest)
      (hpart : task.written < (encode task.input.message).length) :
      Transition variant session (.inputSendError task ec)
        (dispatchInput { session with
          sendTasks := rest
          retired := task.node :: session.retired
          failedSends := task.node :: session.failedSends } task.input false)
  | inputSent {task : SendTask N} {rest : List (SendTask N)}
      (hperm : session.sendTasks ~ task :: rest)
      (hwhole : task.written = (encode task.input.message).length) :
      Transition variant session (.inputSent task)
        { session with
          sendTasks := rest
          destroyed := task.input.id :: session.destroyed
          pool := session.pool.push variant.discipline task.node }
  | resumeEmpty {waiter : Dispatch} (hmem : waiter ∈ session.pool.woken)
      (hempty : session.pool.items = []) :
      Transition variant session (.resume waiter)
        { session with fault := some .emptyPop }
  | resumed {waiter : Dispatch} {node : N} {pool : AsyncPool N Dispatch}
      (hmem : waiter ∈ session.pool.woken)
      (hitems : session.pool.items = node :: pool.items)
      (hwaiters : session.pool.waiters ~ waiter :: pool.waiters) :
      Transition variant session (.resume waiter)
        { session with
          phase := if waiter.byMain then .receiving else session.phase
          pool := pool
          sendTasks := ⟨node, waiter.input, 0⟩ :: session.sendTasks }
  | nodeError {loop : Loop N} {rest : List (Loop N)} {ec : ErrorCode}
      (hperm : session.loops ~ loop :: rest) (hstage : loop.stage = .waiting) :
      Transition variant session (.nodeMessage loop (.error ec) none)
        { session with
          loops := { loop with stage := .received (.error ec) none } :: rest }
  | nodeUnasked {loop : Loop N} {rest : List (Loop N)} {message : ValidMessage}
      {held : Held} (hperm : session.loops ~ loop :: rest)
      (hstage : loop.stage = .waiting)
      (hheld : held = ⟨session.nextId, message⟩) :
      Transition variant session (.nodeMessage loop (.ok message) none)
        { session with
          loops := { loop with stage := .received (.ok held) none } :: rest
          nextId := session.nextId + 1
          results := session.results ++ [(loop.node, held)] }
  | nodeAnswer {loop : Loop N} {rest : List (Loop N)} {message : ValidMessage}
      {held : Held} {input : Input} {restAt : List (N × Input)}
      (hperm : session.loops ~ loop :: rest) (hstage : loop.stage = .waiting)
      (hheld : held = ⟨session.nextId, message⟩)
      (hat : session.atNodes ~ (loop.node, input) :: restAt) :
      Transition variant session (.nodeMessage loop (.ok message) (some input))
        { session with
          loops :=
            { loop with stage := .received (.ok held) (some input) } :: rest
          nextId := session.nextId + 1
          atNodes := restAt
          results := session.results ++ [(loop.node, held)] }
  | examineError {loop : Loop N} {rest : List (Loop N)} {ec : ErrorCode}
      {answers : Option Input} (hperm : session.loops ~ loop :: rest)
      (hstage : loop.stage = .received (.error ec) answers) :
      Transition variant session (.examine loop)
        { session with loops := { loop with stage := .finished } :: rest }
  | examineDivision {loop : Loop N} {held : Held} {answers : Option Input}
      {config : Held} (hmem : loop ∈ session.loops)
      (hstage : loop.stage = .received (.ok held) answers)
      (hconfig : session.config = some config)
      (hdata : held.message.1.isValidData config.message.1.outputSize = none) :
      Transition variant session (.examine loop)
        { session with fault := some .divisionByZero }
  | examineInvalid {loop : Loop N} {rest : List (Loop N)} {held : Held}
      {answers : Option Input} {config : Held}
      (hperm : session.loops ~ loop :: rest)
      (hstage : loop.stage = .received (.ok held) answers)
      (hconfig : session.config = some config)
      (hdata : held.message.1.isValidData config.message.1.outputSize =
        some false) :
      Transition variant session (.examine loop)
        { session with
          loops := { loop with stage := .finished } :: rest
          destroyed := held.id :: session.destroyed }
  | examineValid {loop : Loop N} {rest : List (Loop N)} {held : Held}
      {answers : Option Input} {config : Held}
      (hperm : session.loops ~ loop :: rest)
      (hstage : loop.stage = .received (.ok held) answers)
      (hconfig : session.config = some config)
      (hdata : held.message.1.isValidData config.message.1.outputSize =
        some true) :
      Transition variant session (.examine loop)
        { session with
          loops :=
            { loop with
              stage := .forwarding held session.user.sends.length answers } ::
                rest
          user := session.user.begin held.message
          forwarded := session.forwarded ++ [(loop.node, held)] }
  | forwardPiece {loop : Loop N} {held : Held} {ticket count : Nat}
      {answers : Option Input} {user : SharedStream ValidMessage UInt8}
      (hmem : loop ∈ session.loops)
      (hstage : loop.stage = .forwarding held ticket answers)
      (hpiece : session.user.piece encode ticket count = some user) :
      Transition variant session (.forwardPiece loop count)
        { session with user := user }
  | forwardError {loop : Loop N} {rest : List (Loop N)} {held : Held}
      {ticket : Nat} {answers : Option Input} {ec : ErrorCode}
      (hperm : session.loops ~ loop :: rest)
      (hstage : loop.stage = .forwarding held ticket answers) :
      Transition variant session (.forwardError loop ec)
        { session with
          loops := { loop with stage := .finished } :: rest
          destroyed := held.id :: session.destroyed }
  | forwardDone {loop : Loop N} {rest : List (Loop N)} {held : Held}
      {ticket : Nat} {answers : Option Input}
      (hperm : session.loops ~ loop :: rest)
      (hstage : loop.stage = .forwarding held ticket answers)
      (hdone : session.user.Done encode ticket) :
      Transition variant session (.forwardDone loop)
        { session with
          loops := { loop with stage := .waiting } :: rest
          destroyed := held.id :: session.destroyed
          dataCounter := session.dataCounter.decr
          completed := session.completed ++ [(loop.node, held)] }
  | loopStopped {loop : Loop N} {rest : List (Loop N)}
      (hperm : session.loops ~ loop :: rest) (hstage : loop.stage = .notified) :
      Transition variant session (.loopStopped loop)
        { session with loops := { loop with stage := .finished } :: rest }
  | loopHandler {loop : Loop N} {rest : List (Loop N)}
      (hperm : session.loops ~ loop :: rest) (hstage : loop.stage = .finished) :
      Transition variant session (.loopHandler loop)
        { session with
          loops := rest
          nodeReceiverCounter := session.nodeReceiverCounter.decr }

/-- An accepted input is dispatched at once, or the main loop waits with it. -/
theorem phase_acceptInput {session : Session N}
    (hphase : session.phase = .receiving) {config : Held} {message : ValidMessage}
    {phase : Phase} (h : (session.acceptInput config message).phase = phase) :
    phase = .dispatching ∨ phase = .receiving := by
  rw [← h]
  simp only [acceptInput, dispatchInput, hphase]
  split
  · exact Or.inl rfl
  · exact Or.inr rfl

/-- A resumed dispatch leads `start` back to receiving, or nowhere. -/
theorem phase_of_resumed {byMain : Bool} {phase next : Phase}
    (h : (if byMain = true then Phase.receiving else phase) = next)
    (hnext : next ≠ .receiving) : phase = next := by
  split at h
  · exact absurd h.symm hnext
  · exact h

section

variable {variant : Variant} {session : Session N}

theorem transition_firstMessage (hphase : session.phase = .awaitingConfig)
    (result : Except ErrorCode ValidMessage) :
    Transition variant session (.firstMessage result)
      (session.firstMessage variant result) := by
  cases result with
  | error ec => exact Transition.firstError hphase
  | ok message =>
      by_cases hvalid : message.1.isValidConfig = true
      · rw [firstMessage, if_pos hvalid]
        exact Transition.firstConfig hphase hvalid
      · rw [firstMessage, if_neg hvalid]
        exact Transition.firstInvalid hphase (Bool.eq_false_of_not_eq_true hvalid)

theorem transition_configReply {task : ConfigTask N}
    {rest : List (ConfigTask N)} (hperm : session.configTasks ~ task :: rest)
    (hstage : task.stage = .receiving)
    (result : Except ErrorCode ValidMessage) :
    Transition variant session (.configReply task result)
      (session.configReply task rest result) := by
  cases result with
  | error ec => exact Transition.configReplyError hperm hstage
  | ok reply =>
      by_cases hsuccess :
          reply.1.isValidConfigResp ∧ reply.1.status = .success
      · rw [configReply, if_pos hsuccess]
        exact Transition.configAcknowledged hperm hstage hsuccess
      · rw [configReply, if_neg hsuccess]
        exact Transition.configRefused hperm hstage hsuccess

theorem transition_configHandler (hrunning : session.Running)
    {task : ConfigTask N} {rest : List (ConfigTask N)} {ec : Option ErrorCode}
    (hperm : session.configTasks ~ task :: rest)
    (hstage : task.stage = .finished ec) :
    Transition variant session (.configHandler task)
      (session.configHandler variant task rest ec) := by
  have hfault :
      (if session.counterLives then session.fault else some .deadCounter) =
        if session.counterLives then none else some .deadCounter := by
    rw [hrunning.1]
  cases ec with
  | none => exact Transition.configOk hperm hstage hfault
  | some ec => exact Transition.configFailed hperm hstage hfault

theorem transition_userMessage (hphase : session.phase = .receiving)
    {config : Held} (hconfig : session.config = some config)
    (result : Except ErrorCode ValidMessage) :
    Transition variant session (.userMessage result)
      (session.userMessage variant config result) := by
  cases result with
  | error ec => exact Transition.userError hphase
  | ok message =>
      simp only [userMessage]
      split
      · next hdata => exact Transition.userDivision hphase hconfig hdata
      · next hdata => exact Transition.userInput hphase hconfig hdata
      · next hdata =>
          by_cases hvalid : message.1.isValidConfig = true
          · rw [if_pos hvalid]
            exact Transition.userConfig hphase hconfig hdata hvalid
          · have hinvalid := Bool.eq_false_of_not_eq_true hvalid
            rw [if_neg hvalid]
            cases variant with
            | queue =>
                exact Transition.userInvalidQueue rfl hphase hconfig hdata hinvalid
            | stack =>
                exact Transition.userInvalidStack rfl hphase hconfig hdata hinvalid

end

variable [DecidableEq N]

/-- A node answers with a valid message only, and only an input it holds. -/
def MayAnswer (session : Session N) (loop : Loop N)
    (result : Except ErrorCode ValidMessage) (answers : Option Input) : Prop :=
  ∀ input ∈ answers,
    result.toBool = true ∧ (loop.node, input) ∈ session.atNodes

instance (session : Session N) (loop : Loop N)
    (result : Except ErrorCode ValidMessage) (answers : Option Input) :
    Decidable (session.MayAnswer loop result answers) := by
  unfold MayAnswer
  infer_instance

/-- The receive of a receiver loop has completed. -/
def nodeMessage (session : Session N) (loop : Loop N) (rest : List (Loop N))
    (result : Except ErrorCode ValidMessage) (answers : Option Input) :
    Session N :=
  match result with
  | .error ec =>
      { session with
        loops := { loop with stage := .received (.error ec) none } :: rest }
  | .ok message =>
      let held : Held := ⟨session.nextId, message⟩
      { session with
        loops := { loop with stage := .received (.ok held) answers } :: rest
        nextId := session.nextId + 1
        atNodes :=
          match answers with
          | none => session.atNodes
          | some input => session.atNodes.erase (loop.node, input)
        results := session.results ++ [(loop.node, held)] }

/-- What each label does in a session that is still running. -/
def act (variant : Variant) (session : Session N) :
    Action N → Option (Session N)
  | .firstMessage result =>
      if session.phase = .awaitingConfig then
        some (session.firstMessage variant result)
      else none
  | .configPiece task count =>
      match task.stage with
      | .sending written =>
          if task ∈ session.configTasks ∧ 0 < count ∧
              written + count ≤ (encode task.config.message).length then
            some { session with
              configTasks := { task with stage := .sending (written + count) } ::
                session.configTasks.erase task }
          else none
      | _ => none
  | .configSendError task ec =>
      match task.stage with
      | .sending written =>
          if task ∈ session.configTasks ∧
              written < (encode task.config.message).length then
            some { session with
              configTasks := { task with stage := .finished (some ec) } ::
                session.configTasks.erase task }
          else none
      | _ => none
  | .configSent task =>
      if task ∈ session.configTasks ∧
          task.stage = .sending (encode task.config.message).length then
        some { session with
          configTasks := { task with stage := .receiving } ::
            session.configTasks.erase task }
      else none
  | .configReply task result =>
      if task ∈ session.configTasks ∧ task.stage = .receiving then
        some (session.configReply task (session.configTasks.erase task) result)
      else none
  | .configHandler task =>
      match task.stage with
      | .finished ec =>
          if task ∈ session.configTasks then
            some (session.configHandler variant task
              (session.configTasks.erase task) ec)
          else none
      | _ => none
  | .configured memory =>
      if session.phase = .configuring ∧ session.configCounter.val = 0 then
        let response : Held :=
          ⟨session.nextId, ValidMessage.newConfigResp memory .success⟩
        some { session with
          phase := .responding response session.user.sends.length
          user := session.user.begin response.message
          nextId := session.nextId + 1 }
      else none
  | .respPiece count =>
      match session.phase with
      | .responding _ ticket =>
          (session.user.piece encode ticket count).map fun user =>
            { session with user := user }
      | _ => none
  | .respError _ =>
      match session.phase with
      | .responding response ticket =>
          if session.user.Done encode ticket then none
          else some { session with
            phase := .returned
            destroyed := response.id :: session.destroyed }
      | _ => none
  | .respSent =>
      match session.phase with
      | .responding response ticket =>
          if session.user.Done encode ticket then
            some (startLoops variant { session with
              destroyed := response.id :: session.destroyed })
          else none
      | _ => none
  | .userMessage result =>
      if session.phase = .receiving then
        session.config.map fun config =>
          session.userMessage variant config result
      else none
  | .drained =>
      if session.phase = .draining ∧ session.dataCounter.val = 0 then
        some { session with
          phase := .stopping
          loops := session.loops.map notify }
      else none
  | .stopped =>
      if session.phase = .stopping ∧ session.nodeReceiverCounter.val = 0 then
        some session.endSession
      else none
  | .inputPiece task count =>
      let written := task.written + count
      let size := (encode task.input.message).length
      if task ∈ session.sendTasks ∧ 0 < count ∧ written ≤ size then
        some { session with
          sendTasks := { task with written := written } ::
            session.sendTasks.erase task
          delivered :=
            if written = size then (task.node, task.input) :: session.delivered
            else session.delivered
          atNodes :=
            if written = size then (task.node, task.input) :: session.atNodes
            else session.atNodes }
      else none
  | .inputSendError task _ =>
      if task ∈ session.sendTasks ∧
          task.written < (encode task.input.message).length then
        some (dispatchInput { session with
          sendTasks := session.sendTasks.erase task
          retired := task.node :: session.retired
          failedSends := task.node :: session.failedSends } task.input false)
      else none
  | .inputSent task =>
      if task ∈ session.sendTasks ∧
          task.written = (encode task.input.message).length then
        some { session with
          sendTasks := session.sendTasks.erase task
          destroyed := task.input.id :: session.destroyed
          pool := session.pool.push variant.discipline task.node }
      else none
  | .resume waiter =>
      if waiter ∈ session.pool.woken then
        match session.pool.resume waiter with
        | none => some { session with fault := some .emptyPop }
        | some (node, pool) => some { session with
            phase := if waiter.byMain then .receiving else session.phase
            pool := pool
            sendTasks := ⟨node, waiter.input, 0⟩ :: session.sendTasks }
      else none
  | .nodeMessage loop result answers =>
      if loop ∈ session.loops ∧ loop.stage = .waiting ∧
          session.MayAnswer loop result answers then
        some (session.nodeMessage loop (session.loops.erase loop) result answers)
      else none
  | .examine loop =>
      match loop.stage with
      | .received result answers =>
          if loop ∈ session.loops then
            session.config.map fun config =>
              session.examine config loop (session.loops.erase loop) result
                answers
          else none
      | _ => none
  | .forwardPiece loop count =>
      match loop.stage with
      | .forwarding _ ticket _ =>
          if loop ∈ session.loops then
            (session.user.piece encode ticket count).map fun user =>
              { session with user := user }
          else none
      | _ => none
  | .forwardError loop _ =>
      match loop.stage with
      | .forwarding held ticket _ =>
          if loop ∈ session.loops ∧ ¬session.user.Done encode ticket then
            some { session with
              loops := { loop with stage := .finished } ::
                session.loops.erase loop
              destroyed := held.id :: session.destroyed }
          else none
      | _ => none
  | .forwardDone loop =>
      match loop.stage with
      | .forwarding held ticket _ =>
          if loop ∈ session.loops ∧ session.user.Done encode ticket then
            some { session with
              loops := { loop with stage := .waiting } ::
                session.loops.erase loop
              destroyed := held.id :: session.destroyed
              dataCounter := session.dataCounter.decr
              completed := session.completed ++ [(loop.node, held)] }
          else none
      | _ => none
  | .loopStopped loop =>
      if loop ∈ session.loops ∧ loop.stage = .notified then
        some { session with
          loops := { loop with stage := .finished } ::
            session.loops.erase loop }
      else none
  | .loopHandler loop =>
      if loop ∈ session.loops ∧ loop.stage = .finished then
        some { session with
          loops := session.loops.erase loop
          nodeReceiverCounter := session.nodeReceiverCounter.decr }
      else none

def step (variant : Variant) (session : Session N) (action : Action N) :
    Option (Session N) :=
  if session.Running then session.act variant action else none

variable {variant : Variant} {session after : Session N}

theorem transition_resume {waiter : Dispatch}
    (h : session.act variant (.resume waiter) = some after) :
    Transition variant session (.resume waiter) after := by
  simp only [act] at h
  split at h
  · next hmem =>
      split at h
      · next hresume =>
          cases h
          exact Transition.resumeEmpty hmem
            (AsyncPool.items_of_resume_none hresume)
      · next node pool hresume =>
          cases h
          exact Transition.resumed hmem
            (AsyncPool.items_of_resume hresume)
            (AsyncPool.waiters_of_resume hmem hresume)
  · cases h

theorem transition_nodeMessage {loop : Loop N} {rest : List (Loop N)}
    (hperm : session.loops ~ loop :: rest) (hstage : loop.stage = .waiting)
    {result : Except ErrorCode ValidMessage} {answers : Option Input}
    (hanswer : session.MayAnswer loop result answers) :
    Transition variant session (.nodeMessage loop result answers)
      (session.nodeMessage loop rest result answers) := by
  cases answers with
  | none =>
      cases result with
      | error ec => exact Transition.nodeError hperm hstage
      | ok message => exact Transition.nodeUnasked hperm hstage rfl
  | some input =>
      obtain ⟨hok, hat⟩ := hanswer input rfl
      cases result with
      | error ec => cases hok
      | ok message =>
          exact Transition.nodeAnswer hperm hstage rfl (List.perm_cons_erase hat)

theorem transition_examine {loop : Loop N}
    (hmem : loop ∈ session.loops) {result : Except ErrorCode Held}
    {answers : Option Input} (hstage : loop.stage = .received result answers)
    {config : Held} (hconfig : session.config = some config) :
    Transition variant session (.examine loop)
      (session.examine config loop (session.loops.erase loop) result answers) := by
  have hperm := List.perm_cons_erase hmem
  cases result with
  | error ec => exact Transition.examineError hperm hstage
  | ok held =>
      simp only [examine]
      split
      · next hdata => exact Transition.examineDivision hmem hstage hconfig hdata
      · next hdata => exact Transition.examineInvalid hperm hstage hconfig hdata
      · next hdata => exact Transition.examineValid hperm hstage hconfig hdata

theorem transition_of_act (hrunning : session.Running) {action : Action N}
    (h : session.act variant action = some after) :
    Transition variant session action after := by
  cases action with
  | firstMessage result =>
      obtain ⟨hphase, heq⟩ := Option.ite_none_right_eq_some.mp h
      cases heq
      exact transition_firstMessage hphase result
  | configPiece task count =>
      simp only [act] at h
      split at h
      · next written hstage =>
          obtain ⟨⟨hmem, hbound⟩, heq⟩ := Option.ite_none_right_eq_some.mp h
          cases heq
          exact Transition.configPiece (List.perm_cons_erase hmem) hstage hbound
      · cases h
  | configSendError task ec =>
      simp only [act] at h
      split at h
      · next written hstage =>
          obtain ⟨⟨hmem, _⟩, heq⟩ := Option.ite_none_right_eq_some.mp h
          cases heq
          exact Transition.configSendError (List.perm_cons_erase hmem) hstage
      · cases h
  | configSent task =>
      obtain ⟨⟨hmem, hstage⟩, heq⟩ := Option.ite_none_right_eq_some.mp h
      cases heq
      exact Transition.configSent (List.perm_cons_erase hmem) hstage
  | configReply task result =>
      obtain ⟨⟨hmem, hstage⟩, heq⟩ := Option.ite_none_right_eq_some.mp h
      cases heq
      exact transition_configReply (List.perm_cons_erase hmem) hstage result
  | configHandler task =>
      simp only [act] at h
      split at h
      · next ec hstage =>
          obtain ⟨hmem, heq⟩ := Option.ite_none_right_eq_some.mp h
          cases heq
          exact transition_configHandler hrunning (List.perm_cons_erase hmem)
            hstage
      · cases h
  | configured memory =>
      obtain ⟨⟨hphase, hzero⟩, heq⟩ := Option.ite_none_right_eq_some.mp h
      cases heq
      exact Transition.configured hphase hzero rfl
  | respPiece count =>
      simp only [act] at h
      split at h
      · next response ticket hphase =>
          obtain ⟨user, hpiece, rfl⟩ := Option.map_eq_some_iff.mp h
          exact Transition.respPiece hphase hpiece
      · cases h
  | respError ec =>
      simp only [act] at h
      split at h
      · next response ticket hphase =>
          obtain ⟨_, heq⟩ := Option.ite_none_left_eq_some.mp h
          cases heq
          exact Transition.respError hphase
      · cases h
  | respSent =>
      simp only [act] at h
      split at h
      · next response ticket hphase =>
          obtain ⟨hdone, heq⟩ := Option.ite_none_right_eq_some.mp h
          cases heq
          exact Transition.respSent hphase hdone
      · cases h
  | userMessage result =>
      obtain ⟨hphase, hmap⟩ := Option.ite_none_right_eq_some.mp h
      obtain ⟨config, hconfig, rfl⟩ := Option.map_eq_some_iff.mp hmap
      exact transition_userMessage hphase hconfig result
  | drained =>
      obtain ⟨⟨hphase, hzero⟩, heq⟩ := Option.ite_none_right_eq_some.mp h
      cases heq
      exact Transition.drained hphase hzero
  | stopped =>
      obtain ⟨⟨hphase, hzero⟩, heq⟩ := Option.ite_none_right_eq_some.mp h
      cases heq
      exact Transition.stopped hphase hzero
  | inputPiece task count =>
      obtain ⟨⟨hmem, hpos, hbound⟩, heq⟩ := Option.ite_none_right_eq_some.mp h
      cases heq
      have hperm := List.perm_cons_erase hmem
      by_cases hwhole : task.written + count =
          (encode task.input.message).length
      · simp only [if_pos hwhole]
        exact Transition.inputWhole hperm hpos hwhole
      · simp only [if_neg hwhole]
        exact Transition.inputPiece hperm hpos (by omega)
  | inputSendError task ec =>
      obtain ⟨⟨hmem, hpart⟩, heq⟩ := Option.ite_none_right_eq_some.mp h
      cases heq
      exact Transition.inputSendError (List.perm_cons_erase hmem) hpart
  | inputSent task =>
      obtain ⟨⟨hmem, hwhole⟩, heq⟩ := Option.ite_none_right_eq_some.mp h
      cases heq
      exact Transition.inputSent (List.perm_cons_erase hmem) hwhole
  | resume waiter => exact transition_resume h
  | nodeMessage loop result answers =>
      obtain ⟨⟨hmem, hstage, hanswer⟩, heq⟩ :=
        Option.ite_none_right_eq_some.mp h
      cases heq
      exact transition_nodeMessage (List.perm_cons_erase hmem) hstage hanswer
  | examine loop =>
      simp only [act] at h
      split at h
      · next result answers hstage =>
          obtain ⟨hmem, hmap⟩ := Option.ite_none_right_eq_some.mp h
          obtain ⟨config, hconfig, rfl⟩ := Option.map_eq_some_iff.mp hmap
          exact transition_examine hmem hstage hconfig
      · cases h
  | forwardPiece loop count =>
      simp only [act] at h
      split at h
      · next held ticket answers hstage =>
          obtain ⟨hmem, hmap⟩ := Option.ite_none_right_eq_some.mp h
          obtain ⟨user, hpiece, rfl⟩ := Option.map_eq_some_iff.mp hmap
          exact Transition.forwardPiece hmem hstage hpiece
      · cases h
  | forwardError loop ec =>
      simp only [act] at h
      split at h
      · next held ticket answers hstage =>
          obtain ⟨⟨hmem, _⟩, heq⟩ := Option.ite_none_right_eq_some.mp h
          cases heq
          exact Transition.forwardError (List.perm_cons_erase hmem) hstage
      · cases h
  | forwardDone loop =>
      simp only [act] at h
      split at h
      · next held ticket answers hstage =>
          obtain ⟨⟨hmem, hdone⟩, heq⟩ := Option.ite_none_right_eq_some.mp h
          cases heq
          exact Transition.forwardDone (List.perm_cons_erase hmem) hstage hdone
      · cases h
  | loopStopped loop =>
      obtain ⟨⟨hmem, hstage⟩, heq⟩ := Option.ite_none_right_eq_some.mp h
      cases heq
      exact Transition.loopStopped (List.perm_cons_erase hmem) hstage
  | loopHandler loop =>
      obtain ⟨⟨hmem, hstage⟩, heq⟩ := Option.ite_none_right_eq_some.mp h
      cases heq
      exact Transition.loopHandler (List.perm_cons_erase hmem) hstage

/-- The inversion of `step`, which no later proof unfolds. -/
theorem transition_of_step {action : Action N}
    (h : session.step variant action = some after) :
    session.Running ∧ Transition variant session action after := by
  obtain ⟨hrunning, hact⟩ := Option.ite_none_right_eq_some.mp h
  exact ⟨hrunning, transition_of_act hrunning hact⟩

/-- The labels with which one node is configured, and the labels from the first
message to the main loop when every node acknowledges the configuration. -/
def acknowledge (config : ValidMessage) (node : N) : List (Action N) :=
  let held : Held := ⟨0, config⟩
  let size := (encode config).length
  [.configPiece ⟨node, held, .sending 0⟩ size,
    .configSent ⟨node, held, .sending size⟩,
    .configReply ⟨node, held, .receiving⟩
      (.ok (.newConfigResp (fun _ => 0) .success)),
    .configHandler ⟨node, held, .finished none⟩]

def configuration (config : ValidMessage) (nodes : List N) : List (Action N) :=
  .firstMessage (.ok config) :: nodes.flatMap (acknowledge config) ++
    [.configured fun _ => 0, .respPiece 9, .respSent]

end Session

end FpgaFramework
