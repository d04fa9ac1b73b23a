/-
One user session on the server.  The state that the coroutines of a `User`
share, where each coroutine is suspended, and the history that the results
about whole runs speak of.  Coroutines run one at a time between suspension
points, so a step is what one coroutine does up to its next suspension, or the
progress of one pending transfer.
-/
import FpgaFramework.AsyncPool
import FpgaFramework.Connection
import FpgaFramework.Counter
import FpgaFramework.SharedStream

namespace FpgaFramework

/-- `User_Queue.hpp` and `User_Stack.hpp`. -/
inductive Variant where
  | queue
  | stack
deriving Repr, DecidableEq

def Variant.discipline : Variant → Discipline
  | .queue => .queue
  | .stack => .stack

/-- A message object on the heap; every object gets its own `id`. -/
structure Held where
  id : Nat
  message : ValidMessage
deriving DecidableEq

/-- A message that the main loop accepted as an input, with the configuration
it was checked against. -/
structure Input extends Held where
  config : ValidMessage
deriving DecidableEq

/-- A suspended `_dispatch_input`: the main loop's own call, or one made after a
failed send. -/
structure Dispatch where
  input : Input
  byMain : Bool
deriving DecidableEq

/-- Where a `_configure_node` coroutine is.  `finished` still has its completion
handler to run. -/
inductive ConfigStage where
  | sending (written : Nat)
  | receiving
  | finished (ec : Option ErrorCode)
deriving DecidableEq

structure ConfigTask (N : Type) where
  node : N
  config : Held
  stage : ConfigStage
deriving DecidableEq

/-- A `_send_input_to_node` coroutine and how much of the input it has sent. -/
structure SendTask (N : Type) where
  node : N
  input : Input
  written : Nat
deriving DecidableEq

/-- Where a `_receiver_loop` coroutine is.  `received` holds the outcome of the
receive, not yet examined, and the input that the node answers with it;
`notified` has lost its wait to the stop event; `finished` still has its
completion handler to run. -/
inductive LoopStage where
  | waiting
  | received (result : Except ErrorCode Held) (answers : Option Input)
  | forwarding (result : Held) (ticket : Nat) (answers : Option Input)
  | notified
  | finished
deriving DecidableEq

/-- The ticket under which a receiver loop forwards a result. -/
def LoopStage.ticket : LoopStage → Option Nat
  | .forwarding _ ticket _ => some ticket
  | _ => none

structure Loop (N : Type) where
  node : N
  stage : LoopStage
deriving DecidableEq

/-- Where `User::start` is. -/
inductive Phase where
  | awaitingConfig
  | configuring
  | responding (response : Held) (ticket : Nat)
  | receiving
  | dispatching
  | draining
  | stopping
  | returned
deriving DecidableEq

/-- The ticket under which `start` sends its response. -/
def Phase.ticket : Phase → Option Nat
  | .responding _ ticket => some ticket
  | _ => none

/-- `start` has not reached the receiver loops. -/
def Phase.beforeLoops : Phase → Bool
  | .awaitingConfig | .configuring | .responding _ _ => true
  | _ => false

/-- `start` is in `_main_loop`. -/
def Phase.mainLoop : Phase → Bool
  | .receiving | .dispatching | .draining | .stopping => true
  | _ => false

/-- `start` has stored its first configuration and no second one. -/
def Phase.firstConfig : Phase → Bool
  | .configuring | .responding _ _ | .receiving | .dispatching => true
  | _ => false

/-- What makes every later step meaningless: `front()` of an empty container,
a division by zero, and `config_counter` used after its frame is gone. -/
inductive Fault where
  | emptyPop
  | divisionByZero
  | deadCounter
deriving Repr, DecidableEq

structure Session (N : Type) where
  /-- `start`'s argument, until its nodes are pushed. -/
  nodes : List N
  phase : Phase
  /-- `_config`. -/
  config : Option Held
  /-- `_nodes_queue` or `_nodes_stack`. -/
  pool : AsyncPool N Dispatch
  /-- `config_counter`, `_data_counter` and `_node_receiver_counter`. -/
  configCounter : Counter
  dataCounter : Counter
  nodeReceiverCounter : Counter
  configTasks : List (ConfigTask N)
  sendTasks : List (SendTask N)
  loops : List (Loop N)
  /-- The sending direction of `_con`. -/
  user : SharedStream ValidMessage UInt8
  fault : Option Fault
  /-- Message objects made so far, and those destroyed or no longer held. -/
  nextId : Nat
  destroyed : List Nat
  leaked : List Nat
  /-- History: configurations and inputs accepted by the server. -/
  acceptedConfigs : List Held
  accepted : List Input
  /-- History: nodes that acknowledged a configuration, and nodes that failed. -/
  acknowledged : List (N × Held)
  retired : List N
  failedSends : List N
  /-- History: inputs written completely to a node, and those among them that
  the node has not answered. -/
  delivered : List (N × Input)
  atNodes : List (N × Input)
  /-- History: messages received by receiver loops, those handed to the user's
  connection, and those sent completely. -/
  results : List (N × Held)
  forwarded : List (N × Held)
  completed : List (N × Held)
deriving DecidableEq

namespace Session

variable {N : Type}

/-- The bytes that `send_message` writes. -/
def encode (message : ValidMessage) : List UInt8 := message.1.asBytes

/-- A session about to be started on these nodes.  The counters hold whatever
their memory held. -/
def initial (nodes : List N) (config data receiver : Counter) : Session N where
  nodes := nodes
  phase := .awaitingConfig
  config := none
  pool := .empty
  configCounter := config
  dataCounter := data
  nodeReceiverCounter := receiver
  configTasks := []
  sendTasks := []
  loops := []
  user := .empty
  fault := none
  nextId := 0
  destroyed := []
  leaked := []
  acceptedConfigs := []
  accepted := []
  acknowledged := []
  retired := []
  failedSends := []
  delivered := []
  atNodes := []
  results := []
  forwarded := []
  completed := []

/-! What the coroutines do between two suspension points. -/

/-- `start` with a valid first configuration, up to the wait of
`_configure_nodes`: push the nodes, then pop each and spawn its
`_configure_node`. -/
def configureNodes (variant : Variant) (session : Session N)
    (message : ValidMessage) : Session N :=
  let config : Held := ⟨session.nextId, message⟩
  let ready := (session.pool.pushAll variant.discipline session.nodes).popAll
  { session with
    nodes := []
    phase := .configuring
    config := some config
    pool := ready.2
    configCounter := session.configCounter.incrs ready.1.length
    configTasks :=
      (ready.1.map fun node => ⟨node, config, .sending 0⟩) ++
        session.configTasks
    nextId := session.nextId + 1
    acceptedConfigs := session.acceptedConfigs ++ [config] }

/-- `start` once `_configure_nodes` returned true, up to the first receive of
`_main_loop`: pop every ready node, start its receiver loop and push it back. -/
def startLoops (variant : Variant) (session : Session N) : Session N :=
  let ready := session.pool.popAll
  { session with
    phase := .receiving
    pool := ready.2.pushAll variant.discipline ready.1
    nodeReceiverCounter := session.nodeReceiverCounter.incrs ready.1.length
    loops := (ready.1.map fun node => ⟨node, .waiting⟩) ++ session.loops }

/-- `_dispatch_input`, up to its suspension or to the spawned
`_send_input_to_node`. -/
def dispatchInput (session : Session N) (input : Input) (byMain : Bool) :
    Session N :=
  let popped := session.pool.asyncPop ⟨input, byMain⟩
  { session with
    phase :=
      if byMain ∧ popped.1.isNone then .dispatching else session.phase
    pool := popped.2
    sendTasks :=
      (popped.1.toList.map fun node => ⟨node, input, 0⟩) ++
        session.sendTasks }

/-- A dispatch finds a ready node or waits for one. -/
theorem dispatchInput_cases (session : Session N) (input : Input)
    (byMain : Bool) :
    (∃ node pool, session.pool.items = node :: pool.items ∧
        pool.waiters = session.pool.waiters ∧
        session.dispatchInput input byMain =
          { session with
            pool := pool
            sendTasks := ⟨node, input, 0⟩ :: session.sendTasks }) ∨
      ∃ pool, session.pool.items = [] ∧ pool.items = [] ∧
        pool.waiters = session.pool.waiters ++ [⟨input, byMain⟩] ∧
        session.dispatchInput input byMain =
          { session with
            pool := pool
            phase := if byMain then .dispatching else session.phase } := by
  cases hitems : session.pool.items with
  | nil =>
      refine Or.inr ⟨{ session.pool with
        suspended := session.pool.suspended ++ [⟨input, byMain⟩] },
        rfl, hitems, ?_, ?_⟩
      · simp [AsyncPool.waiters]
      · simp [dispatchInput, AsyncPool.asyncPop, hitems]
  | cons node rest =>
      refine Or.inl ⟨node, { session.pool with items := rest }, rfl, rfl, ?_⟩
      simp [dispatchInput, AsyncPool.asyncPop, hitems]

/-- `_main_loop` on a message that is an input. -/
def acceptInput (session : Session N) (config : Held) (message : ValidMessage) :
    Session N :=
  let input : Input := ⟨⟨session.nextId, message⟩, config.message⟩
  dispatchInput
    { session with
      dataCounter := session.dataCounter.incr
      nextId := session.nextId + 1
      accepted := session.accepted ++ [input] } input true

/-- `_main_loop` on a new configuration, up to the wait for the inputs. -/
def acceptConfig (session : Session N) (old : Held) (message : ValidMessage) :
    Session N :=
  let config : Held := ⟨session.nextId, message⟩
  { session with
    phase := .draining
    config := some config
    nextId := session.nextId + 1
    destroyed := old.id :: session.destroyed
    acceptedConfigs := session.acceptedConfigs ++ [config] }

/-- A message that `_main_loop` neither dispatches nor stores nor destroys. -/
def dropMessage (session : Session N) : Session N :=
  { session with
    nextId := session.nextId + 1
    leaked := session.nextId :: session.leaked }

/-- `start` after `_main_loop` returned. -/
def endSession (session : Session N) : Session N :=
  { session with
    phase := .returned
    config := none
    destroyed := (session.config.toList.map Held.id) ++ session.destroyed }

/-- `_stop_receiving_ev.notify_all()`, for one loop. -/
def notify (loop : Loop N) : Loop N :=
  match loop.stage with
  | .waiting => { loop with stage := .notified }
  | _ => loop

@[simp] theorem node_notify (loop : Loop N) : (notify loop).node = loop.node := by
  unfold notify
  split <;> rfl

end Session

end FpgaFramework
