/-
A whole bench: one user, the server's session and its nodes, each as its program
has it.  Messages come in the order in which they were sent, and a connection
fails only once its other end is gone.
-/
import FpgaFramework.BenchSession

namespace FpgaFramework

open scoped List

/-- The first item for the key, and what is left. -/
def takeFor {K M : Type*} [DecidableEq K] (key : K) :
    List (K × M) → Option (M × List (K × M))
  | [] => none
  | entry :: rest =>
      if entry.1 = key then some (entry.2, rest)
      else (takeFor key rest).map fun taken => (taken.1, entry :: taken.2)

theorem takeFor_perm {K M : Type*} [DecidableEq K] {key : K}
    {entries rest : List (K × M)} {item : M}
    (h : takeFor key entries = some (item, rest)) : entries ~ (key, item) :: rest := by
  induction entries generalizing rest with
  | nil => cases h
  | cons entry others ih =>
      rw [takeFor] at h
      by_cases hkey : entry.1 = key
      · rw [if_pos hkey] at h
        cases h
        rw [← hkey]
      · rw [if_neg hkey] at h
        obtain ⟨⟨_, left⟩, htaken, heq⟩ := Option.map_eq_some_iff.mp h
        cases heq
        exact ((ih htaken).cons entry).trans (List.Perm.swap _ _ _)

/-- What `send_message` sends on a connection that does not fail; `none` is its
error for a message that is not valid. -/
def Message.checked (message : Message) : Option ValidMessage :=
  if h : message.isValidMessage = true then some ⟨message, h⟩ else none

theorem Message.checked_of_valid {message : Message}
    (h : message.isValidMessage = true) : message.checked = some ⟨message, h⟩ :=
  dif_pos h

/-- Where the user's `co_main` is.  `failed` is every way in which it ends early. -/
inductive BenchUser.Stage where
  | connected
  | waiting
  | running
  | failed
  | closed
deriving Repr, DecidableEq

/-- Where `sending_loop` is: before its next input, in `send_message`, or at its
end. -/
inductive BenchUser.Sending where
  | delaying
  | sending
  | stopped
deriving Repr, DecidableEq

structure BenchUser where
  stage : BenchUser.Stage
  sending : BenchUser.Sending
  /-- `receiving_loop` waits for a message, or has ended. -/
  receiving : Bool
  currId : UInt32
  messagesSent : Nat
  sendingDone : Bool
  messagesReceived : Nat
  /-- How many messages were taken from the connection. -/
  taken : Nat
  /-- History: inputs written completely, and results that were accepted. -/
  sent : List Frame
  results : List Frame
deriving DecidableEq

namespace BenchUser

open Message

variable (sizes : BenchSizes)

def initial : BenchUser where
  stage := .connected
  sending := .delaying
  receiving := true
  currId := 0
  messagesSent := 0
  sendingDone := false
  messagesReceived := 0
  taken := 0
  sent := []
  results := []

/-- The user's end of the connection is closed. -/
def Gone (user : BenchUser) : Prop :=
  user.stage = .failed ∨ user.stage = .closed

instance (user : BenchUser) : Decidable user.Gone := by
  unfold Gone
  infer_instance

/-- `send_benchmarking_config`, and what it has sent. -/
def sendConfig (memory : Memory) (user : BenchUser) : BenchUser × List ValidMessage :=
  match (benchmarkingConfig sizes memory).bind checked with
  | none => ({ user with stage := .failed }, [])
  | some config => ({ user with stage := .waiting }, [config])

/-- `wait_response` on what it received. -/
def takeResponse (response : Message) (user : BenchUser) : BenchUser :=
  { user with
    stage := if acceptsResponse response then .running else .failed
    taken := user.taken + 1 }

/-- `sending_loop` after its timer, up to its `send_message`. -/
def writeInput (memory : Memory) (t : List UInt8) (user : BenchUser) :
    BenchUser × List ValidMessage :=
  match (newInput sizes memory user.currId t).bind checked with
  | none => ({ user with stage := .failed }, [])
  | some input =>
      ({ user with
        sending := .sending
        sent := user.sent ++ [input.1.frame] }, [input])

/-- `sending_loop` after its `send_message`, `elapsed` microseconds after its
start. -/
def inputSent (elapsed : Nat) (user : BenchUser) : BenchUser :=
  { user with
    messagesSent := user.messagesSent + 1
    currId := user.currId + 1
    sending := if 10 * 1000 * 1000 ≤ elapsed then .stopped else .delaying
    sendingDone := user.sendingDone || decide (10 * 1000 * 1000 ≤ elapsed) }

/-- `receiving_loop` once it has counted a result: its test at the top, and its end. -/
def checkDone (user : BenchUser) : BenchUser :=
  if user.sendingDone = true ∧ user.messagesSent ≤ user.messagesReceived then
    { user with
      receiving := false
      messagesSent := 0
      sendingDone := false }
  else user

/-- `receiving_loop` on what it received. -/
def takeResult (result : Message) (user : BenchUser) : BenchUser :=
  match examine sizes result with
  | some (.accepted _) =>
      checkDone { user with
        messagesReceived := user.messagesReceived + 1
        taken := user.taken + 1
        results := user.results ++ [result.frame] }
  | _ => { user with stage := .failed, taken := user.taken + 1 }

end BenchUser

/-- Where the node's `co_main` is. -/
inductive BenchNode.Stage where
  | connected
  | processing (config : ValidMessage)
  | ended
deriving DecidableEq

/-- What a node sends, and the input, if any, that it answers. -/
structure BenchNode.Reply where
  message : ValidMessage
  answers : Option Input
deriving DecidableEq

namespace BenchNode

open Message

/-- The checks of `config_received`. -/
def takesConfig (config : Message) : Bool :=
  decide ¬(config.inputSize < config.outputSize ∨ config.inputSize < 16 ∨
    config.numBlocks ≠ 0 ∨ config.getRbfSize ≠ 4)

/-- `co_main` on its first message. -/
def takeFirst (memory : Memory) (config : ValidMessage) : Stage × List Reply :=
  if config.1.isValidConfig then
    if takesConfig config.1 then
      (.processing config, [⟨.newConfigResp memory .success, none⟩])
    else (.ended, [⟨.newConfigResp memory .error, none⟩])
  else (.ended, [])

/-- `processing_loop` on a message; `none` for the reply is an error of its
`send_message`, a division by zero, or an access outside of a block. -/
def takeInput (memory : Memory) (config input : ValidMessage) (answers : Option Input) :
    Stage × List Reply :=
  if input.1.isValidData config.1.inputSize = some true then
    match (processInput memory config.1 input.1).bind checked with
    | some output => (.processing config, [⟨output, answers⟩])
    | none => (.ended, [])
  else (.ended, [])

/-- On a connection that does not fail `config_received` answers as the checks
say. -/
theorem configReceived_eq (memory : Memory) {con : Outbound} (hclean : con.Clean)
    (config : Message) :
    ∃ after, configReceived memory con config = (takesConfig config, after) ∧
      after.wire = con.wire ++ (newConfigResp memory
        (if takesConfig config then .success else .error)).asBytes := by
  have hsend : ∀ status, ∃ after, sendConfigResponse memory con status = (none, after) ∧
      after.wire = con.wire ++ (newConfigResp memory status).asBytes := by
    intro status
    rcases con.sendMessage_spec hclean (newConfigResp memory status) with
      ⟨_, after, hsent, _, hwire⟩ | ⟨hbad, _⟩
    · exact ⟨after, hsent, hwire⟩
    · rw [newConfigResp_valid] at hbad
      cases hbad
  by_cases hchecks : config.inputSize < config.outputSize ∨ config.inputSize < 16 ∨
      config.numBlocks ≠ 0 ∨ config.getRbfSize ≠ 4
  · have htakes : takesConfig config = false := decide_eq_false (not_not_intro hchecks)
    obtain ⟨after, hsent, hwire⟩ := hsend .error
    refine ⟨after, ?_, ?_⟩
    · rw [configReceived, if_pos hchecks, hsent, htakes]
    · rw [htakes]
      exact hwire
  · have htakes : takesConfig config = true := decide_eq_true hchecks
    obtain ⟨after, hsent, hwire⟩ := hsend .success
    refine ⟨after, ?_, ?_⟩
    · rw [configReceived, if_neg hchecks, hsent, htakes]
    · rw [htakes]
      exact hwire

/-- The node's replies to what it receives in turn, up to its end. -/
def repliesTo (config : ValidMessage) (memory : Nat → Memory) :
    Nat → List ValidMessage → List ValidMessage
  | _, [] => []
  | messagesReceived, input :: rest =>
      match takeInput (memory messagesReceived) config input none with
      | (.processing _, sent) =>
          sent.map Reply.message ++ repliesTo config memory (messagesReceived + 1) rest
      | (_, sent) => sent.map Reply.message

theorem takeInput_of_checked {memory : Memory} {config input : ValidMessage}
    (hvalid : input.1.isValidData config.1.inputSize = some true)
    {output : Message} (hbuilt : processInput memory config.1 input.1 = some output)
    (houtput : output.isValidMessage = true) (answers : Option Input) :
    takeInput memory config input answers =
      (.processing config, [⟨⟨output, houtput⟩, answers⟩]) := by
  rw [takeInput, if_pos hvalid, hbuilt, Option.bind_some,
    checked_of_valid houtput]

theorem takeInput_of_unchecked {memory : Memory} {config input : ValidMessage}
    (hbuilt : (processInput memory config.1 input.1).bind checked = none)
    (answers : Option Input) :
    takeInput memory config input answers = (.ended, []) := by
  rw [takeInput, hbuilt]
  split <;> rfl

/-- On a connection that does not fail to send, `processing_loop` sends what the node
answers to each message in turn. -/
theorem processingLoop_replies {config : ValidMessage} {memory : Nat → Memory}
    (inbound : Inbound) {outbound : Outbound} (hclean : outbound.Clean)
    (messagesReceived : Nat) :
    (processingLoop config.1 memory inbound outbound messagesReceived).filterMap
        (fun exchange => exchange.2.bind checked) =
      repliesTo config memory messagesReceived (receiver.drain inbound).items := by
  fun_induction processingLoop config.1 memory inbound outbound messagesReceived with
  | case1 inbound _ _ ec after hreceive =>
      rw [receiver.drain_of_error hreceive]
      rfl
  | case2 inbound _ messagesReceived input after hreceive hvalid hbuilt =>
      have hnone : (processInput (memory messagesReceived) config.1 input.1).bind
          checked = none := by
        rw [hbuilt]
        rfl
      rw [receiver.drain_of_ok hreceive, repliesTo, takeInput_of_unchecked hnone]
      rfl
  | case3 inbound outbound messagesReceived input after hreceive hvalid output hbuilt
      ec after' hsent =>
      -- Such a connection refuses nothing but a message that is not valid.
      have hbad : output.isValidMessage = false := by
        rcases outbound.sendMessage_spec hclean output with ⟨_, _, hok, _⟩ | ⟨hbad, _⟩
        · rw [hok] at hsent
          cases hsent
        · exact hbad
      have hunchecked : checked output = none := dif_neg (by simp [hbad])
      have hnone : (processInput (memory messagesReceived) config.1 input.1).bind
          checked = none := by
        rw [hbuilt, Option.bind_some, hunchecked]
      rw [receiver.drain_of_ok hreceive, repliesTo, takeInput_of_unchecked hnone,
        List.filterMap_cons_none (by rw [Option.bind_some, hunchecked])]
      rfl
  | case4 inbound outbound messagesReceived input after hreceive hvalid output hbuilt
      sent hsent ih =>
      obtain ⟨houtput, hafter⟩ : output.isValidMessage = true ∧ sent.Clean := by
        rcases outbound.sendMessage_spec hclean output with
          ⟨hgood, _, hok, hafter, _⟩ | ⟨_, hfault⟩
        · rw [hok] at hsent
          cases hsent
          exact ⟨hgood, hafter⟩
        · rw [hfault] at hsent
          cases hsent
      rw [receiver.drain_of_ok hreceive, repliesTo,
        takeInput_of_checked hvalid hbuilt houtput,
        List.filterMap_cons_some (by rw [Option.bind_some, checked_of_valid houtput]),
        ih hafter]
      rfl
  | case5 inbound _ messagesReceived input after hreceive hinvalid =>
      have hends : takeInput (memory messagesReceived) config input none =
          (.ended, []) := by
        rw [takeInput, if_neg hinvalid]
      rw [receiver.drain_of_ok hreceive, repliesTo, hends]
      rfl

end BenchNode

/-- What the server sends to a node. -/
inductive BenchMail where
  | config (config : Held)
  | input (input : Input)
deriving DecidableEq

namespace BenchMail

def message : BenchMail → ValidMessage
  | .config held => held.message
  | .input held => held.message

/-- The input that an answer to the mail answers. -/
def asked : BenchMail → Option Input
  | .config _ => none
  | .input held => some held

end BenchMail

/-- The parties and what is on the way: from the user to the server, from the
server to the nodes, and from the nodes to the server.  What is on the way to the
user is on the session's stream. -/
structure BenchCluster (N : Type) where
  user : BenchUser
  toServer : List ValidMessage
  session : Session N
  toNodes : List (N × BenchMail)
  nodes : N → BenchNode.Stage
  replies : List (N × BenchNode.Reply)

namespace BenchCluster

open Message

variable {N : Type}

/-- A server that has just passed these nodes to its session. -/
def initial (nodes : List N) (config data receiver : Counter) : BenchCluster N where
  user := .initial
  toServer := []
  session := .initial nodes config data receiver
  toNodes := []
  nodes := fun _ => .connected
  replies := []

/-- What can happen next.  A party that receives names the message object that it
makes of the bytes. -/
inductive Action (N : Type) where
  | sendConfig (memory : Memory)
  | takeResponse (message : ValidMessage)
  | writeInput (memory : Memory) (t : Vector UInt8 8)
  | inputSent (elapsed : Nat)
  | takeResult (message : ValidMessage)
  | userLost
  | close
  | server (action : Session.Action N)
  | node (node : N) (memory : Memory) (message : ValidMessage)
  | nodeLost (node : N)

/-- The next frame on the user's connection. -/
def nextFrame (cluster : BenchCluster N) : Option Frame :=
  cluster.session.reads[cluster.user.taken]?

/-- What reaches a node whole when the server's step puts out its last piece. -/
def sentBy : Session.Action N → List (N × BenchMail)
  | .configPiece task count =>
      match task.stage with
      | .sending written =>
          if written + count = (Session.encode task.config.message).length then
            [(task.node, .config task.config)]
          else []
      | _ => []
  | .inputPiece task count =>
      if task.written + count = (Session.encode task.input.message).length then
        [(task.node, .input task.input)]
      else []
  | _ => []

/-- The server receives from the user. -/
def fromUser (cluster : BenchCluster N) :
    Except ErrorCode ValidMessage → Option (BenchCluster N)
  | .ok message =>
      match cluster.toServer with
      | [] => none
      | next :: rest =>
          if message.1.frame = next.1.frame then some { cluster with toServer := rest }
          else none
  | .error _ =>
      if cluster.toServer = [] ∧ cluster.user.Gone then some cluster else none

variable {cluster after : BenchCluster N}

theorem fromUser_ok {message : ValidMessage}
    (h : cluster.fromUser (.ok message) = some after) :
    ∃ next rest, cluster.toServer = next :: rest ∧
      message.1.frame = next.1.frame ∧ after = { cluster with toServer := rest } := by
  rw [fromUser] at h
  split at h
  · cases h
  · next next rest hto =>
      obtain ⟨hframe, heq⟩ := Option.ite_none_right_eq_some.mp h
      cases heq
      exact ⟨next, rest, hto, hframe, rfl⟩

theorem fromUser_error (ec : ErrorCode)
    (h : cluster.fromUser (.error ec) = some after) :
    cluster.user.Gone ∧ after = cluster := by
  obtain ⟨⟨_, hgone⟩, heq⟩ := Option.ite_none_right_eq_some.mp h
  cases heq
  exact ⟨hgone, rfl⟩

/-- A step of the server that receives from nobody, and does not fail. -/
def isOwn : Session.Action N → Bool
  | .firstMessage _ | .userMessage _ | .configReply _ _ | .nodeMessage _ _ _
  | .configSendError _ _ | .inputSendError _ _ | .respError _ | .forwardError _ _ => false
  | _ => true

/-- The other side of a step of the server, case by case. -/
inductive Other (cluster : BenchCluster N) :
    Session.Action N → BenchCluster N → Prop
  | first {message next : ValidMessage} {rest : List ValidMessage}
      (hto : cluster.toServer = next :: rest)
      (hframe : message.1.frame = next.1.frame) :
      Other cluster (.firstMessage (.ok message)) { cluster with toServer := rest }
  | firstEnd {ec : ErrorCode} (hgone : cluster.user.Gone) :
      Other cluster (.firstMessage (.error ec)) cluster
  | user {message next : ValidMessage} {rest : List ValidMessage}
      (hto : cluster.toServer = next :: rest)
      (hframe : message.1.frame = next.1.frame) :
      Other cluster (.userMessage (.ok message)) { cluster with toServer := rest }
  | userEnd {ec : ErrorCode} (hgone : cluster.user.Gone) :
      Other cluster (.userMessage (.error ec)) cluster
  | configReply {task : ConfigTask N} {message : ValidMessage}
      {reply : BenchNode.Reply} {rest : List (N × BenchNode.Reply)}
      (hperm : cluster.replies ~ (task.node, reply) :: rest)
      (hframe : message.1.frame = reply.message.1.frame) :
      Other cluster (.configReply task (.ok message)) { cluster with replies := rest }
  | configReplyEnd {task : ConfigTask N} {ec : ErrorCode}
      (hended : cluster.nodes task.node = .ended) :
      Other cluster (.configReply task (.error ec)) cluster
  | answer {loop : Loop N} {message : ValidMessage} {reply : BenchNode.Reply}
      {rest : List (N × BenchNode.Reply)}
      (hperm : cluster.replies ~ (loop.node, reply) :: rest)
      (hframe : message.1.frame = reply.message.1.frame) :
      Other cluster (.nodeMessage loop (.ok message) reply.answers)
        { cluster with replies := rest }
  | answerEnd {loop : Loop N} {ec : ErrorCode}
      (hended : cluster.nodes loop.node = .ended) :
      Other cluster (.nodeMessage loop (.error ec) none) cluster
  | configSendError {task : ConfigTask N} {ec : ErrorCode}
      (hended : cluster.nodes task.node = .ended) :
      Other cluster (.configSendError task ec) cluster
  | inputSendError {task : SendTask N} {ec : ErrorCode}
      (hended : cluster.nodes task.node = .ended) :
      Other cluster (.inputSendError task ec) cluster
  | respError {ec : ErrorCode} (hgone : cluster.user.Gone) :
      Other cluster (.respError ec) cluster
  | forwardError {loop : Loop N} {ec : ErrorCode} (hgone : cluster.user.Gone) :
      Other cluster (.forwardError loop ec) cluster
  | own {action : Session.Action N} (hown : isOwn action = true) :
      Other cluster action
        { cluster with toNodes := cluster.toNodes ++ sentBy action }

variable [DecidableEq N]

/-- The server receives from a node, and what it receives answers an input or not. -/
def fromNode (cluster : BenchCluster N) (node : N) :
    Except ErrorCode ValidMessage → Option (Option Input × BenchCluster N)
  | .ok message =>
      match takeFor node cluster.replies with
      | none => none
      | some (reply, rest) =>
          if message.1.frame = reply.message.1.frame then
            some (reply.answers, { cluster with replies := rest })
          else none
  | .error _ => if cluster.nodes node = .ended then some (none, cluster) else none

/-- The other side of a step of the server; `none` where it cannot be. -/
def other (cluster : BenchCluster N) : Session.Action N → Option (BenchCluster N)
  | .firstMessage result => cluster.fromUser result
  | .userMessage result => cluster.fromUser result
  | .configReply task result => (cluster.fromNode task.node result).map Prod.snd
  | .nodeMessage loop result answers =>
      (cluster.fromNode loop.node result).bind fun received =>
        if answers = received.1 then some received.2 else none
  | .configSendError task _ =>
      if cluster.nodes task.node = .ended then some cluster else none
  | .inputSendError task _ =>
      if cluster.nodes task.node = .ended then some cluster else none
  | .respError _ => if cluster.user.Gone then some cluster else none
  | .forwardError _ _ => if cluster.user.Gone then some cluster else none
  | action => some { cluster with toNodes := cluster.toNodes ++ sentBy action }

/-- A node on a message. -/
def onMessage (cluster : BenchCluster N) (node : N) (memory : Memory)
    (message : ValidMessage) (answers : Option Input) :
    BenchNode.Stage × List BenchNode.Reply :=
  match cluster.nodes node with
  | .connected => BenchNode.takeFirst memory message
  | .processing config => BenchNode.takeInput memory config message answers
  | .ended => (.ended, [])

def step (variant : Variant) (sizes : BenchSizes) (cluster : BenchCluster N) :
    Action N → Option (BenchCluster N)
  | .sendConfig memory =>
      let next := cluster.user.sendConfig sizes memory
      if cluster.user.stage = .connected then
        some { cluster with user := next.1, toServer := cluster.toServer ++ next.2 }
      else none
  | .takeResponse message =>
      if cluster.user.stage = .waiting ∧ cluster.nextFrame = some message.1.frame then
        some { cluster with user := cluster.user.takeResponse message.1 }
      else none
  | .writeInput memory t =>
      let next := cluster.user.writeInput sizes memory t.toList
      if cluster.user.stage = .running ∧ cluster.user.sending = .delaying then
        some { cluster with user := next.1, toServer := cluster.toServer ++ next.2 }
      else none
  | .inputSent elapsed =>
      if cluster.user.stage = .running ∧ cluster.user.sending = .sending then
        some { cluster with user := cluster.user.inputSent elapsed }
      else none
  | .takeResult message =>
      if cluster.user.stage = .running ∧ cluster.user.receiving = true ∧
          cluster.nextFrame = some message.1.frame then
        some { cluster with user := cluster.user.takeResult sizes message.1 }
      else none
  | .userLost =>
      if ¬cluster.user.Gone ∧ cluster.session.phase = .returned then
        some { cluster with user := { cluster.user with stage := .failed } }
      else none
  | .close =>
      if cluster.user.stage = .running ∧ cluster.user.sending = .stopped ∧
          cluster.user.receiving = false then
        some { cluster with user := { cluster.user with stage := .closed } }
      else none
  | .server action =>
      (cluster.other action).bind fun after =>
        (cluster.session.step variant action).map fun session =>
          { after with session := session }
  | .node node memory message =>
      match takeFor node cluster.toNodes with
      | none => none
      | some (mail, rest) =>
          let next := cluster.onMessage node memory message mail.asked
          if cluster.nodes node ≠ .ended ∧ message.1.frame = mail.message.1.frame then
            some { cluster with
              toNodes := rest
              nodes := Function.update cluster.nodes node next.1
              replies := cluster.replies ++ next.2.map fun reply => (node, reply) }
          else none
  | .nodeLost node =>
      if cluster.session.phase = .returned then
        some { cluster with nodes := Function.update cluster.nodes node .ended }
      else none

theorem fromNode_ok {node : N} {message : ValidMessage} {asked : Option Input}
    (h : cluster.fromNode node (.ok message) = some (asked, after)) :
    ∃ reply rest, cluster.replies ~ (node, reply) :: rest ∧
      message.1.frame = reply.message.1.frame ∧ asked = reply.answers ∧
        after = { cluster with replies := rest } := by
  rw [fromNode] at h
  split at h
  · cases h
  · next reply rest htake =>
      obtain ⟨hframe, heq⟩ := Option.ite_none_right_eq_some.mp h
      cases heq
      exact ⟨reply, rest, takeFor_perm htake, hframe, rfl, rfl⟩

theorem fromNode_error {node : N} (ec : ErrorCode) {asked : Option Input}
    (h : cluster.fromNode node (.error ec) = some (asked, after)) :
    cluster.nodes node = .ended ∧ asked = none ∧ after = cluster := by
  obtain ⟨hended, heq⟩ := Option.ite_none_right_eq_some.mp h
  cases heq
  exact ⟨hended, rfl, rfl⟩

theorem other_cases {action : Session.Action N}
    (h : cluster.other action = some after) : cluster.Other action after := by
  cases action with
  | firstMessage result =>
      cases result with
      | ok message =>
          obtain ⟨next, rest, hto, hframe, rfl⟩ := fromUser_ok h
          exact Other.first hto hframe
      | error ec =>
          obtain ⟨hgone, rfl⟩ := fromUser_error ec h
          exact Other.firstEnd hgone
  | userMessage result =>
      cases result with
      | ok message =>
          obtain ⟨next, rest, hto, hframe, rfl⟩ := fromUser_ok h
          exact Other.user hto hframe
      | error ec =>
          obtain ⟨hgone, rfl⟩ := fromUser_error ec h
          exact Other.userEnd hgone
  | configReply task result =>
      obtain ⟨⟨asked, _⟩, hfrom, rfl⟩ := Option.map_eq_some_iff.mp h
      cases result with
      | ok message =>
          obtain ⟨reply, rest, hperm, hframe, _, rfl⟩ := fromNode_ok hfrom
          exact Other.configReply hperm hframe
      | error ec =>
          obtain ⟨hended, _, rfl⟩ := fromNode_error ec hfrom
          exact Other.configReplyEnd hended
  | nodeMessage loop result answers =>
      obtain ⟨⟨asked, _⟩, hfrom, hreceived⟩ := Option.bind_eq_some_iff.mp h
      obtain ⟨rfl, heq⟩ := Option.ite_none_right_eq_some.mp hreceived
      cases heq
      cases result with
      | ok message =>
          obtain ⟨reply, rest, hperm, hframe, rfl, rfl⟩ := fromNode_ok hfrom
          exact Other.answer hperm hframe
      | error ec =>
          obtain ⟨hended, rfl, rfl⟩ := fromNode_error ec hfrom
          exact Other.answerEnd hended
  | configSendError task ec =>
      obtain ⟨hended, heq⟩ := Option.ite_none_right_eq_some.mp h
      cases heq
      exact Other.configSendError hended
  | inputSendError task ec =>
      obtain ⟨hended, heq⟩ := Option.ite_none_right_eq_some.mp h
      cases heq
      exact Other.inputSendError hended
  | respError ec =>
      obtain ⟨hgone, heq⟩ := Option.ite_none_right_eq_some.mp h
      cases heq
      exact Other.respError hgone
  | forwardError loop ec =>
      obtain ⟨hgone, heq⟩ := Option.ite_none_right_eq_some.mp h
      cases heq
      exact Other.forwardError hgone
  | _ =>
      cases h
      exact Other.own rfl

/-- No piece is put on the user's connection while another message is partly on it. -/
def WritesAlone (cluster : BenchCluster N) : Action N → Prop
  | .server action => cluster.session.WritesAlone action
  | _ => True

instance (cluster : BenchCluster N) (action : Action N) :
    Decidable (cluster.WritesAlone action) :=
  match action with
  | .server action => inferInstanceAs (Decidable (cluster.session.WritesAlone action))
  | .sendConfig _ | .takeResponse _ | .writeInput _ _ | .inputSent _ | .takeResult _
  | .userLost | .close | .node _ _ _ | .nodeLost _ => .isTrue True.intro

end BenchCluster

end FpgaFramework
