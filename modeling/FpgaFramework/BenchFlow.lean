/-
What a session in a bench takes from the other parties and gives to them, step by
step: the user's messages in order, configurations and inputs to the nodes, and
their replies.
-/
import FpgaFramework.BenchCluster
import FpgaFramework.SessionConfigurations

namespace FpgaFramework

open scoped List

namespace Session

variable {N : Type} {variant : Variant} {sizes : BenchSizes}
  {session after : Session N} {action : Action N}

/-! The stream to the user. -/

theorem Transition.length_sends (h : Transition variant session action after) :
    session.user.sends.length ≤ after.user.sends.length := by
  cases h with
  | configured | examineValid =>
      simp only [SharedStream.begin, List.length_append]
      omega
  | respPiece _ hpiece | forwardPiece _ _ hpiece =>
      obtain ⟨_, _, _, _, _, hsends⟩ := SharedStream.piece_eq_some hpiece
      rw [hsends, List.length_set]
  | _ => exact Nat.le_refl _

/-- Receiver loops forward under tickets that the user's stream has given out. -/
def Ticketed (session : Session N) : Prop :=
  ∀ loop ∈ session.loops, ∀ ticket ∈ loop.stage.ticket,
    ticket < session.user.sends.length

theorem Ticketed.transition (hinv : session.Ticketed)
    (h : Transition variant session action after) : after.Ticketed := by
  have hold : ∀ loop ∈ session.loops, ∀ ticket ∈ loop.stage.ticket,
      ticket < after.user.sends.length := fun loop hmem ticket hticket =>
    Nat.lt_of_lt_of_le (hinv loop hmem ticket hticket) h.length_sends
  have hidle : ∀ {loop : Loop N} {stage : LoopStage} {rest : List (Loop N)},
      session.loops ~ loop :: rest → stage.ticket = none →
        ∀ other ∈ { loop with stage := stage } :: rest,
          ∀ ticket ∈ other.stage.ticket, ticket < after.user.sends.length := by
    intro loop stage rest hperm hstage
    refine forall_moved hold hperm fun _ ticket hticket => ?_
    rw [hstage] at hticket
    cases hticket
  cases h with
  | respSent =>
      intro loop hmem
      rcases List.mem_append.mp hmem with hnew | hother
      · obtain ⟨node, _, rfl⟩ := List.mem_map.mp hnew
        intro ticket hticket
        cases hticket
      · exact hold loop hother
  | drained =>
      intro loop hmem
      obtain ⟨other, hother, rfl⟩ := List.mem_map.mp hmem
      intro ticket hticket
      apply hold other hother
      rw [notify] at hticket
      split at hticket
      · cases hticket
      · exact hticket
  | nodeError hperm | nodeUnasked hperm | nodeAnswer hperm | examineError hperm
  | examineInvalid hperm | forwardError hperm | forwardDone hperm
  | loopStopped hperm => exact hidle hperm rfl
  | examineValid hperm =>
      refine forall_moved hold hperm fun _ ticket hticket => ?_
      cases hticket
      simp [SharedStream.begin]
  | loopHandler hperm => exact forall_rest hold hperm
  | _ => exact hold

/-- A user that has read as many messages as were handed over has read all of
each. -/
theorem Readable.all_done (hread : session.Readable)
    (hall : session.user.sends.length ≤ session.reads.length) {ticket : Nat}
    (hlt : ticket < session.user.sends.length) :
    session.user.Done encode ticket := by
  obtain ⟨order, hnodup, hdone, hcase⟩ := hread.settled
  have hrow : (session.user.pick order).flatMap encode =
      order.flatMap (session.user.bytesOf encode) := session.user.flatMap_pick order
  have hreads : session.reads =
      (session.user.pick order).map fun message => message.1.frame := by
    rcases hcase with ⟨hwire, _⟩ | ⟨_, transfer, _, htorn, _, hwire⟩
    · have hdrain := frames_drain_flatMap (session.user.pick order)
      rw [hrow, ← hwire] at hdrain
      rw [reads, hdrain]
    · have hdrain := frames_drain_append
        (parseFrame_take transfer.message.2 htorn.2) (session.user.pick order)
      rw [hrow] at hdrain
      rw [reads, hwire]
      exact congrArg Drained.items hdrain
  have hsub : order ⊆ List.range session.user.sends.length := by
    intro other hmem
    exact List.mem_range.mpr (hdone other hmem).lt_length
  have hlength : session.user.sends.length ≤ order.length := by
    rw [hreads, List.length_map] at hall
    exact hall.trans (List.length_filterMap_le _ _)
  have hperm : order ~ List.range session.user.sends.length := by
    apply (hnodup.subperm hsub).perm_of_length_le
    rw [List.length_range]
    exact hlength
  exact hdone ticket (hperm.mem_iff.mpr (List.mem_range.mpr hlt))

/-- A user reads no more messages than were handed over. -/
theorem Readable.length_reads_le (hread : session.Readable) :
    session.reads.length ≤ session.user.sends.length := by
  obtain ⟨_, picked, hpicked, hreads, _⟩ := hread.reads_eq
  have hlength := hpicked.length_le
  rwa [SharedStream.messages, List.length_map, ← List.length_map
    (fun message : ValidMessage => message.1.frame), ← hreads] at hlength

/-- A send to the user fails before the message is out. -/
theorem not_done_of_forwardError [DecidableEq N] {loop : Loop N} {ec : ErrorCode}
    (h : session.step variant (.forwardError loop ec) = some after) :
    loop ∈ session.loops ∧
      ∃ ticket ∈ loop.stage.ticket, ¬session.user.Done encode ticket := by
  obtain ⟨_, hact⟩ := Option.ite_none_right_eq_some.mp h
  simp only [act] at hact
  split at hact
  · next held ticket answers hstage =>
      obtain ⟨⟨hmem, hnot⟩, _⟩ := Option.ite_none_right_eq_some.mp hact
      exact ⟨hmem, ticket, by rw [hstage]; rfl, hnot⟩
  · cases hact

theorem not_done_of_respError [DecidableEq N] {ec : ErrorCode}
    (h : session.step variant (.respError ec) = some after) :
    ∃ response ticket, session.phase = .responding response ticket ∧
      ¬session.user.Done encode ticket := by
  obtain ⟨_, hact⟩ := Option.ite_none_right_eq_some.mp h
  simp only [act] at hact
  split at hact
  · next response ticket hphase =>
      obtain ⟨hnot, _⟩ := Option.ite_none_left_eq_some.mp hact
      exact ⟨response, ticket, hphase, hnot⟩
  · cases hact

/-! What comes from the user. -/

/-- The frame that the step takes from the user. -/
def took : Action N → List Frame
  | .firstMessage (.ok message) => [message.1.frame]
  | .userMessage (.ok message) => [message.1.frame]
  | _ => []

/-- The frames of all configurations and inputs that were accepted. -/
def takenFrames (session : Session N) : List Frame :=
  session.acceptedConfigs.map (fun config => config.message.1.frame) ++
    session.accepted.map fun input => input.message.1.frame

theorem noneAccepted_transition (hnone : session.BeforeLoops → session.accepted = [])
    (h : Transition variant session action after) :
    after.BeforeLoops → after.accepted = [] := by
  intro hbefore
  have hold := hnone (h.to_before hbefore)
  cases h with
  | userInput hphase =>
      have hlate : ¬session.BeforeLoops := by
        simp [BeforeLoops, hphase, Phase.beforeLoops]
      exact absurd hbefore (not_before_ite rfl hlate)
  | _ => exact hold

theorem BenchInv.takenFrames_transition (hinv : BenchInv sizes session)
    (hnone : session.BeforeLoops → session.accepted = [])
    (hserves : BenchServes sizes action)
    (h : Transition variant session action after) :
    after.takenFrames = session.takenFrames ++ took action := by
  have hsame : session.takenFrames = session.takenFrames ++ [] :=
    (List.append_nil _).symm
  cases h with
  | firstError =>
      obtain ⟨_, hok, _⟩ := hserves
      cases hok
  | firstInvalid _ hinvalid =>
      rw [(isValidConfig_of_firstMessage hserves).2] at hinvalid
      cases hinvalid
  | firstConfig hphase =>
      have haccepted := hnone (beforeLoops_of_awaiting hphase)
      simp [takenFrames, configureNodes, haccepted, took]
  | userDivision _ hconfig hdata | userConfig _ hconfig hdata
  | userInvalidQueue _ _ hconfig hdata | userInvalidStack _ _ hconfig hdata =>
      rw [hinv.no_second hserves hconfig] at hdata
      cases hdata
  | userInput =>
      simp only [takenFrames, acceptInput, dispatchInput, List.map_append,
        List.map_cons, List.map_nil, List.append_assoc, took]
  | _ => exact hsame

/-! What goes to the nodes and comes back. -/

/-- The node of a task that has not sent all of its configuration, and of one that
has and waits for the reply. -/
def ConfigTask.unsent (task : ConfigTask N) : List N :=
  match task.stage with
  | .sending written =>
      if written = (encode task.config.message).length then [] else [task.node]
  | _ => []

def ConfigTask.awaiting (task : ConfigTask N) : List N :=
  match task.stage with
  | .sending written =>
      if written = (encode task.config.message).length then [task.node] else []
  | .receiving => [task.node]
  | .finished _ => []

/-- The nodes that no configuration has been sent to, and those that have not
replied to it. -/
def unsentNodes (session : Session N) : List N :=
  session.nodes ++ session.configTasks.flatMap ConfigTask.unsent

def awaitingNodes (session : Session N) : List N :=
  session.configTasks.flatMap ConfigTask.awaiting

/-- The node that the step takes a reply to the configuration from, and the node and
input that it takes an answer of. -/
def repliedBy : Action N → List N
  | .configReply task _ => [task.node]
  | _ => []

def answeredBy : Action N → List (N × Input)
  | .nodeMessage loop _ (some input) => [(loop.node, input)]
  | _ => []

end Session

namespace BenchMail

variable {N : Type}

/-- The nodes that a configuration is on the way to, and the inputs on the way. -/
def configs (mail : List (N × BenchMail)) : List N :=
  mail.flatMap fun entry =>
    match entry.2 with
    | .config _ => [entry.1]
    | .input _ => []

def inputs (mail : List (N × BenchMail)) : List (N × Input) :=
  mail.flatMap fun entry => entry.2.asked.toList.map fun input => (entry.1, input)

end BenchMail

namespace BenchNode.Reply

variable {N : Type}

/-- The nodes whose reply to the configuration is on the way, and the inputs whose
answer is. -/
def configs (replies : List (N × Reply)) : List N :=
  replies.flatMap fun entry =>
    match entry.2.answers with
    | none => [entry.1]
    | some _ => []

def inputs (replies : List (N × Reply)) : List (N × Input) :=
  replies.flatMap fun entry => entry.2.answers.toList.map fun input => (entry.1, input)

/-- What a node of the bench sends: it accepts the configuration, or answers with the
result. -/
def Good (sizes : BenchSizes) (reply : Reply) : Prop :=
  match reply.answers with
  | none => reply.message.1.frame = Session.responseFrame
  | some input => Session.BenchResult sizes input.message reply.message

end BenchNode.Reply

namespace Session

open BenchCluster (sentBy)

variable {N : Type} {variant : Variant} {sizes : BenchSizes}
  {session after : Session N} {action : Action N}

/-- A task that moves on with the same nodes in either place. -/
theorem flatMap_moved {T U : Type} {list rest : List T} {item moved : T}
    (hperm : list ~ item :: rest) (f : T → List U) (hsame : f moved = f item) :
    list.flatMap f ~ (moved :: rest).flatMap f := by
  rw [List.flatMap_cons, hsame, ← List.flatMap_cons]
  exact hperm.flatMap_right f

theorem flatMap_rest {T U : Type} {list rest : List T} {item : T}
    (hperm : list ~ item :: rest) (f : T → List U) (hnone : f item = []) :
    list.flatMap f ~ rest.flatMap f := by
  have hall := hperm.flatMap_right f
  rwa [List.flatMap_cons, hnone, List.nil_append] at hall

theorem unsent_new (config : Held) (nodes : List N) :
    ((nodes.map fun node => (⟨node, config, .sending 0⟩ : ConfigTask N)).flatMap
      ConfigTask.unsent) = nodes := by
  have hpos := encode_length_pos config.message
  have hone : ∀ node : N,
      ConfigTask.unsent ⟨node, config, .sending 0⟩ = [node] := by
    intro node
    simp only [ConfigTask.unsent]
    exact if_neg (Nat.ne_of_lt hpos)
  induction nodes with
  | nil => rfl
  | cons node rest ih =>
      rw [List.map_cons, List.flatMap_cons, ih, hone, List.singleton_append]

theorem awaiting_new (config : Held) (nodes : List N) :
    ((nodes.map fun node => (⟨node, config, .sending 0⟩ : ConfigTask N)).flatMap
      ConfigTask.awaiting) = [] := by
  have hpos := encode_length_pos config.message
  have hnone : ∀ node : N,
      ConfigTask.awaiting ⟨node, config, .sending 0⟩ = [] := by
    intro node
    simp only [ConfigTask.awaiting]
    exact if_neg (Nat.ne_of_lt hpos)
  induction nodes with
  | nil => rfl
  | cons node rest ih =>
      rw [List.map_cons, List.flatMap_cons, ih, hnone, List.nil_append]

/-- A configuration is on its way once its last piece is out. -/
theorem Transition.unsentNodes (hearly : session.Early)
    (hserves : BenchServes sizes action)
    (h : Transition variant session action after) :
    session.unsentNodes ~ BenchMail.configs (sentBy action) ++ after.unsentNodes := by
  cases h with
  | firstConfig hphase =>
      have hitems := AsyncPool.items_pushAll_perm variant.discipline session.pool
        session.nodes
      rw [hearly.noItems hphase, List.nil_append] at hitems
      simp only [Session.unsentNodes, configureNodes, hearly.noConfigTasks hphase,
        List.append_nil, unsent_new, AsyncPool.popAll, sentBy]
      simpa [BenchMail.configs] using hitems.symm
  | @configPiece task rest written count hperm hstage hbound =>
      by_cases hwhole : written + count = (encode task.config.message).length
      · have hmoved : ConfigTask.unsent
            { task with stage := .sending (written + count) } = [] := if_pos hwhole
        have hold : ConfigTask.unsent task = [task.node] := by
          simp only [ConfigTask.unsent, hstage]
          exact if_neg (by omega)
        have hall := hperm.flatMap_right ConfigTask.unsent
        rw [List.flatMap_cons, hold] at hall
        simp only [sentBy, hstage, if_pos hwhole, Session.unsentNodes,
          List.flatMap_cons, hmoved, List.nil_append]
        exact (hall.append_left _).trans List.perm_middle
      · have hmoved : ConfigTask.unsent
            { task with stage := .sending (written + count) } =
              ConfigTask.unsent task := by
          simp only [ConfigTask.unsent, hstage]
          rw [if_neg hwhole, if_neg (by omega)]
        simp only [sentBy, hstage, if_neg hwhole]
        exact (flatMap_moved hperm ConfigTask.unsent hmoved).append_left _
  | configSendError => exact hserves.elim
  | @configSent task rest hperm hstage =>
      have hnone : ConfigTask.unsent task = [] := by
        simp [ConfigTask.unsent, hstage]
      refine (flatMap_moved hperm ConfigTask.unsent ?_).append_left _
      exact hnone.symm
  | @configReplyError task _ _ hperm hstage | @configRefused task _ _ hperm hstage
  | @configAcknowledged task _ _ hperm hstage =>
      have hnone : ConfigTask.unsent task = [] := by
        simp only [ConfigTask.unsent, hstage]
      refine (flatMap_moved hperm ConfigTask.unsent ?_).append_left _
      exact hnone.symm
  | @configOk task _ _ hperm hstage | @configFailed task _ _ _ hperm hstage =>
      have hnone : ConfigTask.unsent task = [] := by
        simp only [ConfigTask.unsent, hstage]
      exact (flatMap_rest hperm ConfigTask.unsent hnone).append_left _
  | inputPiece hperm hpos hpart =>
      simp only [sentBy, if_neg (Nat.ne_of_lt hpart)]
      exact List.Perm.refl _
  | inputWhole hperm hpos hwhole =>
      simp only [sentBy, if_pos hwhole]
      exact List.Perm.refl _
  | _ => exact List.Perm.refl _

theorem Transition.awaitingNodes (hearly : session.Early)
    (hserves : BenchServes sizes action)
    (h : Transition variant session action after) :
    BenchMail.configs (sentBy action) ++ session.awaitingNodes ~
      repliedBy action ++ after.awaitingNodes := by
  cases h with
  | firstConfig hphase =>
      simp only [Session.awaitingNodes, configureNodes, hearly.noConfigTasks hphase,
        List.append_nil, awaiting_new]
      exact List.Perm.refl _
  | @configPiece task rest written count hperm hstage hbound =>
      have hold : ConfigTask.awaiting task = [] := by
        simp only [ConfigTask.awaiting, hstage]
        exact if_neg (by omega)
      by_cases hwhole : written + count = (encode task.config.message).length
      · have hmoved : ConfigTask.awaiting
            { task with stage := .sending (written + count) } = [task.node] :=
          if_pos hwhole
        have hall := flatMap_rest hperm ConfigTask.awaiting hold
        simp only [sentBy, hstage, if_pos hwhole, Session.awaitingNodes,
          List.flatMap_cons, hmoved]
        exact hall.append_left _
      · have hmoved : ConfigTask.awaiting
            { task with stage := .sending (written + count) } =
              ConfigTask.awaiting task := by
          rw [hold]
          exact if_neg hwhole
        simp only [sentBy, hstage, if_neg hwhole]
        exact flatMap_moved hperm ConfigTask.awaiting hmoved
  | configSendError => exact hserves.elim
  | @configSent task rest hperm hstage =>
      have hold : ConfigTask.awaiting task = [task.node] := by
        simp [ConfigTask.awaiting, hstage]
      refine flatMap_moved hperm ConfigTask.awaiting ?_
      exact hold.symm
  | @configReplyError task _ _ hperm hstage | @configRefused task _ _ hperm hstage
  | @configAcknowledged task _ _ hperm hstage =>
      have hold : ConfigTask.awaiting task = [task.node] := by
        simp only [ConfigTask.awaiting, hstage]
      have hall := hperm.flatMap_right ConfigTask.awaiting
      rw [List.flatMap_cons, hold] at hall
      exact hall
  | @configOk task _ _ hperm hstage | @configFailed task _ _ _ hperm hstage =>
      have hold : ConfigTask.awaiting task = [] := by
        simp only [ConfigTask.awaiting, hstage]
      exact flatMap_rest hperm ConfigTask.awaiting hold
  | inputPiece hperm hpos hpart =>
      simp only [sentBy, if_neg (Nat.ne_of_lt hpart)]
      exact List.Perm.refl _
  | inputWhole hperm hpos hwhole =>
      simp only [sentBy, if_pos hwhole]
      exact List.Perm.refl _
  | _ => exact List.Perm.refl _

theorem Transition.atNodes_perm (h : Transition variant session action after) :
    BenchMail.inputs (sentBy action) ++ session.atNodes ~
      answeredBy action ++ after.atNodes := by
  cases h with
  | @configPiece task rest written count _ hstage =>
      by_cases hwhole : written + count = (encode task.config.message).length
      · simp only [sentBy, hstage, if_pos hwhole]
        exact List.Perm.refl _
      · simp only [sentBy, hstage, if_neg hwhole]
        exact List.Perm.refl _
  | inputPiece hperm hpos hpart =>
      simp only [sentBy, if_neg (Nat.ne_of_lt hpart)]
      exact List.Perm.refl _
  | inputWhole hperm hpos hwhole =>
      simp only [sentBy, if_pos hwhole]
      exact List.Perm.refl _
  | nodeAnswer _ _ _ hat => exact hat
  | _ => exact List.Perm.refl _

end Session

end FpgaFramework
