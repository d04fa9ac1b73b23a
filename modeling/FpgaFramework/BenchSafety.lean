/-
What a whole bench does, in every order of steps: nobody gives up, every input is in
one place until its result is forwarded, and the user ends with exactly one result
for each of its inputs.
-/
import FpgaFramework.BenchParties

namespace FpgaFramework

open scoped List

namespace BenchCluster

open BenchNode (Reply)
open Message

variable {N : Type}

/-- The nodes that have not read a configuration. -/
def fresh (cluster : BenchCluster N) : List N :=
  cluster.session.unsentNodes ++ BenchMail.configs cluster.toNodes

/-- What holds of a bench. -/
structure Inv (nodes : List N) (sizes : BenchSizes) (cluster : BenchCluster N) :
    Prop where
  known : cluster.session.BenchKnown nodes sizes
  user : cluster.user.Inv sizes
  stream : cluster.session.takenFrames ++
    cluster.toServer.map (fun message => message.1.frame) = cluster.user.written sizes
  reads : cluster.user.read <+: cluster.session.reads
  returned : cluster.session.phase = .returned → cluster.user.stage = .closed
  ended : ∀ node, cluster.nodes node = .ended → cluster.session.phase = .returned
  freshOnce : cluster.fresh.Nodup
  connected : ∀ node ∈ cluster.fresh,
    cluster.nodes node = .connected ∨ cluster.nodes node = .ended
  configured : ∀ node ∈ nodes, node ∉ cluster.fresh →
    (cluster.nodes node).Configured sizes
  configs : cluster.session.awaitingNodes ~
    BenchMail.configs cluster.toNodes ++ Reply.configs cluster.replies
  inputs : cluster.session.atNodes ~
    BenchMail.inputs cluster.toNodes ++ Reply.inputs cluster.replies
  mail : ∀ entry ∈ cluster.toNodes, ∀ held, entry.2 = .config held →
    held.message.1.frame = BenchUser.configFrame sizes
  replies : ∀ entry ∈ cluster.replies, entry.2.Good sizes

variable {sizes : BenchSizes} {nodes : List N} {cluster after : BenchCluster N}

theorem Inv.initial {config data receiver : Counter} (hnodup : nodes.Nodup)
    (hconfig : config.getValue = 0) :
    Inv nodes sizes (initial nodes config data receiver) := by
  have hfresh : (BenchCluster.initial nodes config data receiver).fresh = nodes := by
    simp [fresh, BenchCluster.initial, Session.unsentNodes, Session.initial,
      BenchMail.configs]
  constructor
  · exact Session.BenchKnown.initial hconfig
  · exact BenchUser.Inv.initial
  · rfl
  · exact List.nil_prefix
  · exact Phase.noConfusion
  · intro node hended
    cases hended
  · rw [hfresh]
    exact hnodup
  · exact fun _ _ => Or.inl rfl
  · intro node hmem hnot
    rw [hfresh] at hnot
    exact absurd hmem hnot
  · exact List.Perm.refl _
  · exact List.Perm.refl _
  · intro entry hmem
    cases hmem
  · intro entry hmem
    cases hmem

/-! The user's steps. -/

/-- The user moves, and with it what is on the way to the server. -/
theorem Inv.of_user (hinv : cluster.Inv nodes sizes) {user : BenchUser}
    (huser : user.Inv sizes) {messages : List ValidMessage}
    (hwritten : user.written sizes =
      cluster.user.written sizes ++ messages.map fun message => message.1.frame)
    (hreads : user.read <+: cluster.session.reads)
    (hreturned : cluster.session.phase = .returned → user.stage = .closed) :
    Inv nodes sizes { cluster with
      user := user
      toServer := cluster.toServer ++ messages } := by
  obtain ⟨hknown, _, hstream, _, _, hended, honce, hconnected, hconfigured, hconfigs,
    hinputs, hmail, hreplies⟩ := hinv
  refine ⟨hknown, huser, ?_, hreads, hreturned, hended, honce, hconnected, hconfigured,
    hconfigs, hinputs, hmail, hreplies⟩
  rw [hwritten, ← hstream, List.map_append, List.append_assoc]

theorem prefix_next {T : Type*} {part whole : List T} {item : T}
    (h : part <+: whole) (hnext : whole[part.length]? = some item) :
    part ++ [item] <+: whole := by
  obtain ⟨tail, rfl⟩ := h
  rw [List.getElem?_append_right (Nat.le_refl _), Nat.sub_self] at hnext
  cases tail with
  | nil => cases hnext
  | cons head rest =>
      cases hnext
      exact ⟨rest, by rw [List.append_assoc, List.singleton_append]⟩

theorem Inv.read_next (hinv : cluster.Inv nodes sizes) {frame : Frame}
    (hnext : cluster.nextFrame = some frame) :
    cluster.user.read ++ [frame] <+: cluster.session.reads := by
  rw [nextFrame, hinv.user.taken] at hnext
  exact prefix_next hinv.reads hnext

/-- What the waiting user receives is the response. -/
theorem Inv.next_response (hinv : cluster.Inv nodes sizes)
    (hstage : cluster.user.stage = .waiting) {frame : Frame}
    (hnext : cluster.nextFrame = some frame) :
    frame = Session.responseFrame ∧ [frame] <+: cluster.session.reads := by
  have hread := hinv.read_next hnext
  rw [BenchUser.read, hstage] at hread
  obtain ⟨rest, hrest⟩ := hread
  exact ⟨(hinv.known.readable.reads_tail hrest.symm).1, rest, hrest⟩

/-- What the running user receives is a result of one block. -/
theorem Inv.next_result (hinv : cluster.Inv nodes sizes)
    (hstage : cluster.user.stage = .running) {frame : Frame}
    (hnext : cluster.nextFrame = some frame) :
    frame.HoldsBlock sizes.outputSize ∧
      Session.responseFrame :: (cluster.user.results ++ [frame]) <+:
        cluster.session.reads := by
  have hread := hinv.read_next hnext
  rw [BenchUser.read, hstage] at hread
  refine ⟨?_, hread⟩
  obtain ⟨rest, hrest⟩ := hread
  have htail := (hinv.known.readable.reads_tail hrest.symm).2
  have hmem : frame ∈ cluster.session.forwarded.map
      fun entry => entry.2.message.1.frame := by
    apply htail.subset
    simp
  obtain ⟨entry, hentry, rfl⟩ := List.mem_map.mp hmem
  exact hinv.known.bench.forwarded entry hentry

/-- The user takes a step without sending. -/
theorem Inv.of_quiet_user (hinv : cluster.Inv nodes sizes) {user : BenchUser}
    (huser : user.Inv sizes)
    (hwritten : user.written sizes = cluster.user.written sizes)
    (hreads : user.read <+: cluster.session.reads)
    (hreturned : cluster.session.phase = .returned → user.stage = .closed) :
    Inv nodes sizes { cluster with user := user } := by
  have hnothing : user.written sizes = cluster.user.written sizes ++
      ([] : List ValidMessage).map fun message => message.1.frame := by
    rw [hwritten, List.map_nil, List.append_nil]
  have hmoved := hinv.of_user huser hnothing hreads hreturned
  rwa [List.append_nil] at hmoved

theorem Inv.sendConfig (hinv : cluster.Inv nodes sizes)
    (hstage : cluster.user.stage = .connected) (memory : Message.Memory) :
    Inv nodes sizes { cluster with
      user := (cluster.user.sendConfig sizes memory).1
      toServer := cluster.toServer ++ (cluster.user.sendConfig sizes memory).2 } := by
  obtain ⟨config, hsent, hframe⟩ :=
    BenchUser.sendConfig_spec sizes memory cluster.user
  have hnone := (hinv.user.early (Or.inl hstage)).1
  rw [hsent]
  refine hinv.of_user (hinv.user.sendConfig hstage) ?_ List.nil_prefix ?_
  · rw [BenchUser.written, BenchUser.written, hstage, List.map_singleton, hframe]
    simp only [hnone, List.nil_append]
  · intro hphase
    rw [hinv.returned hphase] at hstage
    cases hstage

theorem Inv.takeResponse (hinv : cluster.Inv nodes sizes)
    (hstage : cluster.user.stage = .waiting) {message : ValidMessage}
    (hnext : cluster.nextFrame = some message.1.frame) :
    Inv nodes sizes { cluster with user := cluster.user.takeResponse message.1 } := by
  obtain ⟨hframe, hread⟩ := hinv.next_response hstage hnext
  have hnone := (hinv.user.early (Or.inr hstage)).2.1
  rw [BenchUser.takeResponse_spec message hframe]
  refine hinv.of_quiet_user (hinv.user.takeResponse hstage) ?_ ?_ ?_
  · rw [BenchUser.written, BenchUser.written, hstage]
  · rw [hframe] at hread
    simpa only [BenchUser.read, hnone] using hread
  · intro hphase
    rw [hinv.returned hphase] at hstage
    cases hstage

theorem Inv.writeInput (hinv : cluster.Inv nodes sizes)
    (hstage : cluster.user.stage = .running)
    (hsending : cluster.user.sending = .delaying) (memory : Message.Memory)
    (t : Vector UInt8 8) :
    Inv nodes sizes { cluster with
      user := (cluster.user.writeInput sizes memory t.toList).1
      toServer := cluster.toServer ++
        (cluster.user.writeInput sizes memory t.toList).2 } := by
  obtain ⟨input, hsent, hholds⟩ :=
    BenchUser.writeInput_spec sizes memory t cluster.user
  have hread := hinv.reads
  rw [hsent]
  refine hinv.of_user (hinv.user.writeInput hstage hsending hholds) ?_ ?_ ?_
  · simp only [BenchUser.written, hstage, List.map_singleton, List.cons_append]
  · simpa only [BenchUser.read] using hread
  · intro hphase
    rw [hinv.returned hphase] at hstage
    cases hstage

theorem Inv.inputSent (hinv : cluster.Inv nodes sizes)
    (hsending : cluster.user.sending = .sending) (elapsed : Nat) :
    Inv nodes sizes { cluster with user := cluster.user.inputSent elapsed } :=
  hinv.of_quiet_user (hinv.user.inputSent hsending elapsed) rfl hinv.reads
    hinv.returned

theorem Inv.takeResult (hinv : cluster.Inv nodes sizes)
    (hstage : cluster.user.stage = .running)
    (hwaits : cluster.user.receiving = true) {message : ValidMessage}
    (hnext : cluster.nextFrame = some message.1.frame) :
    Inv nodes sizes
      { cluster with user := cluster.user.takeResult sizes message.1 } := by
  obtain ⟨hholds, hread⟩ := hinv.next_result hstage hnext
  rw [BenchUser.takeResult_spec message hholds]
  refine hinv.of_quiet_user (hinv.user.takeResult hstage hwaits _) ?_ ?_ ?_
  · rw [BenchUser.checkDone]
    split <;> simp only [BenchUser.written, hstage]
  · rw [BenchUser.checkDone]
    split <;> simpa only [BenchUser.read, hstage] using hread
  · intro hphase
    rw [hinv.returned hphase] at hstage
    cases hstage

theorem Inv.close (hinv : cluster.Inv nodes sizes)
    (hstage : cluster.user.stage = .running)
    (hends : cluster.user.receiving = false) :
    Inv nodes sizes
      { cluster with user := { cluster.user with stage := .closed } } := by
  have hread := hinv.reads
  refine hinv.of_quiet_user (hinv.user.close hstage hends) ?_ ?_ fun _ => rfl
  · rw [BenchUser.written, BenchUser.written, hstage]
  · simpa only [BenchUser.read, hstage] using hread

/-! The user's messages on the server's side. -/

/-- Accepted inputs have one block. -/
theorem Inv.holdsBlock_of_accepted (hinv : cluster.Inv nodes sizes) {input : Input}
    (hmem : input ∈ cluster.session.accepted) :
    input.message.1.frame.HoldsBlock sizes.inputSize := by
  obtain ⟨first, later, hconfigs, _⟩ := hinv.known.oneConfig.inputs input hmem
  have hstream := hinv.stream
  rw [Session.takenFrames, hconfigs, BenchUser.written] at hstream
  split at hstream
  · cases hstream
  · apply hinv.user.blocks
    have htail := (List.cons.inj hstream).2
    rw [← htail]
    apply List.mem_append_left
    apply List.mem_append_right
    exact List.mem_map_of_mem (f := fun input : Input => input.message.1.frame) hmem

/-! A node's step. -/

/-- The nodes, or inputs, of the mail that is read go to the reply. -/
theorem perm_forwarded {T : Type*} {list all rest others moved : List T}
    (hlist : list ~ all ++ others) (hall : all ~ moved ++ rest) :
    list ~ rest ++ (others ++ moved) := by
  apply (hlist.trans (hall.append_right others)).trans
  rw [List.append_assoc]
  apply List.perm_append_comm.trans
  rw [List.append_assoc]

theorem mem_configs_of_ne {node other : N} {mail : BenchMail} (hne : other ≠ node) :
    other ∉ BenchMail.configs [(node, mail)] := by
  cases mail with
  | config held => simp [BenchMail.configs, hne]
  | input held => simp [BenchMail.configs]

theorem Inv.of_node [DecidableEq N] (hinv : cluster.Inv nodes sizes) {node : N}
    {mail : BenchMail} {rest : List (N × BenchMail)}
    (hperm : cluster.toNodes ~ (node, mail) :: rest) {config : ValidMessage}
    (hconfig : BenchUser.ReadsConfig sizes config.1) {reply : Reply}
    (hreply : reply.Good sizes) (hanswers : reply.answers = mail.asked)
    (hread : node ∉ cluster.session.unsentNodes ++ BenchMail.configs rest) :
    Inv nodes sizes { cluster with
      toNodes := rest
      nodes := Function.update cluster.nodes node (.processing config)
      replies := cluster.replies ++ [(node, reply)] } := by
  have hconfigsMoved : BenchMail.configs cluster.toNodes ~
      Reply.configs [(node, reply)] ++ BenchMail.configs rest := by
    refine (hperm.flatMap_right _).trans ?_
    cases mail <;> simp [Reply.configs, hanswers, BenchMail.asked, BenchMail.configs]
  have hinputsMoved : BenchMail.inputs cluster.toNodes ~
      Reply.inputs [(node, reply)] ++ BenchMail.inputs rest := by
    refine (hperm.flatMap_right _).trans ?_
    simp [Reply.inputs, hanswers, BenchMail.inputs]
  have hkept : ∀ other, other ∈ BenchMail.configs rest →
      other ∈ BenchMail.configs cluster.toNodes := by
    intro other hmem
    exact hconfigsMoved.mem_iff.mpr (List.mem_append_right _ hmem)
  have hfresh : ∀ other ∈ cluster.session.unsentNodes ++ BenchMail.configs rest,
      other ∈ cluster.fresh := by
    intro other hmem
    rcases List.mem_append.mp hmem with hunsent | hmail
    · exact List.mem_append_left _ hunsent
    · exact List.mem_append_right _ (hkept other hmail)
  have hback : ∀ other, other ≠ node → other ∈ cluster.fresh →
      other ∈ cluster.session.unsentNodes ++ BenchMail.configs rest := by
    intro other hne hmem
    rcases List.mem_append.mp hmem with hunsent | hmail
    · exact List.mem_append_left _ hunsent
    · have hsplit := (hperm.flatMap_right _).mem_iff.mp hmail
      rw [← List.singleton_append, List.flatMap_append, List.mem_append] at hsplit
      exact List.mem_append_right _ (hsplit.resolve_left (mem_configs_of_ne hne))
  obtain ⟨hknown, huser, hstream, hreads, hreturned, hended, honce, hconnected,
    hconfigured, hconfigs, hinputs, hmail, hreplies⟩ := hinv
  refine ⟨hknown, huser, hstream, hreads, hreturned, ?_, ?_, ?_, ?_, ?_, ?_, ?_, ?_⟩
  · intro other
    change Function.update cluster.nodes node _ other = _ → _
    by_cases hsame : other = node
    · rw [hsame, Function.update_self]
      exact BenchNode.Stage.noConfusion
    · rw [Function.update_of_ne hsame]
      exact hended other
  · have hall : cluster.fresh ~ Reply.configs [(node, reply)] ++
        (cluster.session.unsentNodes ++ BenchMail.configs rest) := by
      refine (hconfigsMoved.append_left _).trans ?_
      rw [← List.append_assoc, ← List.append_assoc]
      exact List.perm_append_comm.append_right _
    exact (List.nodup_append.mp (hall.nodup_iff.mp honce)).2.1
  · intro other hmem
    have hne : other ≠ node := by
      rintro rfl
      exact hread hmem
    simp only [Function.update_of_ne hne]
    exact hconnected other (hfresh other hmem)
  · intro other hmem hnot
    by_cases hsame : other = node
    · simp only [hsame, Function.update_self]
      exact Or.inr ⟨config, rfl, hconfig⟩
    · simp only [Function.update_of_ne hsame]
      exact hconfigured other hmem fun hold => hnot (hback other hsame hold)
  · have hall := perm_forwarded hconfigs hconfigsMoved
    rwa [Reply.configs, Reply.configs, ← List.flatMap_append] at hall
  · have hall := perm_forwarded hinputs hinputsMoved
    rwa [Reply.inputs, Reply.inputs, ← List.flatMap_append] at hall
  · intro entry hmem
    exact hmail entry (hperm.mem_iff.mpr (List.mem_cons_of_mem _ hmem))
  · intro entry hmem
    rcases List.mem_append.mp hmem with hold | hnew
    · exact hreplies entry hold
    · rw [List.mem_singleton.mp hnew]
      exact hreply

/-- A node that has its first message is new to it, and takes it. -/
theorem Inv.node_config [DecidableEq N] (hinv : cluster.Inv nodes sizes) {node : N}
    {held : Held} {rest : List (N × BenchMail)}
    (hperm : cluster.toNodes ~ (node, .config held) :: rest)
    (hlive : cluster.nodes node ≠ .ended) (memory : Message.Memory)
    {message : ValidMessage} (hframe : message.1.frame = held.message.1.frame) :
    ∃ reply, cluster.onMessage node memory message none =
        (.processing message, [reply]) ∧
      Inv nodes sizes { cluster with
        toNodes := rest
        nodes := Function.update cluster.nodes node (.processing message)
        replies := cluster.replies ++ [(node, reply)] } := by
  have hmail := hinv.mail _ (Session.mem_of_perm hperm) held rfl
  obtain ⟨htakes, hreads⟩ :=
    BenchNode.takeFirst_spec memory message (hframe.trans hmail)
  have hconfigs : BenchMail.configs cluster.toNodes ~ node :: BenchMail.configs rest :=
    hperm.flatMap_right _
  have honce := hinv.freshOnce
  have hmoved : cluster.fresh ~
      node :: (cluster.session.unsentNodes ++ BenchMail.configs rest) :=
    (hconfigs.append_left _).trans List.perm_middle
  rw [hmoved.nodup_iff, List.nodup_cons] at honce
  have hconnected := (hinv.connected node
    (hmoved.mem_iff.mpr List.mem_cons_self)).resolve_right hlive
  refine ⟨⟨.newConfigResp memory .success, none⟩, ?_, ?_⟩
  · rw [onMessage, hconnected]
    exact htakes
  · exact hinv.of_node hperm hreads rfl rfl honce.1

/-- A node that has an input has its configuration too, and answers the input. -/
theorem Inv.node_input [DecidableEq N] (hinv : cluster.Inv nodes sizes) {node : N}
    {input : Input} {rest : List (N × BenchMail)}
    (hperm : cluster.toNodes ~ (node, .input input) :: rest)
    (hlive : cluster.nodes node ≠ .ended) (memory : Message.Memory)
    {message : ValidMessage} (hframe : message.1.frame = input.message.1.frame) :
    ∃ config reply, cluster.onMessage node memory message (some input) =
        (.processing config, [reply]) ∧
      Inv nodes sizes { cluster with
        toNodes := rest
        nodes := Function.update cluster.nodes node (.processing config)
        replies := cluster.replies ++ [(node, reply)] } := by
  have hat : (node, input) ∈ cluster.session.atNodes := by
    apply hinv.inputs.mem_iff.mpr
    apply List.mem_append_left
    apply (hperm.flatMap_right _).mem_iff.mpr
    exact List.mem_append_left _ List.mem_cons_self
  have hdelivered := hinv.known.atNodes hat
  have haccepted := hinv.known.accepted_of_delivered hdelivered
  obtain ⟨hnodes, htasks⟩ := hinv.known.configured_of_accepted haccepted
  have hunsent : cluster.session.unsentNodes = [] := by
    rw [Session.unsentNodes, hnodes, htasks]
    rfl
  have hnone : BenchMail.configs cluster.toNodes = [] := by
    have hall := hinv.configs
    rw [Session.awaitingNodes, htasks, List.flatMap_nil] at hall
    exact (List.append_eq_nil_iff.mp (List.nil_perm.mp hall)).1
  have hread : node ∉ cluster.fresh := by
    rw [fresh, hunsent, hnone]
    exact List.not_mem_nil
  have hholds : message.1.frame.HoldsBlock sizes.inputSize := by
    rw [hframe]
    exact hinv.holdsBlock_of_accepted haccepted
  obtain ⟨config, hstage, hconfig⟩ :=
    (hinv.configured node (hinv.known.delivered _ hdelivered) hread).resolve_left hlive
  obtain ⟨output, houtput, hresult⟩ :=
    BenchNode.takeInput_spec memory hconfig message hholds (some input)
  refine ⟨config, ⟨output, some input⟩, ?_, ?_⟩
  · rw [onMessage, hstage]
    exact houtput
  · refine hinv.of_node hperm hconfig ?_ rfl ?_
    · exact ⟨hresult.holdsBlock, hresult.key_eq.trans (congrArg Frame.benchKey hframe)⟩
    · intro hmem
      apply hread
      rcases List.mem_append.mp hmem with hother | hother
      · exact List.mem_append_left _ hother
      · apply List.mem_append_right
        exact (hperm.flatMap_right _).mem_iff.mpr hother

/-! The server's step. -/

variable {variant : Variant} {action : Session.Action N} {brought : BenchCluster N}

theorem Inv.length_accepted_le (hinv : cluster.Inv nodes sizes)
    (hstage : cluster.user.stage ≠ .connected) :
    cluster.session.accepted.length ≤ cluster.user.sent.length := by
  have hlength := congrArg List.length hinv.stream
  have hwritten : cluster.user.written sizes =
      BenchUser.configFrame sizes :: cluster.user.sent := by
    rw [BenchUser.written]
    split
    · next hother => exact absurd hother hstage
    · rfl
  simp only [Session.takenFrames, hwritten, List.length_append, List.length_map,
    List.length_cons] at hlength
  cases haccepted : cluster.session.accepted with
  | nil => exact Nat.zero_le _
  | cons input rest =>
      obtain ⟨first, later, hconfigs, _⟩ := hinv.known.oneConfig.inputs input (by
        rw [haccepted]
        exact List.mem_cons_self)
      rw [haccepted, hconfigs, List.length_cons] at hlength
      omega

theorem Inv.length_reads_of_gone (hinv : cluster.Inv nodes sizes)
    (hgone : cluster.user.Gone) :
    cluster.user.sent.length + 1 ≤ cluster.session.reads.length := by
  obtain ⟨hclosed, _, hall⟩ := hinv.user.of_gone hgone
  have hread := hinv.reads.length_le
  rw [BenchUser.read, hclosed, List.length_cons] at hread
  omega

/-- When the user is gone it has all that was handed over to it. -/
theorem Inv.length_sends_le (hinv : cluster.Inv nodes sizes)
    (hgone : cluster.user.Gone) :
    cluster.session.user.sends.length ≤ cluster.session.reads.length := by
  have hclosed := (hinv.user.of_gone hgone).1
  have hreads := hinv.length_reads_of_gone hgone
  have haccepted := hinv.length_accepted_le (by
    rw [hclosed]
    exact BenchUser.Stage.noConfusion)
  have hkeys := hinv.known.accepted_keys.length_eq
  simp only [List.length_append, List.length_map] at hkeys
  have hmessages : cluster.session.user.sends.length =
      cluster.session.user.messages.length := (List.length_map _).symm
  rcases hinv.known.readable.first.order with ⟨hnone, _⟩ | ⟨memory, hsome⟩
  · rw [hmessages, hnone]
    exact Nat.zero_le _
  · rw [hmessages, hsome, List.length_cons, List.length_map]
    omega

theorem Inv.not_gone_of_awaiting (hinv : cluster.Inv nodes sizes)
    (hphase : cluster.session.phase = .awaitingConfig) : ¬cluster.user.Gone := by
  intro hgone
  have hnone := hinv.known.readable.first.none (Or.inl hphase)
  have hsends : cluster.session.user.sends.length = 0 := by
    rw [← List.length_map (f := Transfer.message)]
    exact congrArg List.length hnone
  have hle := hinv.known.readable.length_reads_le
  have hreads := hinv.length_reads_of_gone hgone
  omega

/-- While nodes are configured only replies to the configuration are on the way, and
afterwards only answers. -/
theorem Inv.answers_none (hinv : cluster.Inv nodes sizes) {task : ConfigTask N}
    {rest : List (ConfigTask N)} (hperm : cluster.session.configTasks ~ task :: rest)
    {entry : N × Reply} (hmem : entry ∈ cluster.replies) : entry.2.answers = none := by
  have hphase := hinv.known.counters.phase_of_task hperm
  have hnone := hinv.known.noneAtNodes (by
    simp [Session.BeforeLoops, hphase, Phase.beforeLoops])
  have hinputs := hinv.inputs
  rw [hnone] at hinputs
  have hall := (List.append_eq_nil_iff.mp (List.nil_perm.mp hinputs)).2
  have hentry := List.flatMap_eq_nil_iff.mp hall entry hmem
  cases hanswers : entry.2.answers with
  | none => rfl
  | some input =>
      rw [hanswers] at hentry
      cases hentry

theorem Inv.answers_some (hinv : cluster.Inv nodes sizes) {loop : Loop N}
    {rest : List (Loop N)} (hperm : cluster.session.loops ~ loop :: rest)
    {entry : N × Reply} (hmem : entry ∈ cluster.replies) :
    ∃ input, entry.2.answers = some input := by
  have hconfigs := hinv.configs
  rw [hinv.known.noneAwaiting_of_loop hperm] at hconfigs
  have hall := (List.append_eq_nil_iff.mp (List.nil_perm.mp hconfigs)).2
  have hentry := List.flatMap_eq_nil_iff.mp hall entry hmem
  cases hanswers : entry.2.answers with
  | some input => exact ⟨input, rfl⟩
  | none =>
      rw [hanswers] at hentry
      cases hentry

theorem Inv.first_config (hinv : cluster.Inv nodes sizes)
    (hphase : cluster.session.phase = .awaitingConfig) {next : ValidMessage}
    {rest : List ValidMessage} (hto : cluster.toServer = next :: rest) :
    next.1.frame = BenchUser.configFrame sizes := by
  have hstream := hinv.stream
  rw [Session.takenFrames, hinv.known.oneConfig.awaiting hphase,
    hinv.known.noneAccepted (Session.beforeLoops_of_awaiting hphase), hto,
    BenchUser.written] at hstream
  split at hstream
  · cases hstream
  · exact (List.cons.inj hstream).1

theorem Inv.next_input (hinv : cluster.Inv nodes sizes)
    (hphase : cluster.session.phase = .receiving) {config : Held}
    (hconfig : cluster.session.config = some config) {next : ValidMessage}
    {rest : List ValidMessage} (hto : cluster.toServer = next :: rest) :
    next.1.frame.HoldsBlock sizes.inputSize := by
  have hstored := hinv.known.oneConfig.stored (by simp [hphase, Phase.firstConfig])
  have hstream := hinv.stream
  rw [Session.takenFrames, hstored, hconfig, hto, BenchUser.written] at hstream
  split at hstream
  · cases hstream
  · apply hinv.user.blocks
    rw [← (List.cons.inj hstream).2]
    apply List.mem_append_right
    exact List.mem_cons_self

section

variable [DecidableEq N] {session : Session N}

/-- The parties keep to what the session counts on. -/
theorem Inv.serves (hinv : cluster.Inv nodes sizes)
    (hother : cluster.Other action brought)
    (hstep : cluster.session.step variant action = some session) :
    Session.BenchServes sizes action := by
  obtain ⟨hrunning, h⟩ := Session.transition_of_step hstep
  have hlive : ∀ node, cluster.nodes node ≠ .ended := fun node hended =>
    hrunning.2 (hinv.ended node hended)
  cases hother with
  | @first message _ _ hto hframe =>
      have hphase : cluster.session.phase = .awaitingConfig := by
        cases h with
        | firstInvalid hphase | firstConfig hphase => exact hphase
      exact ⟨message, rfl, hframe.trans (hinv.first_config hphase hto)⟩
  | firstEnd hgone =>
      have hphase : cluster.session.phase = .awaitingConfig := by
        cases h with
        | firstError hphase => exact hphase
      exact absurd hgone (hinv.not_gone_of_awaiting hphase)
  | user hto hframe =>
      have hstored : cluster.session.phase = .receiving ∧
          ∃ config, cluster.session.config = some config := by
        cases h with
        | userDivision hphase hconfig | userInput hphase hconfig
        | userConfig hphase hconfig | userInvalidQueue _ hphase hconfig
        | userInvalidStack _ hphase hconfig => exact ⟨hphase, _, hconfig⟩
      obtain ⟨hphase, config, hconfig⟩ := hstored
      intro message hok
      cases hok
      rw [hframe]
      exact hinv.next_input hphase hconfig hto
  | userEnd =>
      intro message hok
      cases hok
  | @configReply task message reply _ hperm hframe =>
      have htasks : ∃ rest, cluster.session.configTasks ~ task :: rest := by
        cases h with
        | configRefused htasks | configAcknowledged htasks => exact ⟨_, htasks⟩
      obtain ⟨_, htasks⟩ := htasks
      have hmem := Session.mem_of_perm hperm
      have hgood := hinv.replies _ hmem
      have hnone : reply.answers = none := hinv.answers_none htasks hmem
      rw [Reply.Good, hnone] at hgood
      exact ⟨message, rfl, hframe.trans hgood⟩
  | configReplyEnd hended => exact absurd hended (hlive _)
  | @answer loop message reply _ hperm hframe =>
      have hloops : ∃ rest, cluster.session.loops ~ loop :: rest := by
        generalize hanswers : reply.answers = answers at h
        cases h with
        | nodeUnasked hloops | nodeAnswer hloops => exact ⟨_, hloops⟩
      obtain ⟨_, hloops⟩ := hloops
      have hmem := Session.mem_of_perm hperm
      have hgood := hinv.replies _ hmem
      obtain ⟨input, hsome⟩ := hinv.answers_some hloops hmem
      change reply.answers = some input at hsome
      rw [Reply.Good, hsome] at hgood
      refine ⟨message, input, rfl, hsome, ?_, ?_⟩
      · rw [hframe]
        exact hgood.holdsBlock
      · rw [hframe]
        exact hgood.key_eq
  | answerEnd hended => exact absurd hended (hlive _)
  | configSendError hended => exact absurd hended (hlive _)
  | inputSendError hended => exact absurd hended (hlive _)
  | respError hgone =>
      obtain ⟨response, ticket, hphase, hnot⟩ := Session.not_done_of_respError hstep
      have hzero := hinv.known.readable.first.responding response ticket hphase
      have hreads := hinv.length_reads_of_gone hgone
      have hle := hinv.known.readable.length_reads_le
      refine absurd ?_ hnot
      exact hinv.known.readable.all_done (hinv.length_sends_le hgone) (by omega)
  | forwardError hgone =>
      obtain ⟨hmem, ticket, hticket, hnot⟩ := Session.not_done_of_forwardError hstep
      refine absurd ?_ hnot
      exact hinv.known.readable.all_done (hinv.length_sends_le hgone)
        (hinv.known.ticketed _ hmem ticket hticket)
  | own hown =>
      cases action with
      | firstMessage | userMessage | configReply | nodeMessage | configSendError
      | inputSendError | respError | forwardError => cases hown
      | _ => exact True.intro

end

theorem Other.kept (h : cluster.Other action brought) :
    brought.user = cluster.user ∧ brought.nodes = cluster.nodes := by
  cases h <;> exact ⟨rfl, rfl⟩

theorem Other.toServer (h : cluster.Other action brought) :
    cluster.toServer.map (fun message => message.1.frame) =
      Session.took action ++
        brought.toServer.map fun message => message.1.frame := by
  cases h with
  | first hto hframe | user hto hframe =>
      rw [hto, List.map_cons, ← hframe]
      rfl
  | own hown =>
      cases action with
      | firstMessage | userMessage => cases hown
      | _ => rfl
  | _ => rfl

theorem Other.toNodes (h : cluster.Other action brought) :
    brought.toNodes = cluster.toNodes ++ sentBy action := by
  cases h with
  | own => rfl
  | _ => exact (List.append_nil _).symm

/-- The reply that the server takes is one to the configuration or an answer, as its
step expects. -/
theorem Inv.replies_moved (hinv : cluster.Inv nodes sizes)
    (hother : cluster.Other action brought)
    (hserves : Session.BenchServes sizes action) {session : Session N}
    (h : cluster.session.Transition variant action session) :
    (∀ entry ∈ brought.replies, entry ∈ cluster.replies) ∧
      Reply.configs cluster.replies ~
        Session.repliedBy action ++ Reply.configs brought.replies ∧
      Reply.inputs cluster.replies ~
        Session.answeredBy action ++ Reply.inputs brought.replies := by
  cases hother with
  | @configReply task message reply rest hperm =>
      have htasks : ∃ others, cluster.session.configTasks ~ task :: others := by
        cases h with
        | configRefused htasks | configAcknowledged htasks => exact ⟨_, htasks⟩
      obtain ⟨_, htasks⟩ := htasks
      have hnone : reply.answers = none :=
        hinv.answers_none htasks (Session.mem_of_perm hperm)
      refine ⟨fun entry hmem => hperm.mem_iff.mpr (List.mem_cons_of_mem _ hmem), ?_, ?_⟩
      · refine (hperm.flatMap_right _).trans ?_
        simp [Reply.configs, Session.repliedBy, hnone]
      · refine (hperm.flatMap_right _).trans ?_
        simp [Reply.inputs, Session.answeredBy, hnone]
  | @answer loop message reply rest hperm =>
      have hloops : ∃ others, cluster.session.loops ~ loop :: others := by
        generalize hanswers : reply.answers = answers at h
        cases h with
        | nodeUnasked hloops | nodeAnswer hloops => exact ⟨_, hloops⟩
      obtain ⟨_, hloops⟩ := hloops
      obtain ⟨input, hsome⟩ := hinv.answers_some hloops (Session.mem_of_perm hperm)
      change reply.answers = some input at hsome
      refine ⟨fun entry hmem => hperm.mem_iff.mpr (List.mem_cons_of_mem _ hmem), ?_, ?_⟩
      · refine (hperm.flatMap_right _).trans ?_
        simp [Reply.configs, Session.repliedBy, hsome]
      · refine (hperm.flatMap_right _).trans ?_
        simp [Reply.inputs, Session.answeredBy, hsome]
  | own hown =>
      refine ⟨fun entry hmem => hmem, ?_, ?_⟩
      all_goals
        cases action with
        | configReply | nodeMessage => cases hown
        | _ => exact List.Perm.refl _
  | configReplyEnd =>
      obtain ⟨_, hok, _⟩ := hserves
      cases hok
  | _ => exact ⟨fun entry hmem => hmem, List.Perm.refl _, List.Perm.refl _⟩

theorem Inv.mail_kept (hinv : cluster.Inv nodes sizes) {session : Session N}
    (h : cluster.session.Transition variant action session) :
    ∀ entry ∈ cluster.toNodes ++ sentBy action, ∀ held, entry.2 = .config held →
      held.message.1.frame = BenchUser.configFrame sizes := by
  intro entry hmem held hheld
  rcases List.mem_append.mp hmem with hold | hnew
  · exact hinv.mail entry hold held hheld
  · cases h with
    | @configPiece task rest written count hperm hstage =>
        simp only [sentBy, hstage] at hnew
        split at hnew
        · rw [List.mem_singleton.mp hnew] at hheld
          cases hheld
          exact (hinv.known.bench.tasks task (Session.mem_of_perm hperm)).1
        · cases hnew
    | inputPiece _ _ hpart =>
        simp only [sentBy, if_neg (Nat.ne_of_lt hpart)] at hnew
        cases hnew
    | inputWhole _ _ hwhole =>
        simp only [sentBy, if_pos hwhole] at hnew
        rw [List.mem_singleton.mp hnew] at hheld
        cases hheld
    | _ => cases hnew

/-- What is sent joins what is on the way, and what is taken leaves it. -/
theorem perm_flow {T : Type*} [DecidableEq T]
    {old new sent taken mail replies left : List T}
    (hold : old ~ mail ++ replies) (hmoved : sent ++ old ~ taken ++ new)
    (hreplies : replies ~ taken ++ left) : new ~ (mail ++ sent) ++ left := by
  rw [List.perm_iff_count] at *
  intro item
  have hcount := hold item
  have hmove := hmoved item
  have hleft := hreplies item
  simp only [List.count_append] at *
  omega

theorem configs_append (mail others : List (N × BenchMail)) :
    BenchMail.configs (mail ++ others) =
      BenchMail.configs mail ++ BenchMail.configs others :=
  List.flatMap_append

theorem inputs_append (mail others : List (N × BenchMail)) :
    BenchMail.inputs (mail ++ others) =
      BenchMail.inputs mail ++ BenchMail.inputs others :=
  List.flatMap_append

section

variable [DecidableEq N] {session : Session N}

theorem Inv.of_server (hinv : cluster.Inv nodes sizes)
    (hbound : nodes.length < 2 ^ 32)
    (hother : cluster.Other action brought)
    (hguard : cluster.session.WritesAlone action)
    (hstep : cluster.session.step variant action = some session) :
    Inv nodes sizes { brought with session := session } := by
  have hserves := hinv.serves hother hstep
  obtain ⟨hrunning, h⟩ := Session.transition_of_step hstep
  obtain ⟨huser, hstages⟩ := hother.kept
  obtain ⟨hkept, hconfigsMoved, hinputsMoved⟩ := hinv.replies_moved hother hserves h
  have hearly := hinv.known.counters.early
  have hfresh :
      cluster.fresh ~ session.unsentNodes ++ BenchMail.configs brought.toNodes := by
    rw [fresh, hother.toNodes, configs_append]
    apply ((h.unsentNodes hearly hserves).append_right _).trans
    rw [List.append_assoc]
    apply List.perm_append_comm.trans
    rw [List.append_assoc]
  constructor
  · exact hinv.known.transition hbound hguard hserves hrunning h
  · simp only [huser]
    exact hinv.user
  · have hstream := hinv.stream
    rw [hother.toServer, ← List.append_assoc] at hstream
    simp only [huser]
    rw [hinv.known.bench.takenFrames_transition hinv.known.noneAccepted hserves h]
    exact hstream
  · simp only [huser]
    exact hinv.reads.trans (frames_drain_mono h.wire_mono)
  · intro hreturned
    obtain ⟨ec, rfl⟩ := hinv.known.to_returned hserves hrunning h hreturned
    simp only [huser]
    cases hother with
    | userEnd hgone => exact (hinv.user.of_gone hgone).1
    | own hown => cases hown
  · intro node hended
    simp only [hstages] at hended
    exact absurd (hinv.ended node hended) hrunning.2
  · exact hfresh.nodup_iff.mp hinv.freshOnce
  · intro node hmem
    simp only [hstages]
    exact hinv.connected node (hfresh.mem_iff.mpr hmem)
  · intro node hmem hnot
    simp only [hstages]
    exact hinv.configured node hmem fun hold => hnot (hfresh.mem_iff.mp hold)
  · simp only [hother.toNodes, configs_append]
    exact perm_flow hinv.configs (h.awaitingNodes hearly hserves) hconfigsMoved
  · simp only [hother.toNodes, inputs_append]
    exact perm_flow hinv.inputs h.atNodes_perm hinputsMoved
  · simp only [hother.toNodes]
    exact hinv.mail_kept h
  · exact fun entry hmem => hinv.replies entry (hkept entry hmem)

theorem Inv.node (hinv : cluster.Inv nodes sizes) {node : N} {mail : BenchMail}
    {rest : List (N × BenchMail)} (hperm : cluster.toNodes ~ (node, mail) :: rest)
    (hlive : cluster.nodes node ≠ .ended) (memory : Message.Memory)
    {message : ValidMessage} (hframe : message.1.frame = mail.message.1.frame) :
    Inv nodes sizes { cluster with
      toNodes := rest
      nodes := Function.update cluster.nodes node
        (cluster.onMessage node memory message mail.asked).1
      replies := cluster.replies ++
        (cluster.onMessage node memory message mail.asked).2.map
          fun reply => (node, reply) } := by
  cases mail with
  | config held =>
      obtain ⟨reply, hmessage, hmoved⟩ := hinv.node_config hperm hlive memory hframe
      rw [BenchMail.asked, hmessage]
      exact hmoved
  | input input =>
      obtain ⟨config, reply, hmessage, hmoved⟩ :=
        hinv.node_input hperm hlive memory hframe
      rw [BenchMail.asked, hmessage]
      exact hmoved

theorem Inv.nodeLost (hinv : cluster.Inv nodes sizes)
    (hphase : cluster.session.phase = .returned) (node : N) :
    Inv nodes sizes { cluster with
      nodes := Function.update cluster.nodes node .ended } := by
  obtain ⟨hknown, huser, hstream, hreads, hreturned, _, honce, hconnected,
    hconfigured, hconfigs, hinputs, hmail, hreplies⟩ := hinv
  refine ⟨hknown, huser, hstream, hreads, hreturned, fun _ _ => hphase, honce, ?_, ?_,
    hconfigs, hinputs, hmail, hreplies⟩
  · intro other hmem
    change Function.update cluster.nodes node _ other = _ ∨
      Function.update cluster.nodes node _ other = _
    by_cases hsame : other = node
    · rw [hsame, Function.update_self]
      exact Or.inr rfl
    · rw [Function.update_of_ne hsame]
      exact hconnected other hmem
  · intro other hmem hnot
    by_cases hsame : other = node
    · simp only [hsame, Function.update_self]
      exact Or.inl rfl
    · simp only [Function.update_of_ne hsame]
      exact hconfigured other hmem hnot

/-- Every step keeps what holds of a bench. -/
theorem Inv.step (hinv : cluster.Inv nodes sizes) (hbound : nodes.length < 2 ^ 32)
    {action : Action N} (hguard : cluster.WritesAlone action)
    (h : cluster.step variant sizes action = some after) : after.Inv nodes sizes := by
  cases action with
  | sendConfig memory =>
      obtain ⟨hstage, heq⟩ := Option.ite_none_right_eq_some.mp h
      rw [← Option.some.inj heq]
      exact hinv.sendConfig hstage memory
  | takeResponse message =>
      obtain ⟨⟨hstage, hnext⟩, heq⟩ := Option.ite_none_right_eq_some.mp h
      rw [← Option.some.inj heq]
      exact hinv.takeResponse hstage hnext
  | writeInput memory t =>
      obtain ⟨⟨hstage, hsending⟩, heq⟩ := Option.ite_none_right_eq_some.mp h
      rw [← Option.some.inj heq]
      exact hinv.writeInput hstage hsending memory t
  | inputSent elapsed =>
      obtain ⟨⟨_, hsending⟩, heq⟩ := Option.ite_none_right_eq_some.mp h
      rw [← Option.some.inj heq]
      exact hinv.inputSent hsending elapsed
  | takeResult message =>
      obtain ⟨⟨hstage, hwaits, hnext⟩, heq⟩ := Option.ite_none_right_eq_some.mp h
      rw [← Option.some.inj heq]
      exact hinv.takeResult hstage hwaits hnext
  | userLost =>
      obtain ⟨⟨hnot, hphase⟩, _⟩ := Option.ite_none_right_eq_some.mp h
      exact absurd (Or.inr (hinv.returned hphase)) hnot
  | close =>
      obtain ⟨⟨hstage, _, hends⟩, heq⟩ := Option.ite_none_right_eq_some.mp h
      rw [← Option.some.inj heq]
      exact hinv.close hstage hends
  | server action =>
      obtain ⟨brought, hother, hmap⟩ := Option.bind_eq_some_iff.mp h
      obtain ⟨session, hstep, rfl⟩ := Option.map_eq_some_iff.mp hmap
      exact hinv.of_server hbound (other_cases hother) hguard hstep
  | node node memory message =>
      simp only [BenchCluster.step] at h
      split at h
      · cases h
      · next mail rest htake =>
          obtain ⟨⟨hlive, hframe⟩, heq⟩ := Option.ite_none_right_eq_some.mp h
          rw [← Option.some.inj heq]
          exact hinv.node (takeFor_perm htake) hlive memory hframe
  | nodeLost node =>
      obtain ⟨hphase, heq⟩ := Option.ite_none_right_eq_some.mp h
      rw [← Option.some.inj heq]
      exact hinv.nodeLost hphase node

end

/-! What holds in the end. -/

/-- The message is an input, or a result. -/
def isData (message : ValidMessage) : Bool :=
  message.1.header.type == .data

/-- The keys of the inputs that are on their way: to the server, in its dispatches and
send tasks, to a node or in its answer, and in a receiver loop's hands. -/
def inFlight (cluster : BenchCluster N) : List BenchKey :=
  (cluster.toServer.filter isData).map (fun message => message.1.frame.benchKey) ++
    (cluster.session.pending.map Session.inputKey ++
      ((BenchMail.inputs cluster.toNodes ++ Reply.inputs cluster.replies).map
          (fun entry => Session.inputKey entry.2) ++
        cluster.session.loops.flatMap Session.Loop.benchKeys))

/-- The keys of the results that were forwarded. -/
def forwardedKeys (cluster : BenchCluster N) : List BenchKey :=
  cluster.session.forwarded.map fun entry => entry.2.message.1.frame.benchKey

/-- Nobody gives up.  Every input that was sent is in one place, or its result was
forwarded; what the user takes are forwarded results, and when it ends it has the
result of each of its inputs. -/
structure Sound (sizes : BenchSizes) (cluster : BenchCluster N) : Prop where
  noFault : cluster.session.fault = none
  noneRetired : cluster.session.retired = []
  userGoesOn : cluster.user.stage ≠ .failed
  sessionLasts : cluster.session.phase = .returned → cluster.user.stage = .closed
  nodesGoOn : cluster.session.phase ≠ .returned → ∀ node, cluster.nodes node ≠ .ended
  conserved : cluster.user.sent.map Frame.benchKey ~
    cluster.inFlight ++ cluster.forwardedKeys
  results : ∀ frame ∈ cluster.user.results, frame.HoldsBlock sizes.outputSize
  taken : cluster.user.results.map Frame.benchKey <+~ cluster.forwardedKeys
  complete : cluster.user.stage = .closed →
    cluster.user.results.map Frame.benchKey ~ cluster.user.sent.map Frame.benchKey

/-- What follows the accepted inputs on the user's stream are inputs. -/
theorem Inv.filter_isData (hinv : cluster.Inv nodes sizes) {front : List Frame}
    {messages : List ValidMessage}
    (hsent : front ++ messages.map (fun message => message.1.frame) =
      cluster.user.sent) :
    messages.filter isData = messages := by
  apply List.filter_eq_self.mpr
  intro message hmem
  have hframe : message.1.frame ∈ cluster.user.sent := by
    rw [← hsent]
    apply List.mem_append_right
    exact List.mem_map_of_mem (f := fun message : ValidMessage => message.1.frame) hmem
  have htype : message.1.header.type = .data :=
    (hinv.user.blocks _ hframe).type_eq
  rw [isData, htype]
  rfl

/-- The user's inputs are those that were accepted and, behind them, those that are on
the way to the server. -/
theorem Inv.sent_eq (hinv : cluster.Inv nodes sizes) :
    cluster.user.sent =
      cluster.session.accepted.map (fun input => input.message.1.frame) ++
        (cluster.toServer.filter isData).map fun message => message.1.frame := by
  have hstream := hinv.stream
  rw [Session.takenFrames, BenchUser.written] at hstream
  cases hconfigs : cluster.session.acceptedConfigs with
  | nil =>
      have haccepted : cluster.session.accepted = [] := by
        apply List.eq_nil_iff_forall_not_mem.mpr
        intro input hmem
        obtain ⟨_, _, hsome, _⟩ := hinv.known.oneConfig.inputs input hmem
        rw [hconfigs] at hsome
        cases hsome
      rw [hconfigs, haccepted] at hstream
      rw [haccepted, List.map_nil, List.nil_append]
      cases hto : cluster.toServer with
      | nil =>
          rw [hto] at hstream
          split at hstream
          · next hstage => exact (hinv.user.early (Or.inl hstage)).1
          · cases hstream
      | cons first rest =>
          rw [hto] at hstream
          split at hstream
          · cases hstream
          · obtain ⟨hfirst, hrest⟩ := List.cons.inj hstream
            have htype : first.1.header.type = .config := congrArg Frame.type hfirst
            have hnot : isData first = false := by
              rw [isData, htype]
              rfl
            have hsent : [] ++ rest.map (fun message => message.1.frame) =
                cluster.user.sent := hrest
            rw [List.filter_cons_of_neg (by simp [hnot]), hinv.filter_isData hsent,
              hrest]
  | cons first later =>
      have hone := hinv.known.oneAccepted
      rw [hconfigs, List.length_cons] at hone
      have hlater : later = [] := List.eq_nil_of_length_eq_zero (by omega)
      rw [hconfigs, hlater] at hstream
      split at hstream
      · cases hstream
      · have hrest : cluster.session.accepted.map (fun input => input.message.1.frame) ++
            cluster.toServer.map (fun message => message.1.frame) = cluster.user.sent :=
          (List.cons.inj hstream).2
        rw [hinv.filter_isData hrest, hrest]

theorem Inv.conserved (hinv : cluster.Inv nodes sizes) :
    cluster.user.sent.map Frame.benchKey ~
      cluster.inFlight ++ cluster.forwardedKeys := by
  have hkeys := hinv.known.accepted_keys
  have hat := hinv.inputs.map fun entry => Session.inputKey entry.2
  rw [hinv.sent_eq, List.map_append, List.map_map, List.map_map, inFlight]
  rw [List.perm_iff_count] at hkeys hat ⊢
  intro key
  have hcount := hkeys key
  have hnodes := hat key
  have hinputs : (cluster.session.accepted.map
      (Frame.benchKey ∘ fun input => input.message.1.frame)).count key =
        (cluster.session.accepted.map Session.inputKey).count key := rfl
  have hmessages : ((cluster.toServer.filter isData).map
      (Frame.benchKey ∘ fun message => message.1.frame)).count key =
        ((cluster.toServer.filter isData).map
          fun message => message.1.frame.benchKey).count key := rfl
  simp only [List.count_append, forwardedKeys] at hcount hnodes ⊢
  omega

/-- What the user has taken was forwarded. -/
theorem Inv.taken (hinv : cluster.Inv nodes sizes) :
    cluster.user.results <+~
      cluster.session.forwarded.map fun entry => entry.2.message.1.frame := by
  have hread := hinv.reads
  rw [BenchUser.read] at hread
  split at hread
  · next hstage =>
      rw [(hinv.user.early (Or.inl hstage)).2.1]
      exact List.nil_subperm
  · next hstage =>
      rw [(hinv.user.early (Or.inr hstage)).2.1]
      exact List.nil_subperm
  · obtain ⟨rest, hrest⟩ := hread
    have htail := (hinv.known.readable.reads_tail hrest.symm).2
    exact (List.sublist_append_left _ _).subperm.trans htail

theorem Inv.sound (hinv : cluster.Inv nodes sizes) : cluster.Sound sizes := by
  have htaken : cluster.user.results.map Frame.benchKey <+~ cluster.forwardedKeys := by
    obtain ⟨results, hperm, hsublist⟩ := hinv.taken
    have hkeys := hsublist.map Frame.benchKey
    rw [List.map_map] at hkeys
    exact ⟨_, hperm.map _, hkeys⟩
  constructor
  · exact hinv.known.bench.noFault
  · exact hinv.known.bench.noneRetired
  · exact hinv.user.goesOn
  · exact hinv.returned
  · exact fun hlasts node hended => hlasts (hinv.ended node hended)
  · exact hinv.conserved
  · intro frame hmem
    obtain ⟨entry, hentry, rfl⟩ := List.mem_map.mp (hinv.taken.subset hmem)
    exact hinv.known.bench.forwarded entry hentry
  · exact htaken
  · intro hclosed
    have hall := (hinv.user.of_gone (Or.inr hclosed)).2.2
    have hsent : cluster.user.results.map Frame.benchKey <+~
        cluster.user.sent.map Frame.benchKey := by
      apply htaken.trans
      apply (List.sublist_append_right cluster.inFlight _).subperm.trans
      exact hinv.conserved.symm.subperm
    apply hsent.perm_of_length_le
    rw [List.length_map, List.length_map]
    exact hall

variable [DecidableEq N]

theorem inv_of_reaches {config data receiver : Counter} (hnodup : nodes.Nodup)
    (hbound : nodes.length < 2 ^ 32) (hconfig : config.getValue = 0)
    (h : Machine.Reaches (step variant sizes) WritesAlone
      (initial nodes config data receiver) cluster) : cluster.Inv nodes sizes := by
  apply h.invariant (Inv.initial hnodup hconfig)
  intro before action after hinv hguard hstep
  exact hinv.step hbound hguard hstep

/-- The bench works, whatever the order of the parties' steps. -/
theorem sound_of_reaches (variant : Variant) (sizes : BenchSizes) {nodes : List N}
    (hnodup : nodes.Nodup) (hbound : nodes.length < 2 ^ 32)
    {config : Counter} (hconfig : config.getValue = 0) (data receiver : Counter)
    {cluster : BenchCluster N}
    (h : Machine.Reaches (step variant sizes) WritesAlone
      (initial nodes config data receiver) cluster) : cluster.Sound sizes :=
  (inv_of_reaches hnodup hbound hconfig h).sound

/-- Blocks of sixteen bytes. -/
def smallSizes : BenchSizes where
  inputSize := 16
  outputSize := 16
  stamp_le := by decide
  enough := by decide
  output_le := by decide
  small := by decide

def smallConfig : ValidMessage :=
  ⟨ofPayload .config (sizesBytes 16 16 0 ++ u32Bytes 919), rfl⟩

/-- The first input, and its result too. -/
def smallInput : ValidMessage :=
  ⟨ofPayload .data (u32Bytes 0 ++ (List.replicate 8 7 ++ List.replicate 8 0)), rfl⟩

/-- One node, and a user that stops after one input. -/
def oneInput : List (Action Nat) :=
  let zeros : Memory := fun _ => 0
  let held : Held := ⟨0, smallConfig⟩
  let input : Input := ⟨⟨3, smallInput⟩, smallConfig⟩
  let result : Held := ⟨4, smallInput⟩
  [.sendConfig zeros, .server (.firstMessage (.ok smallConfig)),
    .server (.configPiece ⟨0, held, .sending 0⟩ 24),
    .server (.configSent ⟨0, held, .sending 24⟩), .node 0 zeros smallConfig,
    .server (.configReply ⟨0, held, .receiving⟩ (.ok (.newConfigResp zeros .success))),
    .server (.configHandler ⟨0, held, .finished none⟩), .server (.configured zeros),
    .server (.respPiece 9), .server .respSent,
    .takeResponse (.newConfigResp zeros .success),
    .writeInput zeros (Vector.replicate 8 7), .inputSent 10000000,
    .server (.userMessage (.ok smallInput)), .server (.inputPiece ⟨0, input, 0⟩ 28),
    .server (.inputSent ⟨0, input, 28⟩), .node 0 zeros smallInput,
    .server (.nodeMessage ⟨0, .waiting⟩ (.ok smallInput) (some input)),
    .server (.examine ⟨0, .received (.ok result) (some input)⟩),
    .server (.forwardPiece ⟨0, .forwarding result 1 (some input)⟩ 28),
    .takeResult smallInput, .close]

theorem sound_of_reaches_oneInput :
    ∃ cluster : BenchCluster Nat,
      Machine.run (step .queue smallSizes) WritesAlone (initial [0] ⟨0⟩ ⟨0⟩ ⟨0⟩)
          oneInput = some cluster ∧
        cluster.user.stage = .closed ∧ cluster.user.results.length = 1 ∧
          cluster.Sound smallSizes := by
  have hends : (Machine.run (step .queue smallSizes) WritesAlone
      (initial [0] ⟨0⟩ ⟨0⟩ ⟨0⟩) oneInput).map (fun cluster =>
        (cluster.user.stage, cluster.user.results.length)) = some (.closed, 1) := by
    decide +kernel
  obtain ⟨cluster, hrun, hlast⟩ := Option.map_eq_some_iff.mp hends
  obtain ⟨hstage, hlength⟩ := Prod.mk.inj hlast
  exact ⟨cluster, hrun, hstage, hlength,
    sound_of_reaches .queue smallSizes (show [0].Nodup by decide) (by decide)
      (show Counter.getValue ⟨0⟩ = 0 from rfl) ⟨0⟩ ⟨0⟩
      (Machine.reaches_of_run oneInput hrun)⟩

end BenchCluster

end FpgaFramework
