/-
What the user is sent.  The response comes first and alone, and after it the
results that the receiver loops forward: of each node the first ones that were
received from it, in order.
-/
import FpgaFramework.SessionLoops
import FpgaFramework.SessionStream

namespace FpgaFramework

open scoped List

namespace Session

variable {N : Type} {variant : Variant} {session after : Session N}
  {action : Action N}

/-- Results are forwarded only after the response has been sent whole. -/
structure ResponseFirst (session : Session N) : Prop where
  none : session.phase = .awaitingConfig ∨ session.phase = .configuring →
    session.user.messages = []
  responding : ∀ response ticket,
    session.phase = .responding response ticket → ticket = 0
  order : session.user.messages = [] ∧ session.forwarded = [] ∨
    ∃ memory, session.user.messages =
      .newConfigResp memory .success ::
        session.forwarded.map (fun entry => entry.2.message)
  before : session.BeforeLoops → session.forwarded = []
  mainLoop : session.phase.mainLoop = true → session.user.Done encode 0
  sent : session.forwarded ≠ [] → session.user.Done encode 0

theorem ResponseFirst.initial {nodes : List N}
    {config data receiver : Counter} :
    ResponseFirst (initial nodes config data receiver) :=
  ⟨fun _ => rfl, nofun, Or.inl ⟨rfl, rfl⟩, fun _ => rfl, nofun, nofun⟩

theorem Early.mainLoop_of_loop (hearly : session.Early)
    (hrunning : session.Running) {loop : Loop N} {rest : List (Loop N)}
    (hperm : session.loops ~ loop :: rest) :
    session.phase.mainLoop = true :=
  Phase.mainLoop_of_not_before (hearly.not_before_of_loops hperm) hrunning.2

/-- Nothing that the user is sent changes, nor does `start` go on. -/
theorem ResponseFirst.of_same (hinv : session.ResponseFirst)
    (hphase : after.phase = session.phase) (huser : after.user = session.user)
    (hforwarded : after.forwarded = session.forwarded) :
    after.ResponseFirst := by
  obtain ⟨hnone, hresponding, horder, hbefore, hmain, hsent⟩ := hinv
  simp only [BeforeLoops, ← hphase] at hbefore hnone hresponding hmain
  rw [← huser, ← hforwarded] at horder
  rw [← huser] at hnone hmain
  rw [← hforwarded] at hbefore
  rw [← hforwarded, ← huser] at hsent
  exact ⟨hnone, hresponding, horder, hbefore, hmain, hsent⟩

/-- The main loop goes on, or `start` returns. -/
theorem ResponseFirst.of_later (hinv : session.ResponseFirst)
    (hphase : after.phase = .returned ∨
      session.phase.mainLoop = true ∧ after.phase.mainLoop = true)
    (huser : after.user = session.user)
    (hforwarded : after.forwarded = session.forwarded) :
    after.ResponseFirst := by
  have hlate : ¬after.phase.beforeLoops = true := by
    rcases hphase with hphase | ⟨_, hphase⟩
    · simp [hphase, Phase.beforeLoops]
    · cases hafter : after.phase <;> simp_all [Phase.beforeLoops, Phase.mainLoop]
  constructor
  · rintro (hother | hother) <;> simp [hother, Phase.beforeLoops] at hlate
  · intro response ticket hother
    simp [hother, Phase.beforeLoops] at hlate
  · rw [huser, hforwarded]
    exact hinv.order
  · exact fun hbefore => absurd hbefore hlate
  · intro hmain
    rw [huser]
    rcases hphase with hphase | ⟨hphase, _⟩
    · rw [hphase] at hmain
      cases hmain
    · exact hinv.mainLoop hphase
  · rw [huser, hforwarded]
    exact hinv.sent

theorem ResponseFirst.piece (hinv : session.ResponseFirst)
    {ticket count : Nat} {user : SharedStream ValidMessage UInt8}
    (hpiece : session.user.piece encode ticket count = some user) :
    ResponseFirst { session with user := user } := by
  have hmessages := SharedStream.messages_piece hpiece
  obtain ⟨hnone, hresponding, horder, hbefore, hmain, hsent⟩ := hinv
  rw [← hmessages] at horder hnone
  exact ⟨hnone, hresponding, horder, hbefore,
    fun hphase => (hmain hphase).piece hpiece,
    fun hsome => (hsent hsome).piece hpiece⟩

theorem ResponseFirst.forward (hinv : session.ResponseFirst)
    (hmain : session.phase.mainLoop = true) {loop : Loop N}
    (loops : List (Loop N)) (held : Held) :
    ResponseFirst { session with
      loops := loops
      user := session.user.begin held.message
      forwarded := session.forwarded ++ [(loop.node, held)] } := by
  have hdone := hinv.mainLoop hmain
  have hlate : session.phase ≠ .awaitingConfig ∧ session.phase ≠ .configuring ∧
      ¬session.BeforeLoops ∧
        ∀ response ticket, session.phase ≠ .responding response ticket := by
    cases hphase : session.phase <;>
      simp_all [BeforeLoops, Phase.mainLoop, Phase.beforeLoops]
  constructor
  · exact fun hphase => (hphase.elim hlate.1 hlate.2.1).elim
  · exact fun response ticket hphase =>
      absurd hphase (hlate.2.2.2 response ticket)
  · rcases hinv.order with ⟨hnone, _⟩ | ⟨memory, hsome⟩
    · have hlength := hdone.lt_length
      rw [SharedStream.messages, List.map_eq_nil_iff] at hnone
      simp [hnone] at hlength
    · refine Or.inr ⟨memory, ?_⟩
      simp [hsome]
  · exact fun hbefore => absurd hbefore hlate.2.2.1
  · exact fun _ => hdone.begin _
  · exact fun _ => hdone.begin _

theorem ResponseFirst.transition (hinv : session.ResponseFirst)
    (hearly : session.Early) (hrunning : session.Running)
    (h : Transition variant session action after) : after.ResponseFirst := by
  cases h with
  | firstError | firstInvalid | respError | userError | userInvalidQueue
  | stopped =>
      exact hinv.of_later (Or.inl rfl) rfl rfl
  | firstConfig hphase =>
      have hforwarded := hinv.before (beforeLoops_of_awaiting hphase)
      constructor
      · exact fun _ => hinv.none (Or.inl hphase)
      · intro response ticket hother
        cases hother
      · exact hinv.order
      · exact fun _ => hforwarded
      · intro hmain
        cases hmain
      · exact fun hsome => absurd hforwarded hsome
  | @configured memory response hphase _ hresponse =>
      have hnone := hinv.none (Or.inr hphase)
      have hforwarded : session.forwarded = [] :=
        hinv.before (by simp [BeforeLoops, hphase, Phase.beforeLoops])
      have hlength : session.user.sends.length = 0 := by
        rw [SharedStream.messages, List.map_eq_nil_iff] at hnone
        rw [hnone, List.length_nil]
      constructor
      · rintro (hother | hother) <;> cases hother
      · intro other ticket hother
        cases hother
        exact hlength
      · exact Or.inr ⟨memory, by simp [hnone, hforwarded, hresponse]⟩
      · exact fun _ => hforwarded
      · intro hmain
        cases hmain
      · exact fun hsome => absurd hforwarded hsome
  | respPiece _ hpiece => exact hinv.piece hpiece
  | respSent hphase hdone =>
      have hforwarded : session.forwarded = [] :=
        hinv.before (by simp [BeforeLoops, hphase, Phase.beforeLoops])
      rw [hinv.responding _ _ hphase] at hdone
      constructor
      · rintro (hother | hother) <;> cases hother
      · intro response ticket hother
        cases hother
      · exact hinv.order
      · exact fun _ => hforwarded
      · exact fun _ => hdone
      · exact fun hsome => absurd hforwarded hsome
  | userInput hphase =>
      refine hinv.of_later (Or.inr ⟨by simp [hphase, Phase.mainLoop], ?_⟩) rfl rfl
      rcases phase_acceptInput hphase rfl with hafter | hafter <;>
        rw [hafter] <;> rfl
  | userConfig hphase | drained hphase =>
      exact hinv.of_later (Or.inr ⟨by simp [hphase, Phase.mainLoop], rfl⟩) rfl rfl
  | inputSendError => exact hinv.of_same rfl rfl rfl
  | resumed _ _ hwaiters =>
      have hlate : ¬session.phase.beforeLoops = true := fun hbefore =>
        not_nil_of_perm hwaiters (hearly.noWaiters hbefore)
      have hmain := Phase.mainLoop_of_not_before hlate hrunning.2
      refine hinv.of_later (Or.inr ⟨hmain, ?_⟩) rfl rfl
      dsimp only
      split
      · rfl
      · exact hmain
  | examineValid hperm =>
      exact hinv.forward (hearly.mainLoop_of_loop hrunning hperm) _ _
  | forwardPiece _ _ hpiece => exact hinv.piece hpiece
  | _ => exact hinv.of_same rfl rfl rfl

/-- A valid data message has the data type. -/
theorem type_of_isValidData {message : Message} {size : UInt32}
    (h : message.isValidData size = some true) : message.header.type = .data := by
  by_contra hnot
  simp [Message.isValidData, hnot] at h

/-- What the forwarding of a result requires. -/
theorem Transition.forwarded (h : Transition variant session action after) :
    after.forwarded = session.forwarded ∨
      ∃ loop rest held answers config, action = .examine loop ∧
        session.loops ~ loop :: rest ∧
        loop.stage = .received (.ok held) answers ∧
        after.forwarded = session.forwarded ++ [(loop.node, held)] ∧
        session.config = some config ∧
        held.message.1.isValidData config.message.1.outputSize = some true := by
  cases h with
  | examineValid hperm hstage hconfig hdata =>
      exact Or.inr ⟨_, _, _, _, _, rfl, hperm, hstage, rfl, hconfig, hdata⟩
  | _ => exact Or.inl rfl

/-- The message that a receiver loop has received and not examined. -/
def Loop.inHand (loop : Loop N) : List Held :=
  match loop.stage with
  | .received (.ok held) _ => [held]
  | _ => []

/-- Every received message has an object of its own. -/
structure ResultsFresh (session : Session N) : Prop where
  before : session.BeforeLoops → session.results = []
  lt : ∀ entry ∈ session.results, entry.2.id < session.nextId
  nodup : (session.results.map (·.2.id)).Nodup

theorem ResultsFresh.initial {nodes : List N} {config data receiver : Counter} :
    ResultsFresh (initial nodes config data receiver) :=
  ⟨fun _ => rfl, nofun, List.nodup_nil⟩

theorem Transition.results (h : Transition variant session action after) :
    after.results = session.results ∨
      ∃ entry : N × Held, after.results = session.results ++ [entry] ∧
        entry.2.id = session.nextId ∧ after.nextId = session.nextId + 1 ∧
          after.phase = session.phase ∧ session.loops ≠ [] := by
  cases h with
  | nodeUnasked hperm _ hheld | nodeAnswer hperm _ hheld =>
      exact Or.inr ⟨_, rfl, by rw [hheld], rfl, rfl, not_nil_of_perm hperm⟩
  | _ => exact Or.inl rfl

theorem ResultsFresh.transition (hinv : session.ResultsFresh)
    (hearly : session.Early)
    (h : Transition variant session action after) : after.ResultsFresh := by
  rcases h.results with heq | ⟨entry, heq, hid, hnext, hphase, hloops⟩
  · constructor
    · intro hbefore
      rw [heq]
      exact hinv.before (h.to_before hbefore)
    · intro entry hmem
      rw [heq] at hmem
      exact lt_of_lt_of_le (hinv.lt entry hmem) h.nextId_le
    · rw [heq]
      exact hinv.nodup
  · constructor
    · intro hbefore
      rw [BeforeLoops, hphase] at hbefore
      exact absurd (hearly.noLoops hbefore) hloops
    · intro other hmem
      rw [heq] at hmem
      rcases List.mem_append.mp hmem with hold | hnew
      · have hlt := hinv.lt other hold
        omega
      · rw [List.mem_singleton.mp hnew, hid, hnext]
        exact Nat.lt_succ_self _
    · rw [heq, List.map_append, List.map_singleton, ← List.concat_eq_append]
      apply hinv.nodup.concat
      intro hmem
      obtain ⟨old, hold, hsame⟩ := List.mem_map.mp hmem
      have hlt := hinv.lt old hold
      omega

section

variable [DecidableEq N]

/-- The messages of one node in such a list. -/
def ofNode (entries : List (N × Held)) (node : N) : List Held :=
  (entries.filter (·.1 = node)).map Prod.snd

theorem ofNode_append_self (entries : List (N × Held)) (node : N) (held : Held) :
    ofNode (entries ++ [(node, held)]) node = ofNode entries node ++ [held] := by
  simp [ofNode]

theorem ofNode_append_other (entries : List (N × Held)) {node other : N}
    (hne : other ≠ node) (held : Held) :
    ofNode (entries ++ [(node, held)]) other = ofNode entries other := by
  simp [ofNode, hne.symm]

/-- What a node's receiver loop has forwarded is what it has received, up to the
message that it has in hand. -/
structure InOrder (session : Session N) : Prop where
  prefixes : ∀ node,
    ofNode session.forwarded node <+: ofNode session.results node
  caughtUp : ∀ loop ∈ session.loops, loop.stage ≠ .finished →
    ofNode session.results loop.node =
      ofNode session.forwarded loop.node ++ Loop.inHand loop

theorem InOrder.initial {nodes : List N} {config data receiver : Counter} :
    InOrder (initial nodes config data receiver) :=
  ⟨fun _ => List.prefix_refl _, nofun⟩

theorem node_ne_of_oneReader (hone : ∀ node, session.readers.count node ≤ 1)
    {loop : Loop N} {rest : List (Loop N)} (hperm : session.loops ~ loop :: rest) :
    ∀ other ∈ rest, other.node ≠ loop.node := by
  intro other hmem hsame
  have hcount := hone loop.node
  have hloops := (hperm.map Loop.node).count_eq loop.node
  have hpos : 0 < (rest.map Loop.node).count loop.node :=
    List.count_pos_iff.mpr (hsame ▸ List.mem_map_of_mem hmem)
  simp only [readers, List.count_append] at hcount
  simp only [List.map_cons, List.count_cons_self] at hloops
  omega

/-- A loop that neither takes nor forwards a message in the step. -/
theorem InOrder.of_move (hinv : session.InOrder) {loop : Loop N}
    {stage : LoopStage} {rest : List (Loop N)}
    (hperm : session.loops ~ loop :: rest)
    (hloops : after.loops = { loop with stage := stage } :: rest)
    (hhand : stage ≠ .finished → loop.stage ≠ .finished ∧
      Loop.inHand { loop with stage := stage } = Loop.inHand loop)
    (hresults : after.results = session.results)
    (hforwarded : after.forwarded = session.forwarded) : after.InOrder := by
  constructor
  · rw [hresults, hforwarded]
    exact hinv.prefixes
  · intro other hmem hrunning
    rw [hresults, hforwarded]
    rw [hloops] at hmem
    rcases List.mem_cons.mp hmem with rfl | hrest
    · obtain ⟨hstage, hsame⟩ := hhand hrunning
      rw [hsame]
      exact hinv.caughtUp loop (mem_of_perm hperm) hstage
    · exact forall_rest hinv.caughtUp hperm other hrest hrunning

/-- A waiting loop has a message. -/
theorem InOrder.receive (hinv : session.InOrder)
    (hone : ∀ node, session.readers.count node ≤ 1) {loop : Loop N}
    {rest : List (Loop N)} {held : Held} {answers : Option Input}
    (hperm : session.loops ~ loop :: rest) (hstage : loop.stage = .waiting)
    (hloops : after.loops =
      { loop with stage := .received (.ok held) answers } :: rest)
    (hresults : after.results = session.results ++ [(loop.node, held)])
    (hforwarded : after.forwarded = session.forwarded) : after.InOrder := by
  constructor
  · intro node
    rw [hresults, hforwarded]
    refine (hinv.prefixes node).trans ?_
    rw [ofNode, ofNode, List.filter_append, List.map_append]
    exact List.prefix_append _ _
  · intro other hmem hrunning
    rw [hresults, hforwarded]
    rw [hloops] at hmem
    rcases List.mem_cons.mp hmem with rfl | hrest
    · have hcaught := hinv.caughtUp loop
        (mem_of_perm hperm) (by simp [hstage])
      rw [Loop.inHand, hstage, List.append_nil] at hcaught
      rw [ofNode_append_self, hcaught]
      rfl
    · rw [ofNode_append_other _ (node_ne_of_oneReader hone hperm other hrest)]
      exact forall_rest hinv.caughtUp hperm other hrest hrunning

/-- A loop forwards the message that it has in hand. -/
theorem InOrder.forward (hinv : session.InOrder)
    (hone : ∀ node, session.readers.count node ≤ 1) {loop : Loop N}
    {rest : List (Loop N)} {held : Held} {ticket : Nat} {answers : Option Input}
    (hperm : session.loops ~ loop :: rest)
    (hstage : loop.stage = .received (.ok held) answers)
    (hloops : after.loops =
      { loop with stage := .forwarding held ticket answers } :: rest)
    (hresults : after.results = session.results)
    (hforwarded : after.forwarded = session.forwarded ++ [(loop.node, held)]) :
    after.InOrder := by
  have hcaught := hinv.caughtUp loop
    (mem_of_perm hperm) (by simp [hstage])
  rw [Loop.inHand, hstage] at hcaught
  constructor
  · intro node
    rw [hresults, hforwarded]
    by_cases heq : node = loop.node
    · rw [heq, ofNode_append_self, hcaught]
    · rw [ofNode_append_other _ heq]
      exact hinv.prefixes node
  · intro other hmem hrunning
    rw [hresults, hforwarded]
    rw [hloops] at hmem
    rcases List.mem_cons.mp hmem with rfl | hrest
    · rw [ofNode_append_self, hcaught]
      exact (List.append_nil _).symm
    · rw [ofNode_append_other _ (node_ne_of_oneReader hone hperm other hrest)]
      exact forall_rest hinv.caughtUp hperm other hrest hrunning

theorem InOrder.transition (hinv : session.InOrder)
    (hfresh : session.ResultsFresh) (hearly : session.Early)
    (hone : ∀ node, session.readers.count node ≤ 1)
    (h : Transition variant session action after) : after.InOrder := by
  cases h with
  | respSent hphase =>
      have hbefore : session.BeforeLoops := by
        simp [BeforeLoops, hphase, Phase.beforeLoops]
      refine ⟨hinv.prefixes, ?_⟩
      intro loop hmem hrunning
      have hnone := hinv.prefixes loop.node
      simp only [hfresh.before hbefore] at hnone
      simp only [startLoops, hearly.noLoops hbefore, List.append_nil,
        List.mem_map] at hmem
      obtain ⟨node, _, rfl⟩ := hmem
      simp only [startLoops, hfresh.before hbefore]
      exact (List.append_eq_nil_iff.mpr ⟨List.prefix_nil.mp hnone, rfl⟩).symm
  | drained =>
      refine ⟨hinv.prefixes, ?_⟩
      intro loop hmem hrunning
      obtain ⟨old, hold, rfl⟩ := List.mem_map.mp hmem
      have hcaught := hinv.caughtUp old hold
      unfold notify at hrunning ⊢
      split
      · next hstage =>
          simpa [Loop.inHand, hstage] using hcaught
      · next hstage =>
          exact hcaught (by simpa only using hrunning)
  | nodeError hperm hstage | forwardDone hperm hstage =>
      exact hinv.of_move hperm rfl (by simp [hstage, Loop.inHand]) rfl rfl
  | examineError hperm | examineInvalid hperm | forwardError hperm
  | loopStopped hperm =>
      exact hinv.of_move hperm rfl (fun hstage => absurd rfl hstage) rfl rfl
  | nodeUnasked hperm hstage | nodeAnswer hperm hstage =>
      exact hinv.receive hone hperm hstage rfl rfl rfl
  | examineValid hperm hstage =>
      exact hinv.forward hone hperm hstage rfl rfl rfl
  | loopHandler hperm =>
      exact ⟨hinv.prefixes, forall_rest hinv.caughtUp hperm⟩
  | _ => exact ⟨hinv.prefixes, hinv.caughtUp⟩

/-- Prefixes of lists without repetitions have no repetitions. -/
theorem InOrder.nodup_forwarded (hinv : session.InOrder)
    (hfresh : session.ResultsFresh) : session.forwarded.Nodup := by
  have hcount : ∀ (entries : List (N × Held)) (node : N) (held : Held),
      (ofNode entries node).count held = entries.count (node, held) := by
    intro entries node held
    induction entries with
    | nil => rfl
    | cons entry rest ih =>
        obtain ⟨other, message⟩ := entry
        by_cases hnode : other = node
        · subst hnode
          simp [ofNode, List.count_cons] at ih ⊢
          omega
        · simp only [ofNode, List.count_cons] at ih ⊢
          simp [hnode, ih]
  have hresults : session.results.Nodup := List.Nodup.of_map _ hfresh.nodup
  rw [List.nodup_iff_count_le_one] at hresults ⊢
  rintro ⟨node, held⟩
  rw [← hcount]
  have hle := (hinv.prefixes node).sublist.count_le held
  rw [hcount session.results] at hle
  exact hle.trans (hresults (node, held))

/-- What the user of a session is sent, in one state and the next step. -/
structure UserSent (variant : Variant) (session : Session N) : Prop where
  order : session.user.messages = [] ∧ session.forwarded = [] ∨
    ∃ memory, session.user.messages =
      .newConfigResp memory .success ::
        session.forwarded.map (fun entry => entry.2.message)
  responseFirst : session.forwarded ≠ [] → session.user.Done encode 0
  data : ∀ entry ∈ session.forwarded,
    entry.2.message.1.header.type = .data
  prefixes : ∀ node,
    ofNode session.forwarded node <+: ofNode session.results node
  once : session.forwarded.Nodup
  forwards : ∀ action after, session.step variant action = some after →
    after.forwarded = session.forwarded ∨
      ∃ node held config,
        after.forwarded = session.forwarded ++ [(node, held)] ∧
        session.user.Done encode 0 ∧ session.config = some config ∧
        held.message.1.isValidData config.message.1.outputSize = some true

/-- The parts of the invariant together. -/
structure UserInv (nodes : List N) (session : Session N) : Prop where
  node : NodeInv nodes session
  response : session.ResponseFirst
  fresh : session.ResultsFresh
  inOrder : session.InOrder
  data : ∀ entry ∈ session.forwarded,
    entry.2.message.1.header.type = .data

theorem UserInv.transition {nodes : List N} (hnodup : nodes.Nodup)
    (hinv : UserInv nodes session) (hrunning : session.Running)
    (h : Transition variant session action after) : UserInv nodes after where
  node := hinv.node.transition hnodup hrunning h
  response := hinv.response.transition hinv.node.early hrunning h
  fresh := hinv.fresh.transition hinv.node.early h
  inOrder := hinv.inOrder.transition hinv.fresh hinv.node.early
    hinv.node.oneReader h
  data := by
    intro entry hmem
    rcases h.forwarded with heq | ⟨loop, _, held, _, _, _, _, _, heq, _, hdata⟩
    · rw [heq] at hmem
      exact hinv.data entry hmem
    · rw [heq] at hmem
      rcases List.mem_append.mp hmem with hold | hnew
      · exact hinv.data entry hold
      · rw [List.mem_singleton.mp hnew]
        exact type_of_isValidData hdata

theorem userInv_of_reachable {nodes : List N} (hnodup : nodes.Nodup)
    {config data receiver : Counter}
    (h : Machine.Reachable (step variant) (initial nodes config data receiver)
      session) : UserInv nodes session := by
  apply h.invariant
  · exact ⟨NodeInv.initial, ResponseFirst.initial, ResultsFresh.initial,
      InOrder.initial, nofun⟩
  · intro before action after hinv _ hstep
    obtain ⟨hrunning, htransition⟩ := transition_of_step hstep
    exact hinv.transition hnodup hrunning htransition

/-- The user is sent one response, and after it, of each node, the first messages
received from that node, each once, in order and unchanged. -/
theorem userSent_of_nodup (variant : Variant) (nodes : List N)
    (hnodup : nodes.Nodup) (config data receiver : Counter) {session : Session N}
    (h : Machine.Reachable (step variant) (initial nodes config data receiver)
      session) : UserSent variant session := by
  have hinv := userInv_of_reachable hnodup h
  refine ⟨hinv.response.order, hinv.response.sent, hinv.data,
    hinv.inOrder.prefixes, hinv.inOrder.nodup_forwarded hinv.fresh, ?_⟩
  intro action after hstep
  obtain ⟨hrunning, htransition⟩ := transition_of_step hstep
  rcases htransition.forwarded with
    heq | ⟨loop, rest, held, _, stored, _, hperm, _, heq, hconfig, hdata⟩
  · exact Or.inl heq
  · have hmain := hinv.node.early.mainLoop_of_loop hrunning hperm
    exact Or.inr ⟨loop.node, held, stored, heq, hinv.response.mainLoop hmain,
      hconfig, hdata⟩

/-- Two nodes have each sent a result, which both loops forward. -/
theorem userSent_of_nodup_two :
    ∃ session : Session Nat,
      Machine.run (step .queue) (fun _ _ => True)
        (initial [0, 1] ⟨0⟩ ⟨0⟩ ⟨0⟩) twoForwards = some session ∧
      session.forwarded = [(0, ⟨4, .data 5⟩), (1, ⟨5, .data 6⟩)] ∧
        UserSent .queue session :=
  ⟨_, rfl, rfl,
    userSent_of_nodup .queue [0, 1] (by decide) ⟨0⟩ ⟨0⟩ ⟨0⟩
      (Machine.reaches_of_run twoForwards rfl)⟩

end

end Session

end FpgaFramework
