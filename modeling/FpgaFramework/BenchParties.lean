/-
The parties of a bench, each by itself: what is known of the session as long as the
others keep to their programs, what the user counts, and what a node answers.
-/
import FpgaFramework.BenchFlow

namespace FpgaFramework

open scoped List

namespace Session

variable {N : Type} {variant : Variant} {sizes : BenchSizes} {nodes : List N}
  {session after : Session N} {action : Action N}

/-- What is known of a session in a bench. -/
structure BenchKnown (nodes : List N) (sizes : BenchSizes) (session : Session N) :
    Prop where
  counters : ConfigInv nodes.length session
  places : session.places ~ nodes
  handedOver : session.HandedOver
  messages : session.MessageInv
  waits : session.MainWaits
  oneConfig : session.OneConfig
  readable : session.Readable
  ticketed : session.Ticketed
  bench : BenchInv sizes session
  noneAccepted : session.BeforeLoops → session.accepted = []
  oneAccepted : session.acceptedConfigs.length ≤ 1
  atNodes : session.atNodes ⊆ session.delivered
  delivered : ∀ entry ∈ session.delivered, entry.1 ∈ nodes

theorem BenchKnown.initial {config data receiver : Counter}
    (hconfig : config.getValue = 0) :
    BenchKnown nodes sizes (initial nodes config data receiver) := by
  constructor
  · exact ConfigInv.initial hconfig
  · simp [Session.places, Session.initial, AsyncPool.empty]
  · exact Or.inr ⟨Or.inl rfl, rfl⟩
  · exact MessageInv.initial
  · rfl
  · exact OneConfig.initial
  · exact Readable.initial
  · intro loop hmem
    cases hmem
  · exact BenchInv.initial
  · exact fun _ => rfl
  · exact Nat.zero_le 1
  · exact List.Subset.refl _
  · intro entry hmem
    cases hmem

/-- The session accepts no second configuration. -/
theorem BenchKnown.oneAccepted_transition (hknown : BenchKnown nodes sizes session)
    (hserves : BenchServes sizes action)
    (h : Transition variant session action after) :
    after.acceptedConfigs.length ≤ 1 := by
  cases h with
  | firstConfig hphase =>
      simp [configureNodes, hknown.oneConfig.awaiting hphase]
  | userConfig _ hconfig hdata =>
      rw [hknown.bench.no_second hserves hconfig] at hdata
      cases hdata
  | _ => exact hknown.oneAccepted

theorem BenchKnown.atNodes_transition (hknown : BenchKnown nodes sizes session)
    (h : Transition variant session action after) :
    after.atNodes ⊆ after.delivered := by
  cases h with
  | inputWhole => exact List.cons_subset_cons _ hknown.atNodes
  | nodeAnswer _ _ _ hat =>
      intro entry hmem
      exact hknown.atNodes (hat.mem_iff.mpr (List.mem_cons_of_mem _ hmem))
  | _ => exact hknown.atNodes

theorem BenchKnown.delivered_transition (hknown : BenchKnown nodes sizes session)
    (h : Transition variant session action after) :
    ∀ entry ∈ after.delivered, entry.1 ∈ nodes := by
  cases h with
  | @inputWhole task rest count hperm =>
      intro entry hmem
      rcases List.mem_cons.mp hmem with rfl | hold
      · apply hknown.places.mem_iff.mp
        have htask := List.mem_map_of_mem (f := SendTask.node) (mem_of_perm hperm)
        simp [Session.places, htask]
      · exact hknown.delivered entry hold
  | _ => exact hknown.delivered

theorem BenchKnown.transition [DecidableEq N] (hknown : BenchKnown nodes sizes session)
    (hbound : nodes.length < 2 ^ 32) (hguard : session.WritesAlone action)
    (hserves : BenchServes sizes action) (hrunning : session.Running)
    (h : Transition variant session action after) : BenchKnown nodes sizes after where
  counters := hknown.counters.transition hbound h
  places := h.places_perm.trans hknown.places
  handedOver := hknown.handedOver.transition hknown.counters.early hrunning h
  messages := hknown.messages.transition h
  waits := hknown.waits.transition h
  oneConfig := hknown.oneConfig.transition hknown.messages hknown.waits h
  readable := hknown.readable.transition hguard hrunning h
  ticketed := hknown.ticketed.transition h
  bench := hknown.bench.transition hknown.counters hknown.waits hserves h
  noneAccepted := noneAccepted_transition hknown.noneAccepted h
  oneAccepted := hknown.oneAccepted_transition hserves h
  atNodes := hknown.atNodes_transition h
  delivered := hknown.delivered_transition h

/-- An input that was written to a node was accepted. -/
theorem BenchKnown.accepted_of_delivered (hknown : BenchKnown nodes sizes session)
    {entry : N × Input} (hmem : entry ∈ session.delivered) :
    entry.2 ∈ session.accepted := by
  have hinputs := hknown.messages.inputs entry.2
  have hpos := List.count_pos_iff.mpr (List.mem_map_of_mem (f := Prod.snd) hmem)
  apply List.count_pos_iff.mp
  omega

/-- Once an input is accepted all nodes are configured. -/
theorem BenchKnown.configured_of_accepted (hknown : BenchKnown nodes sizes session)
    {input : Input} (hmem : input ∈ session.accepted) :
    session.nodes = [] ∧ session.configTasks = [] := by
  have hsome : session.accepted ≠ [] := List.ne_nil_of_mem hmem
  obtain ⟨first, later, hconfigs, _⟩ := hknown.oneConfig.inputs input hmem
  constructor
  · rcases hknown.handedOver with hnone | ⟨_, hnone⟩
    · exact hnone
    · rw [hnone] at hconfigs
      cases hconfigs
  · rcases hknown.counters.configuring with hphase | hnone
    · refine absurd (hknown.noneAccepted ?_) hsome
      simp [BeforeLoops, hphase, Phase.beforeLoops]
    · exact hnone

/-- Before the loops no node has an input. -/
theorem BenchKnown.noneAtNodes (hknown : BenchKnown nodes sizes session)
    (hbefore : session.BeforeLoops) : session.atNodes = [] := by
  apply List.eq_nil_iff_forall_not_mem.mpr
  intro entry hmem
  have haccepted := hknown.accepted_of_delivered (hknown.atNodes hmem)
  rw [hknown.noneAccepted hbefore] at haccepted
  cases haccepted

/-- Where a receiver loop runs no task configures a node. -/
theorem BenchKnown.noneAwaiting_of_loop (hknown : BenchKnown nodes sizes session)
    {loop : Loop N} {rest : List (Loop N)} (hperm : session.loops ~ loop :: rest) :
    session.awaitingNodes = [] := by
  have hlate := hknown.counters.early.not_before_of_loops hperm
  rcases hknown.counters.configuring with hphase | hnone
  · refine absurd ?_ hlate
    simp [BeforeLoops, hphase, Phase.beforeLoops]
  · rw [awaitingNodes, hnone]
    rfl

/-- The key of an input. -/
def inputKey (input : Input) : BenchKey := input.message.1.frame.benchKey

/-- Every accepted input waits to be written to a node, is at one, is in a loop's
hands, or its result was forwarded. -/
theorem BenchKnown.accepted_keys (hknown : BenchKnown nodes sizes session) :
    session.accepted.map inputKey ~
      session.pending.map inputKey ++
        (session.atNodes.map (fun entry => inputKey entry.2) ++
          (session.loops.flatMap Loop.benchKeys ++
            session.forwarded.map fun entry => entry.2.message.1.frame.benchKey)) := by
  have hsplit : session.accepted ~
      session.pending ++ session.delivered.map Prod.snd := by
    rw [List.perm_iff_count]
    intro input
    rw [List.count_append, hknown.messages.inputs]
  have hkeys := hsplit.map inputKey
  rw [List.map_append, List.map_map] at hkeys
  exact hkeys.trans (hknown.bench.conserved.append_left _)

/-- `start` returns only because the user's connection has ended. -/
theorem BenchKnown.to_returned (hknown : BenchKnown nodes sizes session)
    (hserves : BenchServes sizes action) (hrunning : session.Running)
    (h : Transition variant session action after)
    (hreturned : after.phase = .returned) :
    ∃ ec, action = .userMessage (.error ec) := by
  cases h with
  | firstError =>
      obtain ⟨_, hok, _⟩ := hserves
      cases hok
  | firstInvalid _ hinvalid =>
      rw [(isValidConfig_of_firstMessage hserves).2] at hinvalid
      cases hinvalid
  | respError => exact hserves.elim
  | userError => exact ⟨_, rfl⟩
  | userInvalidQueue _ _ hconfig hdata =>
      rw [hknown.bench.no_second hserves hconfig] at hdata
      cases hdata
  | stopped hphase => exact absurd hphase hknown.bench.phase.2
  | firstConfig | configured | respSent | userConfig | drained => cases hreturned
  | userInput hphase =>
      rcases phase_acceptInput hphase hreturned with hafter | hafter <;>
        cases hafter
  | resumed => exact absurd (phase_of_resumed hreturned (by simp)) hrunning.2
  | _ => exact absurd hreturned hrunning.2

end Session

namespace BenchUser

variable {sizes : BenchSizes} {user : BenchUser}

/-- What the user has sent and what it has read, in order. -/
def written (sizes : BenchSizes) (user : BenchUser) : List Frame :=
  match user.stage with
  | .connected => []
  | _ => configFrame sizes :: user.sent

def read (user : BenchUser) : List Frame :=
  match user.stage with
  | .connected => []
  | .waiting => []
  | _ => Session.responseFrame :: user.results

/-- What holds of the user. -/
structure Inv (sizes : BenchSizes) (user : BenchUser) : Prop where
  goesOn : user.stage ≠ .failed
  early : user.stage = .connected ∨ user.stage = .waiting →
    user.sent = [] ∧ user.results = [] ∧ user.receiving = true
  blocks : ∀ frame ∈ user.sent, frame.HoldsBlock sizes.inputSize
  taken : user.taken = user.read.length
  received : user.messagesReceived = user.results.length
  counted : user.receiving = true →
    user.sent.length = user.messagesSent + (if user.sending = .sending then 1 else 0)
  stopped : user.receiving = true → (user.sendingDone = true ↔ user.sending = .stopped)
  done : user.receiving = false →
    user.sending = .stopped ∧ user.sent.length ≤ user.results.length
  some : user.sending = .stopped → user.sent ≠ []
  closed : user.stage = .closed → user.receiving = false

theorem Inv.initial : Inv sizes initial := by
  constructor
  · exact Stage.noConfusion
  · exact fun _ => ⟨rfl, rfl, rfl⟩
  · intro frame hmem
    cases hmem
  · rfl
  · rfl
  · exact fun _ => rfl
  · exact fun _ => ⟨Bool.noConfusion, Sending.noConfusion⟩
  · exact Bool.noConfusion
  · exact Sending.noConfusion
  · exact Stage.noConfusion

theorem sendConfig_spec (sizes : BenchSizes) (memory : Message.Memory)
    (user : BenchUser) :
    ∃ config : ValidMessage, user.sendConfig sizes memory =
        ({ user with stage := .waiting }, [config]) ∧
      config.1.frame = configFrame sizes := by
  obtain ⟨config, hconfig, hvalid, hframe⟩ := benchmarkingConfig_spec sizes memory
  refine ⟨⟨config, hvalid⟩, ?_, hframe⟩
  rw [sendConfig, hconfig, Option.bind_some, Message.checked_of_valid hvalid]

theorem writeInput_spec (sizes : BenchSizes) (memory : Message.Memory)
    (t : Vector UInt8 8) (user : BenchUser) :
    ∃ input : ValidMessage, user.writeInput sizes memory t.toList =
        ({ user with
          sending := .sending
          sent := user.sent ++ [input.1.frame] }, [input]) ∧
      input.1.frame.HoldsBlock sizes.inputSize := by
  obtain ⟨input, hinput, hvalid, hholds, _⟩ := newInput_spec sizes memory user.currId
    (show t.toList.length = 8 by simp)
  refine ⟨⟨input, hvalid⟩, ?_, hholds⟩
  rw [writeInput, hinput, Option.bind_some, Message.checked_of_valid hvalid]

theorem takeResponse_spec (response : ValidMessage)
    (hframe : response.1.frame = Session.responseFrame) (user : BenchUser) :
    user.takeResponse response.1 =
      { user with
        stage := .running
        taken := user.taken + 1 } := by
  obtain ⟨hvalid, hstatus⟩ := Session.accepts_of_responseFrame response hframe
  have haccepts : acceptsResponse response.1 = true := by
    rw [acceptsResponse, hvalid, hstatus]
    rfl
  rw [takeResponse, if_pos haccepts]

theorem takeResult_spec (result : ValidMessage)
    (h : result.1.frame.HoldsBlock sizes.outputSize) (user : BenchUser) :
    user.takeResult sizes result.1 =
      checkDone { user with
        messagesReceived := user.messagesReceived + 1
        taken := user.taken + 1
        results := user.results ++ [result.1.frame] } := by
  rw [takeResult, examine_of_frame result h]

theorem Inv.sendConfig (hinv : user.Inv sizes) (hstage : user.stage = .connected) :
    Inv sizes { user with stage := .waiting } := by
  obtain ⟨_, hearly, hblocks, htaken, hreceived, hcounted, hstopped, hdone, hsome, _⟩ :=
    hinv
  rw [read, hstage] at htaken
  exact ⟨Stage.noConfusion, fun _ => hearly (Or.inl hstage), hblocks, htaken, hreceived,
    hcounted, hstopped, hdone, hsome, Stage.noConfusion⟩

theorem Inv.takeResponse (hinv : user.Inv sizes) (hstage : user.stage = .waiting) :
    Inv sizes { user with
      stage := .running
      taken := user.taken + 1 } := by
  obtain ⟨_, hearly, hblocks, htaken, hreceived, hcounted, hstopped, hdone, hsome, _⟩ :=
    hinv
  obtain ⟨_, hresults, _⟩ := hearly (Or.inr hstage)
  rw [read, hstage] at htaken
  refine ⟨Stage.noConfusion, ?_, hblocks, ?_, hreceived, hcounted, hstopped, hdone,
    hsome, Stage.noConfusion⟩
  · rintro (hother | hother) <;> cases hother
  · rw [htaken, read, hresults]
    rfl

theorem Inv.writeInput (hinv : user.Inv sizes) (hstage : user.stage = .running)
    (hsending : user.sending = .delaying) {frame : Frame}
    (hholds : frame.HoldsBlock sizes.inputSize) :
    Inv sizes { user with
      sending := .sending
      sent := user.sent ++ [frame] } := by
  obtain ⟨hgoesOn, _, hblocks, htaken, hreceived, hcounted, hstopped, hdone, _, _⟩ :=
    hinv
  have hwaits : user.receiving = true := by
    by_contra hends
    have hother := (hdone (Bool.eq_false_of_not_eq_true hends)).1
    rw [hsending] at hother
    cases hother
  constructor
  · exact hgoesOn
  · intro hearly
    rw [hstage] at hearly
    rcases hearly with hother | hother <;> cases hother
  · intro other hmem
    rcases List.mem_append.mp hmem with hold | hnew
    · exact hblocks other hold
    · rw [List.mem_singleton.mp hnew]
      exact hholds
  · exact htaken
  · exact hreceived
  · intro _
    have hcount := hcounted hwaits
    rw [hsending, if_neg Sending.noConfusion] at hcount
    simp only [List.length_append, List.length_singleton, if_true]
    omega
  · intro _
    simp only [hstopped hwaits, hsending, reduceCtorEq]
  · intro hends
    rw [show user.receiving = false from hends] at hwaits
    cases hwaits
  · exact Sending.noConfusion
  · intro hclosed
    rw [hstage] at hclosed
    cases hclosed

theorem Inv.inputSent (hinv : user.Inv sizes) (hsending : user.sending = .sending)
    (elapsed : Nat) : Inv sizes (user.inputSent elapsed) := by
  obtain ⟨hgoesOn, hearly, hblocks, htaken, hreceived, hcounted, hstopped, hdone, _,
    hclosed⟩ := hinv
  have hwaits : user.receiving = true := by
    by_contra hends
    have hother := (hdone (Bool.eq_false_of_not_eq_true hends)).1
    rw [hsending] at hother
    cases hother
  have hcount := hcounted hwaits
  rw [hsending, if_pos rfl] at hcount
  have hopen : user.sendingDone = false := by
    have hnot : ¬user.sendingDone = true := by
      rw [hstopped hwaits, hsending]
      exact Sending.noConfusion
    exact Bool.eq_false_of_not_eq_true hnot
  constructor
  · exact hgoesOn
  · exact hearly
  · exact hblocks
  · exact htaken
  · exact hreceived
  · intro _
    simp only [BenchUser.inputSent]
    split <;> simpa using hcount
  · intro _
    simp only [BenchUser.inputSent, hopen, Bool.false_or, decide_eq_true_eq]
    by_cases hlong : 10 * 1000 * 1000 ≤ elapsed
    · simp only [hlong, if_true]
    · simp only [hlong, if_false, false_iff]
      exact Sending.noConfusion
  · intro hends
    rw [show user.receiving = false from hends] at hwaits
    cases hwaits
  · intro _ hnone
    rw [show user.sent = [] from hnone] at hcount
    simp at hcount
  · exact hclosed

theorem Inv.takeResult (hinv : user.Inv sizes) (hstage : user.stage = .running)
    (hwaits : user.receiving = true) (frame : Frame) :
    Inv sizes (checkDone { user with
      messagesReceived := user.messagesReceived + 1
      taken := user.taken + 1
      results := user.results ++ [frame] }) := by
  obtain ⟨hgoesOn, _, hblocks, htaken, hreceived, hcounted, hstopped, _, hsome,
    _⟩ := hinv
  have hlate : ¬(user.stage = .connected ∨ user.stage = .waiting) := by
    rw [hstage]
    rintro (hother | hother) <;> cases hother
  have hlive : user.stage ≠ .closed := by
    rw [hstage]
    exact Stage.noConfusion
  have hread :
      user.taken + 1 = (Session.responseFrame :: (user.results ++ [frame])).length := by
    rw [htaken, read, hstage]
    simp
  have hresults : user.messagesReceived + 1 = (user.results ++ [frame]).length := by
    rw [hreceived, List.length_append, List.length_singleton]
  rw [checkDone]
  split
  · next hends =>
      obtain ⟨hsent, hall⟩ := hends
      have hsending := (hstopped hwaits).mp hsent
      have hcount := hcounted hwaits
      rw [hsending, if_neg Sending.noConfusion] at hcount
      refine ⟨hgoesOn, fun hearly => absurd hearly hlate, hblocks, ?_, hresults, ?_, ?_,
        ?_, hsome, fun hclosed => absurd hclosed hlive⟩
      · simp only [read, hstage]
        exact hread
      · exact Bool.noConfusion
      · exact Bool.noConfusion
      · intro _
        refine ⟨hsending, ?_⟩
        simp only at hall ⊢
        omega
  · refine ⟨hgoesOn, fun hearly => absurd hearly hlate, hblocks, ?_, hresults, hcounted,
      hstopped, ?_, hsome, fun hclosed => absurd hclosed hlive⟩
    · simp only [read, hstage]
      exact hread
    · intro hends
      rw [show user.receiving = false from hends] at hwaits
      cases hwaits

theorem Inv.close (hinv : user.Inv sizes) (hstage : user.stage = .running)
    (hends : user.receiving = false) : Inv sizes { user with stage := .closed } := by
  obtain ⟨_, _, hblocks, htaken, hreceived, hcounted, hstopped, hdone, hsome, _⟩ := hinv
  refine ⟨Stage.noConfusion, ?_, hblocks, ?_, hreceived, hcounted, hstopped, hdone,
    hsome, fun _ => hends⟩
  · rintro (hother | hother) <;> cases hother
  · rw [htaken, read, hstage]
    rfl

/-- A user that is gone has read the response and a result for each of its inputs,
of which there is one. -/
theorem Inv.of_gone (hinv : user.Inv sizes) (hgone : user.Gone) :
    user.stage = .closed ∧ user.sent ≠ [] ∧ user.sent.length ≤ user.results.length := by
  have hclosed := hgone.resolve_left hinv.goesOn
  obtain ⟨hsending, hall⟩ := hinv.done (hinv.closed hclosed)
  exact ⟨hclosed, hinv.some hsending, hall⟩

end BenchUser

namespace BenchNode

variable {sizes : BenchSizes}

theorem takeFirst_spec (memory : Message.Memory) (message : ValidMessage)
    (hframe : message.1.frame = BenchUser.configFrame sizes) :
    takeFirst memory message =
        (.processing message, [⟨.newConfigResp memory .success, none⟩]) ∧
      BenchUser.ReadsConfig sizes message.1 := by
  have hreads := BenchUser.readsConfig_of_frame message hframe
  have htakes : takesConfig message.1 = true := decide_eq_true hreads.taken
  refine ⟨?_, hreads⟩
  rw [takeFirst, if_pos hreads.valid, if_pos htakes]

theorem takeInput_spec (memory : Message.Memory) {config : ValidMessage}
    (hconfig : BenchUser.ReadsConfig sizes config.1) (message : ValidMessage)
    (hholds : message.1.frame.HoldsBlock sizes.inputSize) (answers : Option Input) :
    ∃ output : ValidMessage,
      takeInput memory config message answers =
          (.processing config, [⟨output, answers⟩]) ∧
        Session.BenchResult sizes message output := by
  obtain ⟨output, houtput, hvalid, hblock, hkey⟩ :=
    BenchUser.processInput_spec memory hconfig message hholds
  have hdata : message.1.isValidData config.1.inputSize = some true := by
    rw [hconfig.input_eq]
    exact BenchUser.isValidData_of_frame message (BenchUser.inputSize_ne_zero sizes)
      hholds
  exact ⟨⟨output, hvalid⟩, takeInput_of_checked hdata houtput hvalid answers,
    hblock, hkey⟩

/-- The node has the configuration, or its connection has ended. -/
def Stage.Configured (sizes : BenchSizes) (stage : Stage) : Prop :=
  stage = .ended ∨
    ∃ config, stage = .processing config ∧ BenchUser.ReadsConfig sizes config.1

end BenchNode

end FpgaFramework
