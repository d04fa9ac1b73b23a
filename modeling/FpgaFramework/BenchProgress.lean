/-
That a bench goes on.  As long as an input has no result yet the server, a node or
the user can take a step that brings the result on.
-/
import FpgaFramework.BenchEnd
import FpgaFramework.SessionWaits

namespace FpgaFramework

open scoped List

namespace Session

variable {N : Type} {variant : Variant} {sizes : BenchSizes}
  {session after : Session N} {action : Action N}

/-- A message to the user that is not out is the response, or a loop forwards it. -/
def Owed (session : Session N) : Prop :=
  ∀ ticket < session.user.sends.length, session.user.Done encode ticket ∨
    ticket = 0 ∨ ∃ loop ∈ session.loops, loop.stage.ticket = some ticket

theorem Owed.moved (howed : session.Owed) {loop : Loop N} {rest others : List (Loop N)}
    (hperm : session.loops ~ loop :: rest) (hrest : rest ⊆ others)
    (hloop : ∀ ticket, loop.stage.ticket = some ticket →
      session.user.Done encode ticket) :
    ∀ ticket < session.user.sends.length, session.user.Done encode ticket ∨
      ticket = 0 ∨ ∃ other ∈ others, other.stage.ticket = some ticket := by
  intro ticket hlt
  rcases howed ticket hlt with hdone | hzero | ⟨other, hmem, hticket⟩
  · exact Or.inl hdone
  · exact Or.inr (Or.inl hzero)
  · rcases List.mem_cons.mp (hperm.mem_iff.mp hmem) with rfl | hother
    · exact Or.inl (hloop ticket hticket)
    · exact Or.inr (Or.inr ⟨other, hrest hother, hticket⟩)

theorem Owed.piece (howed : session.Owed) {ticket count : Nat}
    {user : SharedStream ValidMessage UInt8}
    (hpiece : session.user.piece encode ticket count = some user) :
    Owed { session with user := user } := by
  obtain ⟨_, _, _, _, _, hsends⟩ := SharedStream.piece_eq_some hpiece
  intro other hlt
  have hbefore : other < session.user.sends.length := by
    simpa only [hsends, List.length_set] using hlt
  rcases howed other hbefore with hdone | hheld
  · exact Or.inl (hdone.piece hpiece)
  · exact Or.inr hheld

theorem Owed.transition (howed : session.Owed) (hinv : BenchInv sizes session)
    (hfirst : session.ResponseFirst) (hserves : BenchServes sizes action)
    (h : Transition variant session action after) : after.Owed := by
  have hidle : ∀ {loop : Loop N} {stage : LoopStage} {rest : List (Loop N)},
      session.loops ~ loop :: rest → loop.stage.ticket = none →
        ∀ ticket < session.user.sends.length, session.user.Done encode ticket ∨
          ticket = 0 ∨ ∃ other ∈ { loop with stage := stage } :: rest,
            other.stage.ticket = some ticket := by
    intro loop stage rest hperm hnone
    refine howed.moved hperm (List.subset_cons_self _ _) ?_
    intro ticket hticket
    rw [hnone] at hticket
    cases hticket
  cases h with
  | configured hphase =>
      have hnone := hfirst.none (Or.inr hphase)
      rw [SharedStream.messages, List.map_eq_nil_iff] at hnone
      intro ticket hlt
      simp only [SharedStream.begin, hnone, List.nil_append, List.length_singleton]
        at hlt
      exact Or.inr (Or.inl (Nat.lt_one_iff.mp hlt))
  | respPiece _ hpiece | forwardPiece _ _ hpiece => exact howed.piece hpiece
  | respSent =>
      intro ticket hlt
      rcases howed ticket hlt with hdone | hzero | ⟨loop, hmem, hticket⟩
      · exact Or.inl hdone
      · exact Or.inr (Or.inl hzero)
      · exact Or.inr (Or.inr ⟨loop, List.mem_append_right _ hmem, hticket⟩)
  | drained hphase => exact absurd hphase hinv.phase.1
  | nodeError hperm hstage | nodeUnasked hperm hstage | nodeAnswer hperm hstage
  | examineError hperm hstage | examineInvalid hperm hstage
  | loopStopped hperm hstage => exact hidle hperm (by rw [hstage]; rfl)
  | examineValid hperm hstage =>
      intro ticket hlt
      simp only [SharedStream.begin, List.length_append, List.length_singleton] at hlt
      rcases Nat.lt_succ_iff_lt_or_eq.mp hlt with hold | rfl
      · rcases howed.moved hperm (List.subset_cons_self _ _) (fun other hticket => by
          rw [hstage] at hticket
          cases hticket) ticket hold with hdone | hheld
        · exact Or.inl (hdone.begin _)
        · exact Or.inr hheld
      · exact Or.inr (Or.inr ⟨_, List.mem_cons_self, rfl⟩)
  | forwardError => exact hserves.elim
  | forwardDone hperm hstage hdone =>
      refine howed.moved hperm (List.subset_cons_self _ _) ?_
      intro ticket hticket
      rw [hstage] at hticket
      cases hticket
      exact hdone
  | loopHandler hperm hstage =>
      refine howed.moved hperm (List.Subset.refl _) ?_
      intro ticket hticket
      rw [hstage] at hticket
      cases hticket
  | _ => exact howed

/-- No message to the user has more than its bytes out. -/
def Bounded (session : Session N) : Prop :=
  ∀ transfer ∈ session.user.sends, transfer.written ≤ (encode transfer.message).length

theorem Bounded.transition (hbounded : session.Bounded)
    (h : Transition variant session action after) : after.Bounded := by
  have hbegin : ∀ (message : ValidMessage) transfer,
      transfer ∈ (session.user.begin message).sends →
        transfer.written ≤ (encode transfer.message).length := by
    intro message transfer hmem
    rcases List.mem_append.mp hmem with hold | hnew
    · exact hbounded transfer hold
    · rw [List.mem_singleton.mp hnew]
      exact Nat.zero_le _
  cases h with
  | configured | examineValid => exact hbegin _
  | respPiece _ hpiece | forwardPiece _ _ hpiece =>
      obtain ⟨_, _, _, hbound, _, hsends⟩ := SharedStream.piece_eq_some hpiece
      intro transfer hmem
      rw [hsends] at hmem
      rcases List.mem_or_eq_of_mem_set hmem with hold | rfl
      · exact hbounded transfer hold
      · exact hbound
  | _ => exact hbounded

/-- What keeps the session of a bench going. -/
structure BenchLive (session : Session N) : Prop where
  served : session.Served
  announced : session.pool.Announced
  within : session.WritesWithin
  stored : session.Stored
  owed : session.Owed
  bounded : session.Bounded

theorem BenchLive.initial {nodes : List N} {config data receiver : Counter} :
    BenchLive (initial nodes config data receiver) := by
  constructor
  · exact fun hmain => Bool.noConfusion hmain
  · exact fun hsome => absurd rfl hsome
  · intro task hmem
    cases hmem
  · exact Or.inl rfl
  · intro ticket hlt
    cases hlt
  · intro transfer hmem
    cases hmem

variable [DecidableEq N]

omit [DecidableEq N] in
theorem BenchInv.keepsReaders (hinv : BenchInv sizes session)
    (hserves : BenchServes sizes action)
    (h : Transition variant session action after) : session.KeepsReaders action := by
  intro loop hended
  cases h with
  | examineError hperm hstage =>
      have hloop := hinv.loops _ (mem_of_perm hperm)
      rw [Loop.Benched, hstage] at hloop
      exact hloop.elim
  | examineDivision hmem hstage hconfig hdata =>
      rw [hinv.no_invalid hmem hstage hconfig] at hdata
      cases hdata
  | examineInvalid hperm hstage hconfig hdata =>
      rw [hinv.no_invalid (mem_of_perm hperm) hstage hconfig] at hdata
      cases hdata
  | examineValid hperm hstage hconfig hdata =>
      simp only [ended, rejects, hstage, hconfig, hdata] at hended
      cases hended
  | forwardError => exact hserves.elim
  | loopStopped hperm hstage =>
      have hloop := hinv.loops _ (mem_of_perm hperm)
      rw [Loop.Benched, hstage] at hloop
      exact hloop.elim
  | _ => cases hended

theorem BenchLive.step (hlive : session.BenchLive) {bound : Nat}
    (hconfig : ConfigInv bound session) (hinv : BenchInv sizes session)
    (hfirst : session.ResponseFirst) (hserves : BenchServes sizes action)
    (h : session.step variant action = some after) : after.BenchLive := by
  obtain ⟨hrunning, htransition⟩ := transition_of_step h
  have hguard := hinv.keepsReaders hserves htransition
  constructor
  · exact hlive.served.transition hconfig hrunning hguard htransition
  · exact announced_step hlive.announced h
  · exact hlive.within.transition htransition
  · exact hlive.stored.transition hconfig.early hrunning htransition
  · exact hlive.owed.transition hinv hfirst hserves htransition
  · exact hlive.bounded.transition htransition

omit [DecidableEq N] in
theorem BenchLive.config_of_mainLoop (hlive : session.BenchLive)
    (hrunning : session.Running) (hmain : session.phase.mainLoop = true) :
    ∃ config, session.config = some config := by
  apply Option.ne_none_iff_exists'.mp
  refine (hlive.stored.resolve_left ?_).resolve_left hrunning.2
  intro hphase
  simp [hphase, Phase.mainLoop] at hmain

/-! What the session can do by itself. -/

/-- The session can take a step by itself, without tearing its stream to the user. -/
def CanMove (variant : Variant) (session : Session N) : Prop :=
  ∃ action, BenchCluster.isOwn action = true ∧ session.WritesAlone action ∧
    (session.step variant action).isSome = true

omit [DecidableEq N] in
/-- A step that does not write to the user tears nothing. -/
theorem writesAlone_of_none (h : session.writes action = none) :
    session.WritesAlone action := by
  intro ticket hticket
  rw [h] at hticket
  cases hticket

theorem canMove_of_sendTask (hrunning : session.Running)
    (hwithin : session.WritesWithin) {task : SendTask N}
    (hmem : task ∈ session.sendTasks) : session.CanMove variant := by
  rcases Nat.lt_or_eq_of_le (hwithin task hmem) with hpart | hwhole
  · obtain ⟨written, hpiece, _⟩ :=
      @step_inputWhole N variant session _ hrunning task hmem hpart
    exact ⟨_, rfl, writesAlone_of_none rfl, Option.isSome_of_eq_some hpiece⟩
  · refine ⟨.inputSent task, rfl, writesAlone_of_none rfl, ?_⟩
    rw [step, if_pos hrunning, act, if_pos ⟨hmem, hwhole⟩]
    rfl

theorem canMove_of_piece (hrunning : session.Running) {loop : Loop N}
    (hmem : loop ∈ session.loops) {held : Held} {ticket : Nat} {answers : Option Input}
    (hstage : loop.stage = .forwarding held ticket answers)
    {transfer : Transfer ValidMessage}
    (hget : session.user.sends[ticket]? = some transfer)
    (hpart : transfer.written < (encode transfer.message).length)
    (halone : session.user.Exclusive encode ticket) : session.CanMove variant := by
  refine ⟨.forwardPiece loop ((encode transfer.message).length - transfer.written),
    rfl, ?_, ?_⟩
  · intro other hticket
    rw [writes, hstage] at hticket
    cases hticket
    exact halone
  · have hbound : 0 < (encode transfer.message).length - transfer.written ∧
        transfer.written + ((encode transfer.message).length - transfer.written) ≤
          (encode transfer.message).length := by omega
    rw [step, if_pos hrunning]
    simp only [act, hstage, hmem, SharedStream.piece, hget, if_pos hbound, if_true,
      Option.map_some]
    rfl

/-- A loop that forwards can go on, or the one that is partly out can. -/
theorem BenchLive.canMove_of_forwarding (hlive : session.BenchLive)
    (hrunning : session.Running) (hread : session.Readable)
    (hmain : session.phase.mainLoop = true) {loop : Loop N}
    (hticketed : session.Ticketed) (hmem : loop ∈ session.loops) {held : Held}
    {ticket : Nat} {answers : Option Input}
    (hstage : loop.stage = .forwarding held ticket answers) :
    session.CanMove variant := by
  by_cases hdone : session.user.Done encode ticket
  · refine ⟨.forwardDone loop, rfl, writesAlone_of_none rfl, ?_⟩
    rw [Session.step, if_pos hrunning]
    simp only [act, hstage, hmem, hdone, and_self, if_true, Option.isSome_some]
  obtain ⟨_, _, _, ⟨_, hnone⟩ | ⟨torn, transfer, hget, htorn, halone, _⟩⟩ :=
    hread.settled
  · have hlt := hticketed loop hmem ticket (by rw [hstage]; rfl)
    have hget := List.getElem?_eq_getElem hlt
    have hbound := hlive.bounded _ (List.getElem_mem hlt)
    refine canMove_of_piece hrunning hmem hstage hget ?_ ?_
    · apply Nat.lt_of_le_of_ne hbound
      intro hfull
      exact hdone ⟨_, hget, hfull⟩
    · exact fun other transfer hother _ => hnone other transfer hother
  · -- The message that is partly out is a result too, and its loop goes on.
    have hpart := SharedStream.not_done_of_torn hget htorn
    obtain ⟨hlt, _⟩ := List.getElem?_eq_some_iff.mp hget
    rcases hlive.owed torn hlt with hwhole | rfl | ⟨other, hother, hticket⟩
    · exact absurd hwhole hpart
    · exact absurd (hread.first.mainLoop hmain) hpart
    · cases hforwards : other.stage with
      | forwarding result ticket asked =>
          rw [hforwards] at hticket
          cases hticket
          exact canMove_of_piece hrunning hother hforwards hget htorn.2 halone
      | _ =>
          rw [hforwards] at hticket
          cases hticket

/-- A session that cannot move by itself has sent all, and its loops wait. -/
theorem BenchLive.canMove_or_waits (hlive : session.BenchLive)
    (hinv : BenchInv sizes session) (hrunning : session.Running)
    (hread : session.Readable) (hticketed : session.Ticketed)
    (hmain : session.phase.mainLoop = true) :
    session.CanMove variant ∨ session.sendTasks = [] ∧ session.pool.woken = [] ∧
      ∀ loop ∈ session.loops, loop.stage = .waiting := by
  by_contra hnot
  obtain ⟨hstuck, hbusy⟩ := not_or.mp hnot
  apply hbusy
  refine ⟨?_, ?_, ?_⟩
  · apply List.eq_nil_iff_forall_not_mem.mpr
    intro task hmem
    exact hstuck (canMove_of_sendTask hrunning hlive.within hmem)
  · apply List.eq_nil_iff_forall_not_mem.mpr
    intro waiter hmem
    obtain ⟨resumed, hstep, _⟩ := @step_resume N variant session _ hrunning waiter
      hmem (hinv.woken (List.ne_nil_of_mem hmem))
    apply hstuck
    exact ⟨_, rfl, writesAlone_of_none rfl, Option.isSome_of_eq_some hstep⟩
  · intro loop hmem
    have hloop := hinv.loops loop hmem
    cases hstage : loop.stage with
    | waiting => rfl
    | forwarding held ticket answers =>
        exact absurd (hlive.canMove_of_forwarding hrunning hread hmain hticketed hmem
          hstage) hstuck
    | received result answers =>
        obtain ⟨config, hsome⟩ := hlive.config_of_mainLoop hrunning hmain
        refine absurd ⟨.examine loop, rfl, writesAlone_of_none rfl, ?_⟩ hstuck
        rw [Session.step, if_pos hrunning]
        simp only [act, hstage, hmem, hsome, if_true, Option.map_some,
          Option.isSome_some]
    | notified | finished =>
        rw [Loop.Benched, hstage] at hloop
        exact hloop.elim

end Session

/-- There is a first item for a key that has one. -/
theorem takeFor_of_mem {K M : Type*} [DecidableEq K] {key : K}
    {entries : List (K × M)} {item : M} (hmem : (key, item) ∈ entries) :
    ∃ first rest, takeFor key entries = some (first, rest) := by
  induction entries with
  | nil => cases hmem
  | cons entry others ih =>
      by_cases hkey : entry.1 = key
      · exact ⟨entry.2, others, by rw [takeFor, if_pos hkey]⟩
      · rcases List.mem_cons.mp hmem with rfl | hother
        · exact absurd rfl hkey
        · obtain ⟨first, rest, htake⟩ := ih hother
          exact ⟨first, entry :: rest, by
            rw [takeFor, if_neg hkey, htake, Option.map_some]⟩

namespace BenchCluster

open BenchNode (Reply)

variable {N : Type} {variant : Variant} {sizes : BenchSizes} {nodes : List N}
  {cluster after : BenchCluster N} [DecidableEq N]

theorem other_of_isOwn {action : Session.Action N} (hown : isOwn action = true) :
    cluster.other action =
      some { cluster with toNodes := cluster.toNodes ++ sentBy action } := by
  cases action <;> first | rfl | cases hown

/-- A step moves the session by one of its own steps, or leaves it. -/
theorem session_of_step {action : Action N}
    (h : cluster.step variant sizes action = some after) :
    after.session = cluster.session ∨ ∃ sessionAction brought,
      cluster.Other sessionAction brought ∧
        cluster.session.step variant sessionAction = some after.session := by
  cases action with
  | server action =>
      obtain ⟨brought, hother, hmap⟩ := Option.bind_eq_some_iff.mp h
      obtain ⟨session, hstep, rfl⟩ := Option.map_eq_some_iff.mp hmap
      exact Or.inr ⟨action, brought, other_cases hother, hstep⟩
  | node node memory message =>
      apply Or.inl
      simp only [BenchCluster.step] at h
      split at h
      · cases h
      · obtain ⟨_, heq⟩ := Option.ite_none_right_eq_some.mp h
        rw [← Option.some.inj heq]
  | _ =>
      obtain ⟨_, heq⟩ := Option.ite_none_right_eq_some.mp h
      rw [← Option.some.inj heq]
      exact Or.inl rfl

theorem live_of_reaches {config data receiver : Counter} (hnodup : nodes.Nodup)
    (hbound : nodes.length < 2 ^ 32) (hconfig : config.getValue = 0)
    (h : Machine.Reaches (step variant sizes) WritesAlone
      (initial nodes config data receiver) cluster) : cluster.session.BenchLive := by
  induction h with
  | refl => exact Session.BenchLive.initial
  | tail hreach _ hstep ih =>
      have hinv := inv_of_reaches hnodup hbound hconfig hreach
      rcases session_of_step hstep with hsame | ⟨action, brought, hother, hmoves⟩
      · rw [hsame]
        exact ih
      · exact ih.step hinv.known.counters hinv.known.bench hinv.known.readable.first
          (hinv.serves hother hmoves) hmoves

/-- A step of the server or of a node that is no error, or the user takes a result. -/
def Action.bringsOn : Action N → Bool
  | .server (.userMessage (.ok _)) | .server (.nodeMessage _ (.ok _) _) => true
  | .server action => isOwn action
  | .node _ _ _ | .takeResult _ => true
  | _ => false

/-- Somebody can bring a result on. -/
def GoesOn (variant : Variant) (sizes : BenchSizes) (cluster : BenchCluster N) : Prop :=
  ∃ action, Action.bringsOn action = true ∧ cluster.WritesAlone action ∧
    (cluster.step variant sizes action).isSome = true

theorem goesOn_of_canMove (hmove : cluster.session.CanMove variant) :
    cluster.GoesOn variant sizes := by
  obtain ⟨action, hown, halone, hstep⟩ := hmove
  refine ⟨.server action, ?_, halone, ?_⟩
  · cases action <;> first | exact hown | cases hown
  rw [BenchCluster.step, other_of_isOwn hown, Option.bind_some, Option.isSome_map]
  exact hstep

theorem goesOn_of_toNodes (hinv : cluster.Inv nodes sizes)
    (hlasts : cluster.session.phase ≠ .returned) {entry : N × BenchMail}
    (hmem : entry ∈ cluster.toNodes) : cluster.GoesOn variant sizes := by
  have hentry : (entry.1, entry.2) ∈ cluster.toNodes := hmem
  obtain ⟨mail, rest, htake⟩ := takeFor_of_mem hentry
  refine ⟨.node entry.1 (fun _ => 0) mail.message, rfl, True.intro, ?_⟩
  have hlive : cluster.nodes entry.1 ≠ .ended :=
    fun hended => hlasts (hinv.ended entry.1 hended)
  simp only [BenchCluster.step, htake, hlive, ne_eq, not_false_eq_true, and_self,
    if_true, Option.isSome_some]

theorem goesOn_of_toServer (hrunning : cluster.session.Running)
    (hphase : cluster.session.phase = .receiving) {config : Held}
    (hconfig : cluster.session.config = some config) (hsome : cluster.toServer ≠ []) :
    cluster.GoesOn variant sizes := by
  obtain ⟨next, rest, hto⟩ := List.exists_cons_of_ne_nil hsome
  refine ⟨.server (.userMessage (.ok next)), rfl, Session.writesAlone_of_none rfl, ?_⟩
  simp only [BenchCluster.step, other, fromUser, hto, if_true, Option.bind_some,
    Session.step, if_pos hrunning, Session.act, hphase, hconfig, Option.map_some,
    Option.isSome_some]

theorem goesOn_of_reply (hinv : cluster.Inv nodes sizes)
    (hrunning : cluster.session.Running) {loop : Loop N}
    (hmem : loop ∈ cluster.session.loops) (hwaits : loop.stage = .waiting)
    {reply : Reply} (hreply : (loop.node, reply) ∈ cluster.replies) :
    cluster.GoesOn variant sizes := by
  obtain ⟨first, rest, htake⟩ := takeFor_of_mem hreply
  have hfirst : (loop.node, first) ∈ cluster.replies :=
    Session.mem_of_perm (takeFor_perm htake)
  obtain ⟨input, hanswers⟩ : ∃ input, first.answers = some input :=
    hinv.answers_some (List.perm_cons_erase hmem) hfirst
  have hat : (loop.node, input) ∈ cluster.session.atNodes := by
    apply hinv.inputs.mem_iff.mpr
    apply List.mem_append_right
    apply List.mem_flatMap.mpr
    exact ⟨_, hfirst, by simp [hanswers]⟩
  have hmay : cluster.session.MayAnswer loop (.ok first.message) (some input) := by
    intro other hother
    cases hother
    exact ⟨rfl, hat⟩
  refine ⟨.server (.nodeMessage loop (.ok first.message) (some input)), rfl,
    Session.writesAlone_of_none rfl, ?_⟩
  simp only [BenchCluster.step, other, fromNode, htake, hanswers, if_true,
    Option.bind_some, Session.step, if_pos hrunning, Session.act, hmem, hwaits, hmay,
    and_self, Option.map_some, Option.isSome_some]

/-- The user can take what is whole on its stream. -/
theorem goesOn_of_reads (hinv : cluster.Inv nodes sizes)
    (hstage : cluster.user.stage = .running) (hwaits : cluster.user.receiving = true)
    (hmore : cluster.user.taken < cluster.session.reads.length) :
    cluster.GoesOn variant sizes := by
  obtain ⟨_, picked, _, hreads, _⟩ := hinv.known.readable.reads_eq
  have hlt : cluster.user.taken < picked.length := by
    rwa [hreads, List.length_map] at hmore
  have hnext : cluster.nextFrame = some (picked[cluster.user.taken]).1.frame := by
    rw [nextFrame, hreads, List.getElem?_map, List.getElem?_eq_getElem hlt,
      Option.map_some]
  refine ⟨.takeResult picked[cluster.user.taken], rfl, True.intro, ?_⟩
  rw [BenchCluster.step, if_pos ⟨hstage, hwaits, hnext⟩, Option.isSome_some]

omit [DecidableEq N] in
/-- A main loop that is sending nothing has all nodes ready. -/
theorem Inv.items_perm (hinv : cluster.Inv nodes sizes)
    (hlast : cluster.session.phase ≠ .returned)
    (hmain : cluster.session.phase.mainLoop = true)
    (hsends : cluster.session.sendTasks = []) : cluster.session.pool.items ~ nodes := by
  have hplaces := hinv.known.places
  have hnodes : cluster.session.nodes = [] := by
    apply hinv.known.handedOver.resolve_right
    rintro ⟨hphase | hphase, _⟩
    · simp [hphase, Phase.mainLoop] at hmain
    · exact hlast hphase
  have htasks : cluster.session.configTasks = [] := by
    apply hinv.known.counters.configuring.resolve_left
    intro hphase
    simp [hphase, Phase.mainLoop] at hmain
  rw [Session.places, hnodes, htasks, hsends, hinv.known.bench.noneRetired] at hplaces
  simpa only [List.nil_append, List.map_nil, List.append_nil] using hplaces

omit [DecidableEq N] in
/-- Then the main loop receives. -/
theorem Inv.phase_receiving (hinv : cluster.Inv nodes sizes)
    (hlive : cluster.session.BenchLive) (hnodes : nodes ≠ [])
    (hrunning : cluster.session.Running)
    (hmain : cluster.session.phase.mainLoop = true)
    (hsends : cluster.session.sendTasks = [])
    (hwoken : cluster.session.pool.woken = []) :
    cluster.session.phase = .receiving := by
  cases hphase : cluster.session.phase with
  | receiving => rfl
  | dispatching =>
      have hitems := hinv.items_perm hrunning.2 hmain hsends
      have hwaits := hinv.known.waits
      rw [Session.MainWaits, if_pos hphase] at hwaits
      have hsuspended : cluster.session.pool.suspended ≠ [] := by
        intro hnone
        rw [AsyncPool.waiters, hwoken, hnone] at hwaits
        cases hwaits
      have hless := hlive.announced hsuspended
      rw [hwoken, hitems.length_eq, List.length_nil] at hless
      exact absurd (List.eq_nil_of_length_eq_zero (Nat.le_zero.mp hless)) hnodes
  | draining => exact absurd hphase hinv.known.bench.phase.1
  | stopping => exact absurd hphase hinv.known.bench.phase.2
  | awaitingConfig | configuring | responding _ _ | returned =>
      rw [hphase] at hmain
      cases hmain

/-- The server of a running user is in its main loop, or about to enter it. -/
theorem Inv.mainLoop_or_canMove (hinv : cluster.Inv nodes sizes)
    (hstage : cluster.user.stage = .running) (hrunning : cluster.session.Running) :
    cluster.session.phase.mainLoop = true ∨ cluster.session.CanMove variant := by
  have hread := hinv.reads.length_le
  rw [BenchUser.read, hstage, List.length_cons] at hread
  have hle := hinv.known.readable.length_reads_le
  have hfirst := hinv.known.readable.first
  have hmessages : cluster.session.user.sends.length =
      cluster.session.user.messages.length := (List.length_map _).symm
  have hearly : cluster.session.phase ≠ .awaitingConfig ∧
      cluster.session.phase ≠ .configuring := by
    constructor <;> intro hphase
    · rw [hfirst.none (Or.inl hphase), List.length_nil] at hmessages
      omega
    · rw [hfirst.none (Or.inr hphase), List.length_nil] at hmessages
      omega
  cases hphase : cluster.session.phase with
  | awaitingConfig => exact absurd hphase hearly.1
  | configuring => exact absurd hphase hearly.2
  | returned => exact absurd hphase hrunning.2
  | responding response ticket =>
      -- The user has read the response, so nothing of it is missing.
      have hnone := hfirst.before (by
        simp [Session.BeforeLoops, hphase, Phase.beforeLoops])
      have hlength : cluster.session.user.sends.length ≤ 1 := by
        rcases hfirst.order with ⟨hempty, _⟩ | ⟨memory, hone⟩
        · rw [hmessages, hempty]
          exact Nat.zero_le _
        · rw [hmessages, hone, hnone]
          exact Nat.le_refl _
      have hticket : ticket < cluster.session.user.sends.length := by
        rw [hfirst.responding response ticket hphase]
        omega
      have hdone := hinv.known.readable.all_done (by omega) hticket
      refine Or.inr ⟨.respSent, rfl, Session.writesAlone_of_none rfl, ?_⟩
      rw [Session.step, if_pos hrunning]
      simp only [Session.act, hphase, hdone, if_true, Option.isSome_some]
  | receiving | dispatching | draining | stopping => exact Or.inl rfl

omit [DecidableEq N] in
/-- While the server only waits, what is in flight is on a connection. -/
theorem Inv.onTheWay (hinv : cluster.Inv nodes sizes)
    (hphase : cluster.session.phase = .receiving)
    (hsends : cluster.session.sendTasks = [])
    (hloops : ∀ loop ∈ cluster.session.loops, loop.stage = .waiting)
    (hsome : 0 < cluster.inFlight.length) :
    cluster.toServer ≠ [] ∨ (∃ entry, entry ∈ cluster.toNodes) ∨
      ∃ entry input, entry ∈ cluster.replies ∧ entry.2.answers = some input := by
  have hnone : cluster.session.pending = [] := by
    have hwaiters := hinv.known.bench.noWaiters hinv.known.waits (by simp [hphase])
    rw [Session.pending, hwaiters, hsends]
    rfl
  have hidle : cluster.session.loops.flatMap Session.Loop.benchKeys = [] := by
    apply List.flatMap_eq_nil_iff.mpr
    intro loop hmem
    rw [Session.Loop.benchKeys, hloops loop hmem]
  rw [inFlight, hnone, hidle, List.map_nil, List.nil_append, List.append_nil] at hsome
  obtain ⟨key, hkey⟩ := List.exists_mem_of_length_pos hsome
  rcases List.mem_append.mp hkey with hto | hother
  · obtain ⟨message, hmem, _⟩ := List.mem_map.mp hto
    exact Or.inl (List.ne_nil_of_mem (List.mem_of_mem_filter hmem))
  · obtain ⟨asked, hasked, _⟩ := List.mem_map.mp hother
    rcases List.mem_append.mp hasked with hmail | hreply
    · obtain ⟨entry, hmem, _⟩ := List.mem_flatMap.mp hmail
      exact Or.inr (Or.inl ⟨entry, hmem⟩)
    · obtain ⟨entry, hmem, hfrom⟩ := List.mem_flatMap.mp hreply
      obtain ⟨input, hanswers, _⟩ := List.mem_map.mp hfrom
      exact Or.inr (Or.inr ⟨entry, input, hmem, Option.mem_toList.mp hanswers⟩)

omit [DecidableEq N] in
/-- A node that answers has a receiver loop. -/
theorem Inv.loop_of_reply (hinv : cluster.Inv nodes sizes)
    (hlive : cluster.session.BenchLive)
    (hmain : cluster.session.phase.mainLoop = true)
    (hitems : cluster.session.pool.items ~ nodes) {entry : N × Reply}
    (hmem : entry ∈ cluster.replies) {input : Input}
    (hanswers : entry.2.answers = some input) :
    ∃ loop ∈ cluster.session.loops, loop.node = entry.1 := by
  have hat : (entry.1, input) ∈ cluster.session.atNodes := by
    apply hinv.inputs.mem_iff.mpr
    apply List.mem_append_right
    apply List.mem_flatMap.mpr
    exact ⟨entry, hmem, by simp [hanswers]⟩
  have hnode := hinv.known.delivered _ (hinv.known.atNodes hat)
  have hready : entry.1 ∈ cluster.session.readyNodes :=
    List.mem_append_left _ (hitems.mem_iff.mpr hnode)
  obtain ⟨loop, hloop, hsame, _⟩ :=
    Session.mem_servedNodes.mp (hlive.served hmain _ hready)
  exact ⟨loop, hloop, hsame⟩

/-- As long as an input of the running user has no result, somebody can bring one
on. -/
theorem Inv.goesOn (hinv : cluster.Inv nodes sizes)
    (hlive : cluster.session.BenchLive) (hnodes : nodes ≠ [])
    (hstage : cluster.user.stage = .running)
    (hmissing : cluster.user.results.length < cluster.user.sent.length) :
    cluster.GoesOn variant sizes := by
  have hlast : cluster.session.phase ≠ .returned := by
    intro hphase
    have hclosed := hinv.returned hphase
    rw [hstage] at hclosed
    cases hclosed
  have hrunning : cluster.session.Running := ⟨hinv.known.bench.noFault, hlast⟩
  have hread := hinv.known.readable
  have hwaits : cluster.user.receiving = true := by
    by_contra hends
    have hdone := hinv.user.done (Bool.eq_false_of_not_eq_true hends)
    omega
  by_cases hmoves : cluster.session.CanMove variant
  · exact goesOn_of_canMove hmoves
  have hmain := (hinv.mainLoop_or_canMove hstage hrunning).resolve_right hmoves
  obtain ⟨hsends, hwoken, hloops⟩ := (hlive.canMove_or_waits hinv.known.bench hrunning
    hread hinv.known.ticketed hmain).resolve_left hmoves
  have hphase := hinv.phase_receiving hlive hnodes hrunning hmain hsends hwoken
  have hitems := hinv.items_perm hlast hmain hsends
  have hdone : ∀ ticket < cluster.session.user.sends.length,
      cluster.session.user.Done Session.encode ticket := by
    intro ticket hlt
    rcases hlive.owed ticket hlt with hdone | rfl | ⟨loop, hmem, hticket⟩
    · exact hdone
    · exact hread.first.mainLoop hmain
    · rw [hloops loop hmem] at hticket
      cases hticket
  have hreads := (hread.reads_perm hdone).length_eq
  have htaken := hinv.user.taken
  rw [BenchUser.read, hstage, List.length_cons] at htaken
  rw [List.length_map] at hreads
  by_cases hmore : cluster.user.taken < cluster.session.reads.length
  · exact goesOn_of_reads hinv hstage hwaits hmore
  have hforwarded : cluster.session.forwarded.length ≤ cluster.user.results.length := by
    rcases hread.first.order with ⟨_, hnone⟩ | ⟨memory, hone⟩
    · rw [hnone]
      exact Nat.zero_le _
    · rw [hone, List.length_cons, List.length_map] at hreads
      omega
  have hflight := hinv.conserved.length_eq
  rw [List.length_append, List.length_map, forwardedKeys, List.length_map] at hflight
  rcases hinv.onTheWay hphase hsends hloops (by omega) with
    hto | ⟨entry, hmem⟩ | ⟨entry, input, hmem, hanswers⟩
  · obtain ⟨config, hconfig⟩ := hlive.config_of_mainLoop hrunning hmain
    exact goesOn_of_toServer hrunning hphase hconfig hto
  · exact goesOn_of_toNodes hinv hlast hmem
  · obtain ⟨loop, hloop, hnode⟩ := hinv.loop_of_reply hlive hmain hitems hmem hanswers
    have hreply : (loop.node, entry.2) ∈ cluster.replies := by
      rw [hnode]
      exact hmem
    exact goesOn_of_reply hinv hrunning hloop (hloops loop hloop) hreply

/-- The bench does not stand still: in every state of every run, as long as an input
of the running user has no result, the server, a node or the user can take a step
that brings a result on. -/
theorem goesOn_of_reaches (variant : Variant) (sizes : BenchSizes) {nodes : List N}
    (hsome : nodes ≠ []) (hnodup : nodes.Nodup) (hbound : nodes.length < 2 ^ 32)
    {config : Counter} (hconfig : config.getValue = 0) (data receiver : Counter)
    {cluster : BenchCluster N}
    (h : Machine.Reaches (step variant sizes) WritesAlone
      (initial nodes config data receiver) cluster)
    (hstage : cluster.user.stage = .running)
    (hmissing : cluster.user.results.length < cluster.user.sent.length) :
    cluster.GoesOn variant sizes :=
  (inv_of_reaches hnodup hbound hconfig h).goesOn
    (live_of_reaches hnodup hbound hconfig h) hsome hstage hmissing

/-- The first input is at its node. -/
theorem goesOn_of_reaches_oneInput :
    ∃ cluster : BenchCluster Nat,
      Machine.run (step .queue smallSizes) WritesAlone (initial [0] ⟨0⟩ ⟨0⟩ ⟨0⟩)
          (oneInput.take 16) = some cluster ∧
        cluster.user.sent.length = 1 ∧ cluster.GoesOn .queue smallSizes := by
  have hends : (Machine.run (step .queue smallSizes) WritesAlone
      (initial [0] ⟨0⟩ ⟨0⟩ ⟨0⟩) (oneInput.take 16)).map (fun cluster =>
        (cluster.user.stage, cluster.user.sent.length, cluster.user.results.length)) =
      some (.running, 1, 0) := by
    decide +kernel
  obtain ⟨cluster, hrun, hlast⟩ := Option.map_eq_some_iff.mp hends
  obtain ⟨hrunning, hlast⟩ := Prod.mk.inj hlast
  obtain ⟨hsent, hresults⟩ := Prod.mk.inj hlast
  refine ⟨cluster, hrun, hsent, ?_⟩
  exact goesOn_of_reaches .queue smallSizes (List.cons_ne_nil _ _)
    (show [0].Nodup by decide) (by decide) (show Counter.getValue ⟨0⟩ = 0 from rfl)
    ⟨0⟩ ⟨0⟩ (Machine.reaches_of_run (oneInput.take 16) hrun) hrunning (by omega)

end BenchCluster

end FpgaFramework
