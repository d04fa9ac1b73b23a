/-
Where the nodes of a session are.  Every step moves nodes between the ready
container, the tasks and the retired nodes, and the number of places a node is
in does not change.
-/
import FpgaFramework.SessionStep
import Mathlib.Data.List.Count
import Mathlib.Data.List.Perm.Subperm

namespace FpgaFramework

open scoped List

namespace Session

variable {N : Type} {variant : Variant} {session after : Session N}
  {action : Action N}

/-- No receiver loop exists yet. -/
def BeforeLoops (session : Session N) : Prop :=
  session.phase.beforeLoops = true

theorem not_nil_of_perm {T : Type} {list rest : List T} {item : T}
    (hperm : list ~ item :: rest) : list ≠ [] := by
  rintro rfl
  exact List.cons_ne_nil _ _ (List.nil_perm.mp hperm)

theorem mem_of_perm {T : Type} {list rest : List T} {item : T}
    (hperm : list ~ item :: rest) : item ∈ list :=
  hperm.mem_iff.mpr List.mem_cons_self

/-- What one item gives, and what the others give. -/
theorem count_flatMap_of_perm {T U : Type} [BEq U] {list rest : List T}
    {item : T} (hperm : list ~ item :: rest) (f : T → List U) (value : U) :
    (list.flatMap f).count value =
      (f item).count value + (rest.flatMap f).count value := by
  rw [(hperm.flatMap_right f).count_eq, List.flatMap_cons, List.count_append]

/-- What holds of all items holds of those that stay when one is taken out. -/
theorem forall_rest {T : Type} {list rest : List T} {item : T} {p : T → Prop}
    (hall : ∀ other ∈ list, p other) (hperm : list ~ item :: rest) :
    ∀ other ∈ rest, p other :=
  fun other hmem => hall other (hperm.mem_iff.mpr (List.mem_cons_of_mem _ hmem))

/-- It holds of all of them if it still holds of the one that has moved. -/
theorem forall_moved {T : Type} {list rest : List T} {item moved : T}
    {p : T → Prop} (hall : ∀ other ∈ list, p other)
    (hperm : list ~ item :: rest) (hmoved : p item → p moved) :
    ∀ other ∈ moved :: rest, p other :=
  List.forall_mem_cons.mpr
    ⟨hmoved (hall item (mem_of_perm hperm)), forall_rest hall hperm⟩

/-- What does not exist yet before the first configuration, and before the main
loop. -/
structure Early (session : Session N) : Prop where
  noConfig : session.phase = .awaitingConfig → session.config = none
  noItems : session.phase = .awaitingConfig → session.pool.items = []
  noConfigTasks : session.phase = .awaitingConfig → session.configTasks = []
  noWaiters : session.BeforeLoops → session.pool.waiters = []
  noSendTasks : session.BeforeLoops → session.sendTasks = []
  noLoops : session.BeforeLoops → session.loops = []

theorem beforeLoops_of_awaiting (h : session.phase = .awaitingConfig) :
    session.BeforeLoops := by
  simp only [BeforeLoops, Phase.beforeLoops, h]

theorem Early.of_not_before (h : ¬session.BeforeLoops) : session.Early where
  noConfig hphase := absurd (beforeLoops_of_awaiting hphase) h
  noItems hphase := absurd (beforeLoops_of_awaiting hphase) h
  noConfigTasks hphase := absurd (beforeLoops_of_awaiting hphase) h
  noWaiters hbefore := absurd hbefore h
  noSendTasks hbefore := absurd hbefore h
  noLoops hbefore := absurd hbefore h

theorem Early.not_before_of_loops (h : session.Early) {loop : Loop N}
    {rest : List (Loop N)} (hperm : session.loops ~ loop :: rest) :
    ¬session.BeforeLoops :=
  fun hbefore => not_nil_of_perm hperm (h.noLoops hbefore)

theorem Early.not_before_of_sendTasks (h : session.Early) {task : SendTask N}
    {rest : List (SendTask N)} (hperm : session.sendTasks ~ task :: rest) :
    ¬session.BeforeLoops :=
  fun hbefore => not_nil_of_perm hperm (h.noSendTasks hbefore)

theorem not_before_ite {p : Prop} [Decidable p] {first second : Phase}
    (hfirst : first.beforeLoops = false) (hsecond : ¬second.beforeLoops = true) :
    ¬(if p then first else second).beforeLoops = true := by
  split
  · simp only [hfirst, Bool.false_eq_true, not_false_eq_true]
  · exact hsecond

theorem Early.initial (nodes : List N) (config data receiver : Counter) :
    (initial nodes config data receiver).Early :=
  ⟨fun _ => rfl, fun _ => rfl, fun _ => rfl, fun _ => rfl, fun _ => rfl,
    fun _ => rfl⟩

theorem Early.transition (hearly : session.Early)
    (h : Transition variant session action after) : after.Early := by
  cases h with
  | firstError | firstInvalid | respError | respSent | userError
  | userInvalidQueue | userConfig | stopped | drained =>
      exact Early.of_not_before Bool.false_ne_true
  | firstConfig hphase =>
      have hbefore := beforeLoops_of_awaiting hphase
      have hwaiters : (session.pool.pushAll variant.discipline
          session.nodes).popAll.2.waiters = [] :=
        (AsyncPool.waiters_pushAll variant.discipline session.pool
          session.nodes).trans (hearly.noWaiters hbefore)
      exact ⟨nofun, nofun, nofun, fun _ => hwaiters,
        fun _ => hearly.noSendTasks hbefore, fun _ => hearly.noLoops hbefore⟩
  | configPiece hperm | configSendError hperm | configSent hperm
  | configReplyError hperm | configRefused hperm | configAcknowledged hperm
  | configFailed hperm =>
      have hlate : session.phase ≠ .awaitingConfig := fun hphase =>
        not_nil_of_perm hperm (hearly.noConfigTasks hphase)
      exact ⟨hearly.noConfig, fun hphase => absurd hphase hlate,
        fun hphase => absurd hphase hlate, hearly.noWaiters,
        hearly.noSendTasks, hearly.noLoops⟩
  | configOk hperm =>
      have hlate : session.phase ≠ .awaitingConfig := fun hphase =>
        not_nil_of_perm hperm (hearly.noConfigTasks hphase)
      refine ⟨hearly.noConfig, fun hphase => absurd hphase hlate,
        fun hphase => absurd hphase hlate, ?_, hearly.noSendTasks, hearly.noLoops⟩
      intro hbefore
      exact (AsyncPool.waiters_push _ _ _).trans (hearly.noWaiters hbefore)
  | configured hphase =>
      have hbefore : session.BeforeLoops := by
        simp only [BeforeLoops, Phase.beforeLoops, hphase]
      exact ⟨nofun, nofun, nofun, fun _ => hearly.noWaiters hbefore,
        fun _ => hearly.noSendTasks hbefore, fun _ => hearly.noLoops hbefore⟩
  | userInput hphase =>
      refine Early.of_not_before (not_before_ite rfl ?_)
      simp [hphase, Phase.beforeLoops]
  | userInvalidStack _ hphase =>
      apply Early.of_not_before
      simp [BeforeLoops, dropMessage, hphase, Phase.beforeLoops]
  | inputPiece hperm | inputWhole hperm | inputSendError hperm
  | inputSent hperm =>
      exact Early.of_not_before (hearly.not_before_of_sendTasks hperm)
  | resumed _ _ hwaiters =>
      have hlate : ¬session.BeforeLoops := fun hbefore =>
        not_nil_of_perm hwaiters (hearly.noWaiters hbefore)
      exact Early.of_not_before (not_before_ite rfl hlate)
  | nodeError hperm | nodeUnasked hperm | nodeAnswer hperm | examineError hperm
  | examineInvalid hperm | examineValid hperm | forwardError hperm
  | forwardDone hperm | loopStopped hperm | loopHandler hperm =>
      exact Early.of_not_before (hearly.not_before_of_loops hperm)
  | respPiece | userDivision | resumeEmpty | examineDivision | forwardPiece =>
      exact ⟨hearly.noConfig, hearly.noItems, hearly.noConfigTasks,
        hearly.noWaiters, hearly.noSendTasks, hearly.noLoops⟩

theorem Transition.to_before (h : Transition variant session action after)
    (hbefore : after.BeforeLoops) : session.BeforeLoops := by
  cases h with
  | firstError hphase | firstInvalid hphase | firstConfig hphase
  | configured hphase | respError hphase =>
      simp [BeforeLoops, hphase, Phase.beforeLoops]
  | respSent | userError | userConfig | userInvalidQueue | drained | stopped =>
      cases hbefore
  | userInput hphase =>
      simp only [BeforeLoops, acceptInput, dispatchInput, hphase] at hbefore
      split at hbefore <;> cases hbefore
  | resumed =>
      simp only [BeforeLoops] at hbefore
      split at hbefore
      · cases hbefore
      · exact hbefore
  | _ => exact hbefore

theorem Transition.acknowledged (h : Transition variant session action after) :
    session.acknowledged ⊆ after.acknowledged := by
  cases h with
  | configAcknowledged => exact List.subset_cons_self _ _
  | _ => exact List.Subset.refl _

theorem Transition.retired (h : Transition variant session action after) :
    session.retired ⊆ after.retired := by
  cases h with
  | configFailed | inputSendError => exact List.subset_cons_self _ _
  | _ => exact List.Subset.refl _

/-- A configuration is stored from the first one on. -/
def Stored (session : Session N) : Prop :=
  session.phase = .awaitingConfig ∨ session.phase = .returned ∨
    session.config ≠ none

theorem Stored.transition (hstored : session.Stored) (hearly : session.Early)
    (hrunning : session.Running)
    (h : Transition variant session action after) : after.Stored := by
  have hlate : session.phase ≠ .awaitingConfig → session.config ≠ none :=
    fun hphase => (hstored.resolve_left hphase).resolve_left hrunning.2
  cases h with
  | firstError | firstInvalid | respError | userError | userInvalidQueue
  | stopped => exact Or.inr (Or.inl rfl)
  | firstConfig | userConfig => exact Or.inr (Or.inr (Option.some_ne_none _))
  | configured hphase | respSent hphase | userInput hphase | drained hphase =>
      exact Or.inr (Or.inr (hlate (by simp [hphase])))
  | resumed _ _ hwaiters =>
      refine Or.inr (Or.inr (hlate fun hphase => ?_))
      exact not_nil_of_perm hwaiters
        (hearly.noWaiters (beforeLoops_of_awaiting hphase))
  | _ => exact hstored

/-- `start` keeps its argument only as long as it has accepted no configuration. -/
def HandedOver (session : Session N) : Prop :=
  session.nodes = [] ∨
    (session.phase = .awaitingConfig ∨ session.phase = .returned) ∧
      session.acceptedConfigs = []

theorem Transition.nodes_nil (h : Transition variant session action after)
    (hnodes : session.nodes = []) : after.nodes = [] := by
  cases h with
  | firstConfig => rfl
  | _ => exact hnodes

theorem HandedOver.transition (hover : session.HandedOver)
    (hearly : session.Early) (hrunning : session.Running)
    (h : Transition variant session action after) : after.HandedOver := by
  rcases hover with hnodes | ⟨hphase | hphase, hconfigs⟩
  · exact Or.inl (h.nodes_nil hnodes)
  · have hwaiters := hearly.noWaiters (beforeLoops_of_awaiting hphase)
    cases h with
    | firstError | firstInvalid => exact Or.inr ⟨Or.inr rfl, hconfigs⟩
    | firstConfig => exact Or.inl rfl
    | configured hother | respError hother | respSent hother | userError hother
    | userInput hother | userConfig hother | userInvalidQueue _ hother
    | userInvalidStack _ hother | drained hother | stopped hother =>
        rw [hphase] at hother
        cases hother
    | resumed _ _ hperm => exact absurd hwaiters (not_nil_of_perm hperm)
    | _ => exact Or.inr ⟨Or.inl hphase, hconfigs⟩
  · exact absurd hphase hrunning.2

/-- The nodes that an input is sent to, or may be sent to next. -/
def readyNodes (session : Session N) : List N :=
  session.pool.items ++ session.sendTasks.map SendTask.node

theorem Transition.mem_failedSends
    (h : Transition variant session action after) {node : N}
    (hmem : node ∈ after.failedSends) :
    node ∈ session.readyNodes ++ session.failedSends := by
  cases h with
  | inputSendError hperm =>
      rcases List.mem_cons.mp hmem with rfl | hold
      · exact List.mem_append_left _ (List.mem_append_right _
          ((hperm.map SendTask.node).mem_iff.mpr List.mem_cons_self))
      · exact List.mem_append_right _ hold
  | _ => exact List.mem_append_right _ hmem

variable [DecidableEq N]

/-- How many places hold the node: the argument of `start`, the ready container,
`_configure_node` tasks, `_send_input_to_node` tasks, and the nodes that were
given up. -/
def placeCount (session : Session N) (node : N) : Nat :=
  session.nodes.count node + session.pool.items.count node +
    (session.configTasks.map ConfigTask.node).count node +
      (session.sendTasks.map SendTask.node).count node +
        session.retired.count node

/-- The nodes of the coroutines that write to a node connection, and of those
that read from one. -/
def writers (session : Session N) : List N :=
  session.configTasks.map ConfigTask.node ++
    session.sendTasks.map SendTask.node

def readers (session : Session N) : List N :=
  session.configTasks.map ConfigTask.node ++ session.loops.map Loop.node

theorem early_of_reachable {nodes : List N} {config data receiver : Counter}
    (h : Machine.Reachable (step variant) (initial nodes config data receiver)
      session) : session.Early := by
  apply h.invariant (Early.initial nodes config data receiver)
  intro before action after hearly _ hstep
  exact hearly.transition (transition_of_step hstep).2

theorem stored_of_reachable {nodes : List N} {config data receiver : Counter}
    (h : Machine.Reachable (step variant) (initial nodes config data receiver)
      session) : session.Stored := by
  induction h with
  | refl => exact Or.inl rfl
  | tail hreach _ hstep ih =>
      obtain ⟨hrunning, htransition⟩ := transition_of_step hstep
      exact ih.transition (early_of_reachable hreach) hrunning htransition

theorem placeCount_dispatchInput (session : Session N) (input : Input)
    (byMain : Bool) (node : N) :
    (session.dispatchInput input byMain).placeCount node =
      session.placeCount node := by
  rcases dispatchInput_cases session input byMain with
    ⟨ready, pool, hitems, _, heq⟩ | ⟨pool, hempty, hitems, _, heq⟩
  · rw [heq]
    simp only [placeCount, hitems, List.map_cons, List.count_cons]
    omega
  · rw [heq]
    simp only [placeCount, hempty, hitems]

theorem Transition.placeCount (h : Transition variant session action after)
    (node : N) : after.placeCount node = session.placeCount node := by
  cases h with
  | firstConfig =>
      have hitems := (AsyncPool.items_pushAll_perm variant.discipline
        session.pool session.nodes).count_eq node
      rw [List.count_append] at hitems
      simp only [Session.placeCount, configureNodes, AsyncPool.popAll,
        List.map_append, List.map_map, List.count_append, List.count_nil,
        hitems, Function.comp_def, List.map_id']
      omega
  | configPiece hperm | configSendError hperm | configSent hperm
  | configReplyError hperm | configRefused hperm | configAcknowledged hperm =>
      have hcount := (hperm.map ConfigTask.node).count_eq node
      simp only [Session.placeCount, hcount, List.map_cons]
  | configOk hperm =>
      have hcount := (hperm.map ConfigTask.node).count_eq node
      simp only [Session.placeCount, AsyncPool.items_push, AsyncPool.count_put,
        hcount, List.map_cons, List.count_cons]
      omega
  | configFailed hperm =>
      have hcount := (hperm.map ConfigTask.node).count_eq node
      simp only [Session.placeCount, hcount, List.map_cons, List.count_cons]
      omega
  | respSent =>
      have hitems := (AsyncPool.items_pushAll_perm variant.discipline
        session.pool.popAll.2 session.pool.popAll.1).count_eq node
      simp only [Session.placeCount, startLoops, hitems]
      simp only [AsyncPool.popAll, List.nil_append]
  | userInput => exact placeCount_dispatchInput _ _ _ node
  | inputPiece hperm | inputWhole hperm =>
      have hcount := (hperm.map SendTask.node).count_eq node
      simp only [Session.placeCount, hcount, List.map_cons]
  | inputSendError hperm =>
      have hcount := (hperm.map SendTask.node).count_eq node
      rw [placeCount_dispatchInput]
      simp only [Session.placeCount, hcount, List.map_cons, List.count_cons]
      omega
  | inputSent hperm =>
      have hcount := (hperm.map SendTask.node).count_eq node
      simp only [Session.placeCount, AsyncPool.items_push, AsyncPool.count_put,
        hcount, List.map_cons, List.count_cons]
      omega
  | resumed _ hitems =>
      simp only [Session.placeCount, hitems, List.map_cons, List.count_cons]
      omega
  | _ => rfl

/-- The nodes in all places. -/
def places (session : Session N) : List N :=
  session.nodes ++ session.pool.items ++
    session.configTasks.map ConfigTask.node ++
      session.sendTasks.map SendTask.node ++ session.retired

theorem Transition.places_perm (h : Transition variant session action after) :
    after.places ~ session.places := by
  rw [List.perm_iff_count]
  intro node
  simp only [places, List.count_append]
  exact h.placeCount node

/-- What holds of the nodes in every state of a session started on `nodes`. -/
structure NodeInv (nodes : List N) (session : Session N) : Prop where
  early : session.Early
  handedOver : session.HandedOver
  places : ∀ node, session.placeCount node = nodes.count node
  oneReader : ∀ node, session.readers.count node ≤ 1
  finishedAcknowledged : ∀ task ∈ session.configTasks,
    task.stage = .finished none →
      task.node ∈ session.acknowledged.map Prod.fst
  usedAcknowledged : ∀ node ∈ session.readyNodes ++ session.failedSends,
    node ∈ session.acknowledged.map Prod.fst
  failedRetired : ∀ node,
    session.failedSends.count node ≤ session.retired.count node

theorem NodeInv.initial {nodes : List N} {config data receiver : Counter} :
    NodeInv nodes (initial nodes config data receiver) where
  early := Early.initial nodes config data receiver
  handedOver := Or.inr ⟨Or.inl rfl, rfl⟩
  places node := by simp [placeCount, Session.initial, AsyncPool.empty]
  oneReader node := by simp [readers, Session.initial]
  finishedAcknowledged task hmem := by simp [Session.initial] at hmem
  usedAcknowledged node hmem := by
    simp [readyNodes, Session.initial, AsyncPool.empty] at hmem
  failedRetired node := Nat.le_refl 0

theorem NodeInv.oneReader_transition {nodes : List N} (hnodup : nodes.Nodup)
    (hinv : NodeInv nodes session)
    (h : Transition variant session action after) (node : N) :
    after.readers.count node ≤ 1 := by
  have hread := hinv.oneReader node
  have hplace : after.placeCount node ≤ 1 := by
    rw [h.placeCount, hinv.places]
    exact List.nodup_iff_count_le_one.mp hnodup node
  simp only [readers, List.count_append] at hread ⊢
  cases h with
  | firstConfig hphase =>
      have hloops := hinv.early.noLoops (beforeLoops_of_awaiting hphase)
      simp only [placeCount] at hplace
      simp only [configureNodes, hloops, List.map_nil, List.count_nil] at hplace ⊢
      omega
  | configPiece hperm | configSendError hperm | configSent hperm
  | configReplyError hperm | configRefused hperm | configAcknowledged hperm
  | configOk hperm | configFailed hperm =>
      have hcount := (hperm.map ConfigTask.node).count_eq node
      simp only [List.map_cons, List.count_cons] at hcount ⊢
      omega
  | respSent hphase =>
      have hloops : session.loops = [] :=
        hinv.early.noLoops (by simp [BeforeLoops, hphase, Phase.beforeLoops])
      have hitems := (AsyncPool.items_pushAll_perm variant.discipline
        session.pool.popAll.2 session.pool.popAll.1).count_eq node
      simp only [placeCount, startLoops, hitems] at hplace
      simp only [startLoops, hloops, List.map_map, List.append_nil,
        AsyncPool.popAll, List.nil_append, Function.comp_def,
        List.map_id'] at hplace ⊢
      omega
  | drained =>
      simpa only [List.map_map, Function.comp_def, node_notify] using hread
  | nodeError hperm | nodeUnasked hperm | nodeAnswer hperm | examineError hperm
  | examineInvalid hperm | examineValid hperm | forwardError hperm
  | forwardDone hperm | loopStopped hperm | loopHandler hperm =>
      have hcount := (hperm.map Loop.node).count_eq node
      simp only [List.map_cons, List.count_cons] at hcount ⊢
      omega
  | _ => exact hread

theorem count_readyNodes_dispatchInput (session : Session N) (input : Input)
    (byMain : Bool) (node : N) :
    (session.dispatchInput input byMain).readyNodes.count node =
      session.readyNodes.count node := by
  rcases dispatchInput_cases session input byMain with
    ⟨ready, pool, hitems, _, heq⟩ | ⟨pool, hempty, hitems, _, heq⟩
  · rw [heq]
    simp only [readyNodes, hitems, List.map_cons, List.count_append,
      List.count_cons]
    omega
  · rw [heq]
    simp only [readyNodes, hempty, hitems]

/-- Only a node whose task ended with an acknowledgement becomes ready. -/
theorem Transition.count_readyNodes
    (h : Transition variant session action after) (node : N) :
    after.readyNodes.count node ≤ session.readyNodes.count node ∨
      ∃ task ∈ session.configTasks,
        task.stage = .finished none ∧ task.node = node := by
  cases h with
  | firstConfig =>
      apply Or.inl
      simp only [readyNodes, configureNodes, AsyncPool.popAll,
        List.count_append, List.count_nil]
      omega
  | @configOk task rest _ hperm hstage =>
      by_cases heq : task.node = node
      · exact Or.inr ⟨task, mem_of_perm hperm, hstage, heq⟩
      · apply Or.inl
        simp only [readyNodes, AsyncPool.items_push, List.count_append,
          AsyncPool.count_put, List.count_cons_of_ne heq, Nat.le_refl]
  | respSent =>
      apply Or.inl
      have hitems := (AsyncPool.items_pushAll_perm variant.discipline
        session.pool.popAll.2 session.pool.popAll.1).count_eq node
      simp only [readyNodes, startLoops, List.count_append, hitems]
      simp only [AsyncPool.popAll, List.count_nil, Nat.zero_add, Nat.le_refl]
  | userInput => exact Or.inl (count_readyNodes_dispatchInput _ _ _ node).le
  | inputPiece hperm | inputWhole hperm =>
      apply Or.inl
      have hcount := (hperm.map SendTask.node).count_eq node
      simp only [readyNodes, List.count_append, hcount, List.map_cons,
        Nat.le_refl]
  | inputSendError hperm =>
      apply Or.inl
      have hcount := (hperm.map SendTask.node).count_eq node
      rw [count_readyNodes_dispatchInput]
      simp only [readyNodes, List.count_append, hcount, List.map_cons,
        List.count_cons]
      omega
  | inputSent hperm =>
      apply Or.inl
      have hcount := (hperm.map SendTask.node).count_eq node
      simp only [readyNodes, List.count_append, AsyncPool.items_push,
        AsyncPool.count_put, hcount, List.map_cons, List.count_cons]
      omega
  | resumed _ hitems =>
      apply Or.inl
      simp only [readyNodes, List.count_append, hitems, List.map_cons,
        List.count_cons]
      omega
  | _ => exact Or.inl (Nat.le_refl _)

theorem Transition.mem_readyNodes
    (h : Transition variant session action after) {node : N}
    (hmem : node ∈ after.readyNodes) :
    node ∈ session.readyNodes ∨
      ∃ task ∈ session.configTasks,
        task.stage = .finished none ∧ task.node = node := by
  rcases h.count_readyNodes node with hle | htask
  · exact Or.inl
      (List.count_pos_iff.mp (lt_of_lt_of_le (List.count_pos_iff.mpr hmem) hle))
  · exact Or.inr htask

theorem NodeInv.finishedAcknowledged_transition {nodes : List N}
    (hinv : NodeInv nodes session)
    (h : Transition variant session action after) :
    ∀ task ∈ after.configTasks, task.stage = .finished none →
      task.node ∈ after.acknowledged.map Prod.fst := by
  intro task hmem hfinished
  have hold : ∀ task ∈ session.configTasks, task.stage = .finished none →
      task.node ∈ after.acknowledged.map Prod.fst := fun task hmem hfinished =>
    List.map_subset Prod.fst h.acknowledged
      (hinv.finishedAcknowledged task hmem hfinished)
  cases h with
  | firstConfig hphase =>
      simp only [configureNodes, hinv.early.noConfigTasks hphase,
        List.append_nil, List.mem_map] at hmem
      obtain ⟨node, _, rfl⟩ := hmem
      cases hfinished
  | configPiece hperm | configSendError hperm | configSent hperm
  | configReplyError hperm | configRefused hperm =>
      rcases List.mem_cons.mp hmem with rfl | hrest
      · cases hfinished
      · exact forall_rest hold hperm task hrest hfinished
  | configAcknowledged hperm =>
      rcases List.mem_cons.mp hmem with rfl | hrest
      · exact List.mem_cons_self
      · exact forall_rest hold hperm task hrest hfinished
  | configOk hperm | configFailed hperm =>
      exact forall_rest hold hperm task hmem hfinished
  | _ => exact hold task hmem hfinished

theorem NodeInv.failedRetired_transition {nodes : List N}
    (hinv : NodeInv nodes session)
    (h : Transition variant session action after) (node : N) :
    after.failedSends.count node ≤ after.retired.count node := by
  have hfailed := hinv.failedRetired node
  cases h with
  | configFailed =>
      simp only [List.count_cons]
      omega
  | inputSendError =>
      simp only [dispatchInput, List.count_cons]
      omega
  | _ => exact hfailed

theorem NodeInv.transition {nodes : List N} (hnodup : nodes.Nodup)
    (hinv : NodeInv nodes session) (hrunning : session.Running)
    (h : Transition variant session action after) : NodeInv nodes after where
  early := hinv.early.transition h
  handedOver := hinv.handedOver.transition hinv.early hrunning h
  places node := (h.placeCount node).trans (hinv.places node)
  oneReader := hinv.oneReader_transition hnodup h
  finishedAcknowledged := hinv.finishedAcknowledged_transition h
  usedAcknowledged node hmem := by
    apply List.map_subset Prod.fst h.acknowledged
    rcases List.mem_append.mp hmem with hready | hfailed
    · rcases h.mem_readyNodes hready with hold | ⟨task, htask, hstage, rfl⟩
      · exact hinv.usedAcknowledged node (List.mem_append_left _ hold)
      · exact hinv.finishedAcknowledged task htask hstage
    · exact hinv.usedAcknowledged node (h.mem_failedSends hfailed)
  failedRetired := hinv.failedRetired_transition h

theorem nodeInv_of_reachable {nodes : List N} (hnodup : nodes.Nodup)
    {config data receiver : Counter}
    (h : Machine.Reachable (step variant) (initial nodes config data receiver)
      session) : NodeInv nodes session := by
  apply h.invariant NodeInv.initial
  intro before action after hinv _ hstep
  obtain ⟨hrunning, htransition⟩ := transition_of_step hstep
  exact hinv.transition hnodup hrunning htransition

theorem retired_of_reachable {later : Session N}
    (h : Machine.Reachable (step variant) session later) :
    session.retired ⊆ later.retired := by
  induction h with
  | refl => exact List.Subset.refl _
  | tail _ _ hstep ih =>
      exact List.Subset.trans ih (transition_of_step hstep).2.retired

/-- What the nodes of a session can rely on. -/
structure ExclusiveUse (variant : Variant) (nodes : List N)
    (session : Session N) : Prop where
  onePlace : ∀ node, session.placeCount node = if node ∈ nodes then 1 else 0
  handedOver : session.HandedOver
  oneWriter : ∀ node, session.writers.count node ≤ 1
  oneReader : ∀ node, session.readers.count node ≤ 1
  sendErrorRetires : ∀ task ec after,
    session.step variant (.inputSendError task ec) = some after →
      task.node ∈ after.retired
  configErrorRetires : ∀ task ec after, task.stage = .finished (some ec) →
    session.step variant (.configHandler task) = some after →
      task.node ∈ after.retired
  retiredForGood : ∀ node ∈ session.retired, ∀ later,
    Machine.Reachable (step variant) session later →
      node ∈ later.retired ∧ node ∉ later.pool.items ∧ node ∉ later.writers
  failedSends_le : session.failedSends.length ≤
    (nodes.filter (· ∈ session.acknowledged.map Prod.fst)).length

theorem NodeInv.not_used_of_retired {nodes : List N} (hnodup : nodes.Nodup)
    (hinv : NodeInv nodes session) {node : N} (h : node ∈ session.retired) :
    node ∉ session.pool.items ∧ node ∉ session.writers := by
  have hplace := hinv.places node
  have hone := List.nodup_iff_count_le_one.mp hnodup node
  have hretired := List.count_pos_iff.mpr h
  simp only [placeCount] at hplace
  simp only [writers, ← List.count_eq_zero, List.count_append]
  omega

theorem NodeInv.failedSends_le {nodes : List N} (hnodup : nodes.Nodup)
    (hinv : NodeInv nodes session) :
    session.failedSends.length ≤
      (nodes.filter (· ∈ session.acknowledged.map Prod.fst)).length := by
  have hcount : ∀ node, session.failedSends.count node ≤ nodes.count node := by
    intro node
    have hplace := hinv.places node
    have hfailed := hinv.failedRetired node
    simp only [placeCount] at hplace
    omega
  have hfailed : session.failedSends.Nodup := by
    rw [List.nodup_iff_count_le_one] at hnodup ⊢
    exact fun node => (hcount node).trans (hnodup node)
  refine (List.Nodup.subperm hfailed ?_).length_le
  intro node hmem
  have hnode : node ∈ nodes := List.count_pos_iff.mp
    (lt_of_lt_of_le (List.count_pos_iff.mpr hmem) (hcount node))
  have hused := hinv.usedAcknowledged node (List.mem_append_right _ hmem)
  simpa only [List.mem_filter, decide_eq_true_eq] using
    ⟨hnode, hused⟩

/-- Distinct nodes are each in one place in every reachable state, have at most
one writer and one reader, and are given up for good after a failure. -/
theorem exclusiveUse_of_nodup (variant : Variant) {nodes : List N}
    (hnodup : nodes.Nodup) (config data receiver : Counter) {session : Session N}
    (h : Machine.Reachable (step variant) (initial nodes config data receiver)
      session) : ExclusiveUse variant nodes session := by
  have hinv := nodeInv_of_reachable hnodup h
  have hone := List.nodup_iff_count_le_one.mp hnodup
  refine ⟨?_, hinv.handedOver, ?_, hinv.oneReader, ?_, ?_, ?_,
    hinv.failedSends_le hnodup⟩
  · intro node
    rw [hinv.places node]
    exact hnodup.count
  · intro node
    have hplace := hinv.places node
    have hle := hone node
    simp only [placeCount] at hplace
    simp only [writers, List.count_append]
    omega
  · intro task ec after hstep
    cases (transition_of_step hstep).2 with
    | inputSendError => exact List.mem_cons_self
  · intro task ec after hstage hstep
    cases (transition_of_step hstep).2 with
    | configOk _ hother =>
        rw [hstage] at hother
        cases hother
    | configFailed => exact List.mem_cons_self
  · intro node hmem later hlater
    have hretired := retired_of_reachable hlater hmem
    have hlast := nodeInv_of_reachable hnodup (h.trans hlater)
    have hunused := hlast.not_used_of_retired hnodup hretired
    exact ⟨hretired, hunused⟩

/-- The first node fails while it is sent an input, and the second takes over. -/
def retry : List (Action Nat) :=
  configuration (.config 1 1) [0, 1] ++
    [.userMessage (.ok (.data 5)),
      .inputPiece ⟨0, ⟨⟨4, .data 5⟩, .config 1 1⟩, 0⟩ 8,
      .inputSendError ⟨0, ⟨⟨4, .data 5⟩, .config 1 1⟩, 8⟩ .eof]

theorem exclusiveUse_of_nodup_retry :
    ∃ session : Session Nat,
      Machine.run (step .queue) (fun _ _ => True)
        (initial [0, 1] ⟨0⟩ ⟨0⟩ ⟨0⟩) retry = some session ∧
      session.writers = [1] ∧ session.failedSends = [0] ∧
        ExclusiveUse .queue [0, 1] session :=
  ⟨_, rfl, rfl, rfl,
    exclusiveUse_of_nodup .queue (by decide) ⟨0⟩ ⟨0⟩ ⟨0⟩
      (Machine.reaches_of_run retry rfl)⟩

end Session

end FpgaFramework
