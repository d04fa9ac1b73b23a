/-
Who holds the messages of a session.  Every message object is in one place from
its allocation on, and every accepted input is on its way to a node until it is
written to one completely, once.
-/
import FpgaFramework.SessionNodes

namespace FpgaFramework

open scoped List

namespace Session

variable {N : Type} {variant : Variant} {session after : Session N}
  {action : Action N}

/-- The messages a receiver loop holds. -/
def Loop.heldIds (loop : Loop N) : List Nat :=
  match loop.stage with
  | .received (.ok held) _ => [held.id]
  | .forwarding held _ _ => [held.id]
  | _ => []

/-- The response that `_send_config_response` holds. -/
def Phase.responseIds : Phase → List Nat
  | .responding response _ => [response.id]
  | _ => []

/-- How many places hold the message object: the stored configuration, the
response being sent, the dispatches that wait for a node, the send tasks, the
receiver loops, and those that were destroyed or that nobody holds. -/
def idCount (session : Session N) (id : Nat) : Nat :=
  (session.config.toList.map Held.id).count id +
    (Phase.responseIds session.phase).count id +
      (session.pool.waiters.map (·.input.id)).count id +
        (session.sendTasks.map (·.input.id)).count id +
          (session.loops.flatMap Loop.heldIds).count id +
            session.destroyed.count id + session.leaked.count id

@[simp] theorem heldIds_notify (loop : Loop N) :
    Loop.heldIds (notify loop) = Loop.heldIds loop := by
  unfold notify
  split
  · next hstage => simp [Loop.heldIds, hstage]
  · rfl

theorem responseIds_of_not_before {phase : Phase}
    (h : ¬phase.beforeLoops = true) : Phase.responseIds phase = [] := by
  cases phase with
  | responding response ticket => exact absurd rfl h
  | _ => rfl

theorem idCount_dispatchInput (hbefore : ¬session.BeforeLoops) (input : Input)
    (byMain : Bool) (id : Nat) :
    (session.dispatchInput input byMain).idCount id =
      session.idCount id + [input.id].count id := by
  have hresponse := responseIds_of_not_before hbefore
  rcases dispatchInput_cases session input byMain with
    ⟨ready, pool, _, hwaiters, heq⟩ | ⟨pool, _, _, hwaiters, heq⟩
  · rw [heq]
    simp only [idCount, hwaiters, List.map_cons, List.count_cons, List.count_nil]
    omega
  · have hphase : Phase.responseIds
        (if byMain then .dispatching else session.phase) = [] := by
      split
      · rfl
      · exact hresponse
    rw [heq]
    simp only [idCount, hwaiters, hphase, hresponse, List.map_append,
      List.map_cons, List.map_nil, List.count_append]
    omega

/-- A step allocates at most one message object, and moves the others. -/
theorem Transition.idCount (hearly : session.Early)
    (h : Transition variant session action after) (id : Nat) :
    after.idCount id + (List.range session.nextId).count id =
      session.idCount id + (List.range after.nextId).count id := by
  cases h with
  | firstError hphase =>
      simp only [Session.idCount, hphase, Phase.responseIds]
  | firstInvalid hphase =>
      simp only [Session.idCount, hphase, Phase.responseIds, List.range_succ,
        List.count_append, List.count_cons, List.count_nil]
      omega
  | firstConfig hphase =>
      simp only [Session.idCount, configureNodes, hphase, Phase.responseIds,
        hearly.noConfig hphase, AsyncPool.waiters_popAll,
        AsyncPool.waiters_pushAll, List.range_succ, Option.toList,
        List.map_cons, List.map_nil, List.count_append, List.count_nil]
      omega
  | configRefused | configAcknowledged =>
      simp only [Session.idCount, List.range_succ, List.count_append,
        List.count_cons, List.count_nil]
      omega
  | configOk =>
      simp only [Session.idCount, AsyncPool.waiters_push]
  | configured hphase _ hresponse =>
      simp only [Session.idCount, hphase, hresponse, Phase.responseIds,
        List.range_succ, List.count_append, List.count_nil]
      omega
  | respError hphase =>
      simp only [Session.idCount, hphase, Phase.responseIds, List.count_cons,
        List.count_nil]
      omega
  | respSent hphase =>
      have hidle : ∀ ready : List N, (ready.map fun node =>
          (⟨node, .waiting⟩ : Loop N)).flatMap Loop.heldIds = [] := by
        intro ready
        simp [Loop.heldIds]
      simp only [Session.idCount, startLoops, hphase, Phase.responseIds,
        AsyncPool.waiters_popAll, AsyncPool.waiters_pushAll,
        List.flatMap_append, hidle, List.nil_append, List.count_cons,
        List.count_nil]
      omega
  | userError hphase | stopped hphase =>
      simp only [Session.idCount, endSession, hphase, Phase.responseIds,
        Option.toList, List.map_nil, List.count_append, List.count_nil]
      omega
  | userInput hphase =>
      rw [acceptInput, idCount_dispatchInput]
      · simp only [Session.idCount, dispatchInput, List.range_succ,
          List.count_append]
        omega
      · simp [BeforeLoops, hphase, Phase.beforeLoops]
  | userConfig hphase hconfig =>
      simp only [Session.idCount, acceptConfig, hphase, hconfig,
        Phase.responseIds, List.range_succ, Option.toList, List.map_cons,
        List.map_nil, List.count_append, List.count_cons, List.count_nil]
      omega
  | userInvalidQueue _ hphase =>
      simp only [Session.idCount, endSession, dropMessage, hphase,
        Phase.responseIds, List.range_succ, Option.toList, List.map_nil,
        List.count_append, List.count_cons, List.count_nil]
      omega
  | userInvalidStack =>
      simp only [Session.idCount, dropMessage, List.range_succ,
        List.count_append, List.count_cons, List.count_nil]
      omega
  | drained hphase =>
      simp only [Session.idCount, hphase, Phase.responseIds, List.flatMap_map,
        heldIds_notify]
  | inputPiece hperm | inputWhole hperm =>
      have hcount := (hperm.map (·.input.id)).count_eq id
      simp only [Session.idCount, hcount, List.map_cons]
  | inputSendError hperm =>
      have hcount := (hperm.map (·.input.id)).count_eq id
      rw [idCount_dispatchInput]
      · simp only [Session.idCount, dispatchInput, hcount, List.map_cons,
          List.count_cons, List.count_nil]
        omega
      · exact hearly.not_before_of_sendTasks hperm
  | inputSent hperm =>
      have hcount := (hperm.map (·.input.id)).count_eq id
      simp only [Session.idCount, AsyncPool.waiters_push, hcount,
        List.map_cons, List.count_cons]
      omega
  | @resumed waiter _ _ _ _ hwaiters =>
      have hlate : ¬session.phase.beforeLoops = true := fun hbefore =>
        not_nil_of_perm hwaiters (hearly.noWaiters hbefore)
      have hresponse : Phase.responseIds
          (if waiter.byMain then .receiving else session.phase) = [] :=
        responseIds_of_not_before (not_before_ite rfl hlate)
      have hcount := (hwaiters.map (·.input.id)).count_eq id
      simp only [List.map_cons, List.count_cons] at hcount
      simp only [Session.idCount, responseIds_of_not_before hlate, hresponse,
        hcount, List.map_cons, List.count_cons]
      omega
  | nodeError hperm hstage | examineError hperm hstage
  | loopStopped hperm hstage | loopHandler hperm hstage =>
      have hcount := count_flatMap_of_perm hperm Loop.heldIds id
      simp only [Loop.heldIds, hstage, List.count_nil, Nat.zero_add] at hcount
      simp only [Session.idCount, hcount, List.flatMap_cons, Loop.heldIds,
        List.nil_append]
  | nodeUnasked hperm hstage hheld | nodeAnswer hperm hstage hheld =>
      have hcount := count_flatMap_of_perm hperm Loop.heldIds id
      simp only [Loop.heldIds, hstage, List.count_nil, Nat.zero_add] at hcount
      simp only [Session.idCount, hcount, hheld, List.flatMap_cons,
        Loop.heldIds, List.range_succ, List.count_append]
      omega
  | examineInvalid hperm hstage | forwardError hperm hstage
  | forwardDone hperm hstage =>
      have hcount := count_flatMap_of_perm hperm Loop.heldIds id
      simp only [Loop.heldIds, hstage, List.count_cons, List.count_nil] at hcount
      simp only [Session.idCount, hcount, List.flatMap_cons, Loop.heldIds,
        List.nil_append, List.count_cons]
      omega
  | examineValid hperm hstage =>
      have hcount := count_flatMap_of_perm hperm Loop.heldIds id
      simp only [Loop.heldIds, hstage] at hcount
      simp only [Session.idCount, hcount, List.flatMap_cons, Loop.heldIds,
        List.count_append]
  | _ => rfl

theorem encode_length_pos (message : ValidMessage) :
    0 < (encode message).length := by
  rw [encode, Message.length_asBytes, sizeofHeader]
  omega

/-- The input of a send task, as long as it is not written completely. -/
def SendTask.unwritten (task : SendTask N) : List Input :=
  if task.written = (encode task.input.message).length then []
  else [task.input]

theorem unwritten_of_lt {task : SendTask N}
    (h : task.written < (encode task.input.message).length) :
    SendTask.unwritten task = [task.input] :=
  if_neg (Nat.ne_of_lt h)

theorem unwritten_of_eq {task : SendTask N}
    (h : task.written = (encode task.input.message).length) :
    SendTask.unwritten task = [] :=
  if_pos h

theorem unwritten_new (node : N) (input : Input) :
    SendTask.unwritten ⟨node, input, 0⟩ = [input] :=
  unwritten_of_lt (encode_length_pos input.message)

/-- The inputs that a dispatch or a send task still has to deliver. -/
def pending (session : Session N) : List Input :=
  session.pool.waiters.map Dispatch.input ++
    session.sendTasks.flatMap SendTask.unwritten

theorem count_pending_dispatchInput (session : Session N) (input : Input)
    (byMain : Bool) (other : Input) :
    (session.dispatchInput input byMain).pending.count other =
      session.pending.count other + [input].count other := by
  rcases dispatchInput_cases session input byMain with
    ⟨ready, pool, _, hwaiters, heq⟩ | ⟨pool, _, _, hwaiters, heq⟩
  · rw [heq]
    simp only [pending, hwaiters, List.flatMap_cons, unwritten_new,
      List.count_append]
    omega
  · rw [heq]
    simp only [pending, hwaiters, List.map_append, List.map_cons, List.map_nil,
      List.count_append]
    omega

/-- An accepted input is pending until it is delivered. -/
theorem Transition.count_inputs (h : Transition variant session action after)
    (input : Input) :
    after.pending.count input + (after.delivered.map Prod.snd).count input +
        session.accepted.count input =
      session.pending.count input + (session.delivered.map Prod.snd).count input +
        after.accepted.count input := by
  cases h with
  | firstConfig =>
      simp only [pending, configureNodes, AsyncPool.waiters_popAll,
        AsyncPool.waiters_pushAll]
  | configOk => simp only [pending, AsyncPool.waiters_push]
  | respSent =>
      simp only [pending, startLoops, AsyncPool.waiters_popAll,
        AsyncPool.waiters_pushAll]
  | userInput =>
      rw [acceptInput, count_pending_dispatchInput]
      simp only [pending, dispatchInput, List.count_append]
      omega
  | @inputPiece task rest count hperm hpos hpart =>
      have hcount := count_flatMap_of_perm hperm SendTask.unwritten input
      have hbefore : SendTask.unwritten task = [task.input] :=
        unwritten_of_lt (Nat.lt_of_add_right_lt hpart)
      have hafter : SendTask.unwritten
          { task with written := task.written + count } = [task.input] :=
        unwritten_of_lt hpart
      rw [hbefore] at hcount
      simp only [pending, List.flatMap_cons, hafter, List.count_append, hcount]
  | @inputWhole task rest count hperm hpos hwhole =>
      have hcount := count_flatMap_of_perm hperm SendTask.unwritten input
      have hbefore : SendTask.unwritten task = [task.input] :=
        unwritten_of_lt (by omega)
      have hafter : SendTask.unwritten
          { task with written := task.written + count } = [] :=
        unwritten_of_eq hwhole
      simp only [hbefore, List.count_cons, List.count_nil] at hcount
      simp only [pending, List.flatMap_cons, hafter, List.nil_append,
        List.map_cons, List.count_append, List.count_cons, hcount]
      omega
  | @inputSendError task rest _ hperm hpart =>
      have hcount := count_flatMap_of_perm hperm SendTask.unwritten input
      rw [unwritten_of_lt hpart] at hcount
      rw [count_pending_dispatchInput]
      simp only [pending, dispatchInput, List.count_append, hcount]
      omega
  | inputSent hperm hwhole =>
      have hcount := count_flatMap_of_perm hperm SendTask.unwritten input
      rw [unwritten_of_eq hwhole, List.count_nil, Nat.zero_add] at hcount
      simp only [pending, AsyncPool.waiters_push, List.count_append, hcount]
  | resumed _ _ hwaiters =>
      have hcount := (hwaiters.map Dispatch.input).count_eq input
      simp only [List.map_cons, List.count_cons] at hcount
      simp only [pending, List.flatMap_cons, unwritten_new, List.count_append,
        List.count_cons, List.count_nil, hcount]
      omega
  | _ => rfl

theorem Transition.length_inputs (h : Transition variant session action after) :
    after.pending.length + after.delivered.length + session.accepted.length =
      session.pending.length + session.delivered.length + after.accepted.length := by
  have hperm : after.pending ++ after.delivered.map Prod.snd ++ session.accepted ~
      session.pending ++ session.delivered.map Prod.snd ++ after.accepted := by
    rw [List.perm_iff_count]
    intro input
    simp only [List.count_append]
    exact h.count_inputs input
  have hlength := hperm.length_eq
  simp only [List.length_append, List.length_map] at hlength
  exact hlength

theorem Transition.nextId_le (h : Transition variant session action after) :
    session.nextId ≤ after.nextId := by
  cases h with
  | firstInvalid | firstConfig | configRefused | configAcknowledged | configured
  | userInput | userConfig | userInvalidQueue | userInvalidStack | nodeUnasked
  | nodeAnswer => exact Nat.le_succ _
  | _ => exact Nat.le_refl _

theorem Transition.destroyed (h : Transition variant session action after) :
    session.destroyed ⊆ after.destroyed := by
  cases h with
  | firstInvalid | configRefused | configAcknowledged | respError | respSent
  | userConfig | inputSent | examineInvalid | forwardError | forwardDone =>
      exact List.subset_cons_self _ _
  | userError | userInvalidQueue | stopped => exact List.subset_append_right _ _
  | _ => exact List.Subset.refl _

/-- An input is accepted with the next free id. -/
theorem Transition.accepted (h : Transition variant session action after) :
    after.accepted = session.accepted ∨
      ∃ input : Input, after.accepted = session.accepted ++ [input] ∧
        input.id = session.nextId ∧ after.nextId = session.nextId + 1 := by
  cases h with
  | userInput => exact Or.inr ⟨_, rfl, rfl, rfl⟩
  | _ => exact Or.inl rfl

theorem Transition.delivered (h : Transition variant session action after) :
    ∀ input ∈ after.delivered.map Prod.snd,
      input ∈ session.delivered.map Prod.snd ∨
        ∃ task ∈ after.sendTasks,
          task.input = input ∧ SendTask.unwritten task = [] := by
  intro input hmem
  cases h with
  | inputWhole _ _ hwhole =>
      rcases List.mem_cons.mp hmem with rfl | hold
      · exact Or.inr ⟨_, List.mem_cons_self, rfl, unwritten_of_eq hwhole⟩
      · exact Or.inl hold
  | _ => exact Or.inl hmem

theorem Transition.delivered_subset
    (h : Transition variant session action after) :
    session.delivered ⊆ after.delivered := by
  cases h with
  | inputWhole => exact List.subset_cons_self _ _
  | _ => exact List.Subset.refl _

/-- A task that has written its whole input stays until it destroys it. -/
theorem Transition.written_tasks (h : Transition variant session action after) :
    ∀ task ∈ session.sendTasks, SendTask.unwritten task = [] →
      task ∈ after.sendTasks ∨ task.input.id ∈ after.destroyed := by
  intro task hmem hwritten
  have hother : ∀ {moved : SendTask N} {rest : List (SendTask N)},
      session.sendTasks ~ moved :: rest →
        moved.written < (encode moved.input.message).length →
          task ∈ rest := by
    intro moved rest hperm hpart
    apply (List.mem_cons.mp (hperm.mem_iff.mp hmem)).resolve_left
    rintro rfl
    rw [unwritten_of_lt hpart] at hwritten
    cases hwritten
  cases h with
  | userInput => exact Or.inl (List.mem_append_right _ hmem)
  | inputPiece hperm _ hpart =>
      exact Or.inl (List.mem_cons_of_mem _
        (hother hperm (Nat.lt_of_add_right_lt hpart)))
  | inputWhole hperm hpos hwhole =>
      exact Or.inl (List.mem_cons_of_mem _ (hother hperm (by omega)))
  | inputSendError hperm hpart =>
      exact Or.inl (List.mem_append_right _ (hother hperm hpart))
  | inputSent hperm =>
      rcases List.mem_cons.mp (hperm.mem_iff.mp hmem) with rfl | hrest
      · exact Or.inr List.mem_cons_self
      · exact Or.inl hrest
  | resumed => exact Or.inl (List.mem_cons_of_mem _ hmem)
  | _ => exact Or.inl hmem

/-- What holds of the messages in every reachable state. -/
structure MessageInv (session : Session N) : Prop where
  early : session.Early
  ids : ∀ id, session.idCount id = (List.range session.nextId).count id
  inputs : ∀ input, session.pending.count input +
    (session.delivered.map Prod.snd).count input = session.accepted.count input
  fresh : ∀ input ∈ session.accepted, input.id < session.nextId
  nodup : (session.accepted.map (·.id)).Nodup
  finished : ∀ input ∈ session.delivered.map Prod.snd,
    input.id ∈ session.destroyed ∨
      ∃ task ∈ session.sendTasks,
        task.input = input ∧ SendTask.unwritten task = []

theorem MessageInv.initial {nodes : List N} {config data receiver : Counter} :
    MessageInv (initial nodes config data receiver) where
  early := Early.initial nodes config data receiver
  ids id := rfl
  inputs input := rfl
  fresh input hmem := by cases hmem
  nodup := List.nodup_nil
  finished input hmem := by cases hmem

theorem MessageInv.transition (hinv : session.MessageInv)
    (h : Transition variant session action after) : after.MessageInv where
  early := hinv.early.transition h
  ids id := by
    have hids := hinv.ids id
    have hmove := h.idCount hinv.early id
    omega
  inputs input := by
    have hinputs := hinv.inputs input
    have hmove := h.count_inputs input
    omega
  fresh input hmem := by
    rcases h.accepted with heq | ⟨fresh, heq, hid, hnext⟩
    · rw [heq] at hmem
      exact lt_of_lt_of_le (hinv.fresh input hmem) h.nextId_le
    · rw [heq] at hmem
      rcases List.mem_append.mp hmem with hold | hnew
      · exact lt_of_lt_of_le (hinv.fresh input hold) h.nextId_le
      · rw [List.mem_singleton.mp hnew, hid, hnext]
        exact Nat.lt_succ_self _
  nodup := by
    rcases h.accepted with heq | ⟨fresh, heq, hid, _⟩
    · rw [heq]
      exact hinv.nodup
    · rw [heq, List.map_append, List.map_singleton, ← List.concat_eq_append]
      apply hinv.nodup.concat
      intro hmem
      obtain ⟨old, hold, hsame⟩ := List.mem_map.mp hmem
      have hlt := hinv.fresh old hold
      omega
  finished input hmem := by
    rcases h.delivered input hmem with hold | hnew
    · rcases hinv.finished input hold with hgone | ⟨task, htask, rfl, hwritten⟩
      · exact Or.inl (h.destroyed hgone)
      · rcases h.written_tasks task htask hwritten with hstays | hgone
        · exact Or.inr ⟨task, hstays, rfl, hwritten⟩
        · exact Or.inl hgone
    · exact Or.inr hnew

/-- The dispatches and send tasks, by the input they hold. -/
def holders (session : Session N) : List Input :=
  session.pool.waiters.map Dispatch.input ++
    session.sendTasks.map SendTask.input

theorem count_pending_le_holders (session : Session N) (input : Input) :
    session.pending.count input ≤ session.holders.count input := by
  have htasks : ∀ tasks : List (SendTask N),
      (tasks.flatMap SendTask.unwritten).count input ≤
        (tasks.map SendTask.input).count input := by
    intro tasks
    induction tasks with
    | nil => exact Nat.le_refl 0
    | cons task rest ih =>
        simp only [List.flatMap_cons, List.map_cons, List.count_append,
          List.count_cons, SendTask.unwritten]
        split
        · simp only [List.count_nil]
          omega
        · simp only [List.count_cons, List.count_nil]
          omega
  simp only [pending, holders, List.count_append]
  exact Nat.add_le_add_left (htasks session.sendTasks) _

/-- Since its object is in one place, an input has at most one holder, and none
once it is destroyed. -/
theorem MessageInv.holders_le (hinv : session.MessageInv) (input : Input) :
    session.holders.count input + session.destroyed.count input.id ≤ 1 := by
  have hids := hinv.ids input.id
  have hone := List.nodup_iff_count_le_one.mp
    (List.nodup_range (n := session.nextId)) input.id
  have hholders := List.count_le_count_map (f := fun held : Input => held.id)
    (l := session.holders) (x := input)
  simp only [holders, List.map_append, List.map_map, List.count_append,
    Function.comp_def] at hholders
  simp only [holders, List.count_append]
  simp only [idCount] at hids
  omega

theorem MessageInv.count_accepted (hinv : session.MessageInv) {input : Input}
    (hmem : input ∈ session.accepted) :
    session.pending.count input +
      (session.delivered.map Prod.snd).count input = 1 := by
  rw [hinv.inputs input]
  have hnodup : session.accepted.Nodup := List.Nodup.of_map _ hinv.nodup
  exact List.count_eq_one_of_mem hnodup hmem

variable [DecidableEq N]

theorem messageInv_of_reachable {nodes : List N}
    {config data receiver : Counter}
    (h : Machine.Reachable (step variant) (initial nodes config data receiver)
      session) : session.MessageInv := by
  apply h.invariant MessageInv.initial
  intro before action after hinv _ hstep
  exact hinv.transition (transition_of_step hstep).2

theorem delivered_of_reachable {later : Session N}
    (h : Machine.Reachable (step variant) session later) :
    session.delivered ⊆ later.delivered := by
  induction h with
  | refl => exact List.Subset.refl _
  | tail _ _ hstep ih =>
      exact List.Subset.trans ih (transition_of_step hstep).2.delivered_subset

/-- An accepted input is with one dispatch or send task until it has been written
completely to a node.  From then on no task has it to write; the task that wrote
it holds it, or it is destroyed, once. -/
structure DeliveredOnce (variant : Variant) (session : Session N)
    (input : Input) : Prop where
  undelivered : input ∉ session.delivered.map Prod.snd →
    session.holders.count input = 1 ∧ input.id ∉ session.destroyed
  delivered : input ∈ session.delivered.map Prod.snd →
    session.holders.count input + session.destroyed.count input.id = 1
  forGood : input ∈ session.delivered.map Prod.snd → ∀ later,
    Machine.Reachable (step variant) session later →
      (later.delivered.map Prod.snd).count input = 1 ∧ input ∉ later.pending

theorem accepted_of_reachable {later : Session N}
    (h : Machine.Reachable (step variant) session later) :
    session.accepted ⊆ later.accepted := by
  induction h with
  | refl => exact List.Subset.refl _
  | tail _ _ hstep ih =>
      rcases (transition_of_step hstep).2.accepted with heq | ⟨_, heq, _⟩
      · rw [heq]
        exact ih
      · rw [heq]
        exact List.Subset.trans ih (List.subset_append_left _ _)

/-- Retries after failed sends neither drop nor duplicate an input. -/
theorem deliveredOnce_of_accepted (variant : Variant) (nodes : List N)
    (config data receiver : Counter) {session : Session N}
    (h : Machine.Reachable (step variant) (initial nodes config data receiver)
      session) {input : Input} (hmem : input ∈ session.accepted) :
    DeliveredOnce variant session input := by
  have hinv := messageInv_of_reachable h
  have hcount := hinv.count_accepted hmem
  have hholders := hinv.holders_le input
  have hpending := session.count_pending_le_holders input
  refine ⟨?_, ?_, ?_⟩
  · intro hnot
    rw [List.count_eq_zero.mpr hnot] at hcount
    rw [← List.count_eq_zero]
    omega
  · intro hdelivered
    rcases hinv.finished input hdelivered with hgone | ⟨task, htask, rfl, _⟩
    · have hpos := List.count_pos_iff.mpr hgone
      omega
    · have hheld : task.input ∈ session.holders :=
        List.mem_append_right _ (List.mem_map_of_mem htask)
      have hpos := List.count_pos_iff.mpr hheld
      omega
  · intro hdelivered later hlater
    have hpos := List.count_pos_iff.mpr
      (List.map_subset Prod.snd (delivered_of_reachable hlater) hdelivered)
    have hcount := (messageInv_of_reachable (h.trans hlater)).count_accepted
      (accepted_of_reachable hlater hmem)
    rw [← List.count_eq_zero]
    omega

/-- The second node gets the whole input. -/
theorem deliveredOnce_of_accepted_retry :
    ∃ session : Session Nat,
      Machine.run (step .queue) (fun _ _ => True)
        (initial [0, 1] ⟨0⟩ ⟨0⟩ ⟨0⟩)
        (retry ++ [.inputPiece ⟨1, ⟨⟨4, .data 5⟩, .config 1 1⟩, 0⟩ 13,
          .inputSent ⟨1, ⟨⟨4, .data 5⟩, .config 1 1⟩, 13⟩]) = some session ∧
      session.delivered = [(1, ⟨⟨4, .data 5⟩, .config 1 1⟩)] ∧
        DeliveredOnce .queue session ⟨⟨4, .data 5⟩, .config 1 1⟩ :=
  ⟨_, rfl, rfl,
    deliveredOnce_of_accepted .queue [0, 1] ⟨0⟩ ⟨0⟩ ⟨0⟩
      (Machine.reaches_of_run
        (retry ++ [.inputPiece ⟨1, ⟨⟨4, .data 5⟩, .config 1 1⟩, 0⟩ 13,
          .inputSent ⟨1, ⟨⟨4, .data 5⟩, .config 1 1⟩, 13⟩]) rfl)
      List.mem_cons_self⟩

end Session

end FpgaFramework
