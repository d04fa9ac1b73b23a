/-
The waits for a ready node.  A node whose send fails is not pushed back, and its
task dispatches the input again.  So a wait ends as long as the last ready node
does not fail.
-/
import FpgaFramework.SessionLoops

namespace FpgaFramework

open scoped List

namespace Session

variable {N : Type} {variant : Variant} {session after : Session N}
  {action : Action N}

/-- The send task that fails with this step. -/
def Action.failsSend : Action N → Option (SendTask N)
  | .inputSendError task _ => some task
  | _ => none

/-- `_main_loop` is entered with this step. -/
def Action.entersMain : Action N → Bool
  | .respSent => true
  | _ => false

/-- The main loop is entered with a ready node, and a send fails only while
another node is ready or is being sent an input. -/
structure KeepsNode (session : Session N) (action : Action N) : Prop where
  configured : action.entersMain = true → session.pool.items ≠ []
  another : ∀ task ∈ action.failsSend,
    ∃ node ∈ session.readyNodes, node ≠ task.node

instance [DecidableEq N] (session : Session N) (action : Action N) :
    Decidable (session.KeepsNode action) :=
  decidable_of_iff
    ((action.entersMain = true → session.pool.items ≠ []) ∧
      ∀ task ∈ action.failsSend, ∃ node ∈ session.readyNodes, node ≠ task.node)
    ⟨fun h => ⟨h.1, h.2⟩, fun h => ⟨h.configured, h.another⟩⟩

/-- A ready node stays ready until a send to it fails. -/
theorem Transition.readyNodes_kept (h : Transition variant session action after)
    (hlate : session.phase ≠ .awaitingConfig) {node : N}
    (hmem : node ∈ session.readyNodes) :
    node ∈ after.readyNodes ∨ ∃ task ∈ action.failsSend, task.node = node := by
  have hdispatched : ∀ (before : Session N) (input : Input) (byMain : Bool),
      node ∈ before.readyNodes →
        node ∈ (before.dispatchInput input byMain).readyNodes := by
    intro before input byMain hbefore
    rcases dispatchInput_cases before input byMain with
      ⟨ready, pool, hitems, _, heq⟩ | ⟨pool, hempty, hitems, _, heq⟩
    · rw [heq]
      simp only [readyNodes, hitems, List.map_cons, List.mem_append,
        List.mem_cons] at hbefore ⊢
      tauto
    · rw [heq]
      simpa only [readyNodes, hempty, hitems] using hbefore
  cases h with
  | firstConfig hphase => exact absurd hphase hlate
  | configOk =>
      apply Or.inl
      simp only [readyNodes, AsyncPool.items_push, List.mem_append,
        (AsyncPool.put_perm _ _ _).mem_iff, List.mem_cons] at hmem ⊢
      tauto
  | respSent =>
      apply Or.inl
      simpa only [readyNodes, startLoops, List.mem_append,
        (AsyncPool.items_pushAll_perm _ _ _).mem_iff, AsyncPool.popAll,
        List.not_mem_nil, false_or] using hmem
  | userInput => exact Or.inl (hdispatched _ _ _ hmem)
  | inputPiece hperm | inputWhole hperm =>
      apply Or.inl
      simpa only [readyNodes, List.mem_append, (hperm.map SendTask.node).mem_iff,
        List.map_cons] using hmem
  | @inputSendError task rest ec hperm =>
      simp only [readyNodes, List.mem_append, (hperm.map SendTask.node).mem_iff,
        List.map_cons, List.mem_cons] at hmem
      rcases hmem with hitem | rfl | hrest
      · exact Or.inl (hdispatched _ _ _ (List.mem_append_left _ hitem))
      · exact Or.inr ⟨task, rfl, rfl⟩
      · exact Or.inl (hdispatched _ _ _ (List.mem_append_right _ hrest))
  | inputSent hperm =>
      apply Or.inl
      simp only [readyNodes, AsyncPool.items_push, List.mem_append,
        (AsyncPool.put_perm _ _ _).mem_iff, (hperm.map SendTask.node).mem_iff,
        List.map_cons, List.mem_cons] at hmem ⊢
      tauto
  | resumed _ hitems =>
      apply Or.inl
      simp only [readyNodes, hitems, List.map_cons, List.mem_append,
        List.mem_cons] at hmem ⊢
      tauto
  | _ => exact Or.inl hmem

/-- The main loop has a node that is ready or is being sent an input. -/
def HasNode (session : Session N) : Prop :=
  session.phase.mainLoop = true → session.readyNodes ≠ []

theorem HasNode.transition (hinv : session.HasNode) (hearly : session.Early)
    (hrunning : session.Running) (hguard : session.KeepsNode action)
    (h : Transition variant session action after) : after.HasNode := by
  have hkept : ∀ node ∈ session.readyNodes,
      (∀ task ∈ action.failsSend, node ≠ task.node) →
        session.phase ≠ .awaitingConfig → after.readyNodes ≠ [] := by
    intro node hmem hother hlate
    rcases h.readyNodes_kept hlate hmem with hready | ⟨task, hfails, hsame⟩
    · exact List.ne_nil_of_mem hready
    · exact absurd hsame.symm (hother task hfails)
  intro hmain
  rcases h.mainLoop hearly hrunning hmain with hbefore | rfl
  · have hlate : session.phase ≠ .awaitingConfig := by
      intro hphase
      simp [hphase, Phase.mainLoop] at hbefore
    cases hfails : action.failsSend with
    | none =>
        obtain ⟨node, hmem⟩ := List.exists_mem_of_ne_nil _ (hinv hbefore)
        exact hkept node hmem (by simp [hfails]) hlate
    | some task =>
        obtain ⟨node, hmem, hne⟩ := hguard.another task hfails
        refine hkept node hmem ?_ hlate
        intro other hother
        rw [hfails, Option.mem_some_iff] at hother
        exact hother ▸ hne
  · obtain ⟨node, hmem⟩ := List.exists_mem_of_ne_nil _ (hguard.configured rfl)
    refine hkept node (List.mem_append_left _ hmem) (by simp [Action.failsSend]) ?_
    intro hphase
    cases h with
    | respSent hother =>
        rw [hphase] at hother
        cases hother

/-- No send task has written more than its input. -/
def WritesWithin (session : Session N) : Prop :=
  ∀ task ∈ session.sendTasks,
    task.written ≤ (encode task.input.message).length

theorem WritesWithin.transition (hinv : session.WritesWithin)
    (h : Transition variant session action after) : after.WritesWithin := by
  have hdispatched : ∀ (before : Session N) (input : Input) (byMain : Bool),
      before.WritesWithin → (before.dispatchInput input byMain).WritesWithin := by
    intro before input byMain hbefore task hmem
    rcases List.mem_append.mp hmem with hnew | hold
    · obtain ⟨node, _, rfl⟩ := List.mem_map.mp hnew
      exact Nat.zero_le _
    · exact hbefore task hold
  cases h with
  | userInput => exact hdispatched _ _ _ hinv
  | inputPiece hperm _ hpart =>
      exact List.forall_mem_cons.mpr ⟨Nat.le_of_lt hpart, forall_rest hinv hperm⟩
  | inputWhole hperm _ hwhole =>
      exact List.forall_mem_cons.mpr ⟨Nat.le_of_eq hwhole, forall_rest hinv hperm⟩
  | inputSendError hperm => exact hdispatched _ _ _ (forall_rest hinv hperm)
  | inputSent hperm => exact forall_rest hinv hperm
  | resumed => exact List.forall_mem_cons.mpr ⟨Nat.zero_le _, hinv⟩
  | _ => exact hinv

/-- The parts of the invariant together. -/
structure WaitInv (session : Session N) : Prop where
  early : session.Early
  hasNode : session.HasNode
  announced : session.pool.Announced
  within : session.WritesWithin

theorem WaitInv.inHands (hinv : session.WaitInv)
    (hmain : session.phase.mainLoop = true)
    (hwaits : session.pool.waiters ≠ []) :
    session.sendTasks ≠ [] ∨
      session.pool.woken ≠ [] ∧ session.pool.items ≠ [] := by
  by_cases hsends : session.sendTasks = []
  · have hitems : session.pool.items ≠ [] := by
      simpa [readyNodes, hsends] using hinv.hasNode hmain
    refine Or.inr ⟨?_, hitems⟩
    intro hnone
    have hsuspended : session.pool.suspended ≠ [] := by
      simpa [AsyncPool.waiters, hnone] using hwaits
    have hless := hinv.announced hsuspended
    rw [hnone, List.length_nil] at hless
    exact hitems (List.eq_nil_of_length_eq_zero (Nat.le_zero.mp hless))
  · exact Or.inl hsends

section

variable [DecidableEq N]

/-- What the resumption of a waiter does to the ready container. -/
theorem pool_of_resume {waiter : Dispatch}
    (h : session.step variant (.resume waiter) = some after) :
    after.pool = session.pool ∨
      ∃ node, session.pool.resume waiter = some (node, after.pool) := by
  obtain ⟨_, hact⟩ := Option.ite_none_right_eq_some.mp h
  obtain ⟨_, hmatch⟩ := Option.ite_none_right_eq_some.mp hact
  split at hmatch
  · cases hmatch
    exact Or.inl rfl
  · next node pool hresume =>
      cases hmatch
      exact Or.inr ⟨node, hresume⟩

theorem announced_step (hinv : session.pool.Announced)
    (h : session.step variant action = some after) : after.pool.Announced := by
  cases (transition_of_step h).2 with
  | firstConfig => exact AsyncPool.Announced.popAll _
  | configOk => exact hinv.push _ _
  | respSent => exact (AsyncPool.Announced.popAll _).pushAll _ _
  | userInput | inputSendError => exact hinv.asyncPop _
  | inputSent => exact hinv.push _ _
  | resumed =>
      rcases pool_of_resume h with heq | ⟨node, hresume⟩
      · rw [heq]
        exact hinv
      · exact hinv.resume hresume
  | _ => exact hinv

/-- A woken waiter takes a ready node. -/
theorem step_resume (hrunning : session.Running) {waiter : Dispatch}
    (hwoken : waiter ∈ session.pool.woken) (hitems : session.pool.items ≠ []) :
    ∃ after, session.step variant (.resume waiter) = some after ∧
      after.pool.waiters.length < session.pool.waiters.length := by
  obtain ⟨node, rest, hnode⟩ := List.exists_cons_of_ne_nil hitems
  obtain ⟨pool, hresume⟩ : ∃ pool,
      session.pool.resume waiter = some (node, pool) := by
    simp only [AsyncPool.resume, AsyncPool.pop, hnode]
    exact ⟨_, rfl⟩
  have hless := (AsyncPool.waiters_of_resume hwoken hresume).length_eq
  have hstep : session.step variant (.resume waiter) =
      some { session with
        phase := if waiter.byMain then .receiving else session.phase
        pool := pool
        sendTasks := ⟨node, waiter.input, 0⟩ :: session.sendTasks } := by
    simp [step, hrunning, act, hwoken, hresume]
  refine ⟨_, hstep, ?_⟩
  rw [hless, List.length_cons]
  exact Nat.lt_succ_self _

/-- A send task that has written its input pushes its node back, and then a
waiter is awake. -/
theorem step_inputSent (hrunning : session.Running) {task : SendTask N}
    (hmem : task ∈ session.sendTasks)
    (hwhole : task.written = (encode task.input.message).length)
    (hwaits : session.pool.waiters ≠ []) :
    ∃ after, session.step variant (.inputSent task) = some after ∧
      after.Running ∧ after.pool.items ≠ [] ∧ after.pool.woken ≠ [] ∧
        after.pool.waiters = session.pool.waiters := by
  have hstep : session.step variant (.inputSent task) =
      some { session with
        sendTasks := session.sendTasks.erase task
        destroyed := task.input.id :: session.destroyed
        pool := session.pool.push variant.discipline task.node } := by
    simp only [step, hrunning, act, hmem, hwhole, and_self, ↓reduceIte]
  refine ⟨_, hstep, hrunning, ?_, ?_, AsyncPool.waiters_push _ _ _⟩
  · rw [AsyncPool.items_push]
    exact List.ne_nil_of_mem
      ((AsyncPool.put_perm _ _ _).mem_iff.mpr List.mem_cons_self)
  · rcases AsyncPool.cancelOne_waiters { session.pool with
      items := variant.discipline.put task.node session.pool.items } with
      ⟨hnone, heq⟩ | ⟨waiter, _, hwoken⟩
    · simp only [AsyncPool.push, heq]
      intro hwoken
      exact hwaits (List.append_eq_nil_iff.mpr ⟨hwoken, hnone⟩)
    · simp only [AsyncPool.push, hwoken]
      exact List.append_ne_nil_of_right_ne_nil _ (List.cons_ne_nil _ _)

/-- A send task writes the rest of its input. -/
theorem step_inputWhole (hrunning : session.Running) {task : SendTask N}
    (hmem : task ∈ session.sendTasks)
    (hpart : task.written < (encode task.input.message).length) :
    ∃ after, session.step variant (.inputPiece task
        ((encode task.input.message).length - task.written)) = some after ∧
      after.fault = session.fault ∧ after.phase = session.phase ∧
        after.pool = session.pool ∧
          ⟨task.node, task.input, (encode task.input.message).length⟩ ∈
            after.sendTasks := by
  have hbound : task.written +
      ((encode task.input.message).length - task.written) =
        (encode task.input.message).length := by omega
  have hstep : session.step variant (.inputPiece task
        ((encode task.input.message).length - task.written)) =
      some { session with
        sendTasks :=
          ⟨task.node, task.input, (encode task.input.message).length⟩ ::
            session.sendTasks.erase task
        delivered := (task.node, task.input) :: session.delivered
        atNodes := (task.node, task.input) :: session.atNodes } := by
    simp only [step, hrunning, act, hmem, Nat.sub_pos_of_lt hpart, hbound,
      Nat.le_refl, and_self, ↓reduceIte]
  exact ⟨_, hstep, rfl, rfl, rfl, List.mem_cons_self⟩

/-- A send task that does not fail comes to that. -/
theorem reaches_inputSent (variant : Variant) (hrunning : session.Running)
    (hwithin : session.WritesWithin) {task : SendTask N}
    (hmem : task ∈ session.sendTasks) (hwaits : session.pool.waiters ≠ []) :
    ∃ after, Machine.Reachable (step variant) session after ∧ after.Running ∧
      after.pool.items ≠ [] ∧ after.pool.woken ≠ [] ∧
        after.pool.waiters = session.pool.waiters := by
  rcases Nat.lt_or_eq_of_le (hwithin task hmem) with hpart | hwhole
  · obtain ⟨written, hpiece, hsome, hphase, hpool, htask⟩ :=
      step_inputWhole hrunning hmem hpart
    have hrun : written.Running := by
      rw [Running, hsome, hphase]
      exact hrunning
    obtain ⟨after, hsent, hafter⟩ := step_inputSent hrun
      htask rfl (by rw [hpool]; exact hwaits)
    rw [hpool] at hafter
    exact ⟨after, (Machine.Reaches.refl.tail trivial hpiece).tail trivial hsent,
      hafter⟩
  · obtain ⟨after, hsent, hafter⟩ := step_inputSent hrunning
      hmem hwhole hwaits
    exact ⟨after, Machine.Reaches.refl.tail trivial hsent, hafter⟩

/-- A wait for a ready node can end: a send task has a node to push back, or a
waiter is awake and a node is there for it; so not all nodes are retired. -/
structure NoDeadWait (variant : Variant) (session : Session N) : Prop where
  inHands : session.pool.waiters ≠ [] → session.sendTasks ≠ [] ∨
    session.pool.woken ≠ [] ∧ session.pool.items ≠ []
  notAllRetired : session.pool.waiters ≠ [] → session.readyNodes ≠ []
  canEnd : session.Running → session.pool.waiters ≠ [] →
    ∃ last, Machine.Reachable (step variant) session last ∧
      last.pool.waiters.length < session.pool.waiters.length

theorem WaitInv.canEnd (hinv : session.WaitInv)
    (hmain : session.phase.mainLoop = true) (hrunning : session.Running)
    (hwaits : session.pool.waiters ≠ []) :
    ∃ last, Machine.Reachable (step variant) session last ∧
      last.pool.waiters.length < session.pool.waiters.length := by
  rcases hinv.inHands hmain hwaits with hsends | ⟨hwoken, hitems⟩
  · obtain ⟨task, hmem⟩ := List.exists_mem_of_ne_nil _ hsends
    obtain ⟨after, hreach, hrun, hitems, hwoken, hsame⟩ :=
      reaches_inputSent variant hrunning hinv.within hmem hwaits
    obtain ⟨waiter, hwaiter⟩ := List.exists_mem_of_ne_nil _ hwoken
    obtain ⟨last, hresume, hless⟩ := step_resume hrun hwaiter hitems
    rw [hsame] at hless
    exact ⟨last, hreach.tail trivial hresume, hless⟩
  · obtain ⟨waiter, hwaiter⟩ := List.exists_mem_of_ne_nil _ hwoken
    obtain ⟨last, hresume, hless⟩ := step_resume hrunning hwaiter hitems
    exact ⟨last, Machine.Reaches.refl.tail trivial hresume, hless⟩

/-- As long as the last ready node does not fail, every wait for a node can
end. -/
theorem noDeadWait_of_keepsNode (variant : Variant) (nodes : List N)
    (config data receiver : Counter) {session : Session N}
    (h : Machine.Reaches (step variant) KeepsNode
      (initial nodes config data receiver) session)
    (hmain : session.phase.mainLoop = true) : NoDeadWait variant session := by
  have hinv : session.WaitInv := by
    apply h.invariant
    · exact ⟨Early.initial nodes config data receiver, nofun, nofun, nofun⟩
    · intro before action after hinv hguard hstep
      obtain ⟨hrunning, htransition⟩ := transition_of_step hstep
      exact ⟨hinv.early.transition htransition,
        hinv.hasNode.transition hinv.early hrunning hguard htransition,
        announced_step hinv.announced hstep,
        hinv.within.transition htransition⟩
  exact ⟨hinv.inHands hmain, fun _ => hinv.hasNode hmain, hinv.canEnd hmain⟩

/-- Both nodes are sent an input and a third input waits, when the send to the first
node fails: its input waits too, and the second node will serve both. -/
def bothWait : List (Action Nat) :=
  configuration (.config 1 1) [0, 1] ++
    [.userMessage (.ok (.data 5)), .userMessage (.ok (.data 6)),
      .userMessage (.ok (.data 7)),
      .inputSendError ⟨0, ⟨⟨4, .data 5⟩, .config 1 1⟩, 0⟩ .eof]

theorem noDeadWait_of_keepsNode_second :
    ∃ session : Session Nat,
      Machine.run (step .queue) KeepsNode (initial [0, 1] ⟨0⟩ ⟨0⟩ ⟨0⟩)
        bothWait = some session ∧
      session.phase = .dispatching ∧ session.retired = [0] ∧
        session.pool.waiters.length = 2 ∧ NoDeadWait .queue session :=
  ⟨_, rfl, rfl, rfl, rfl,
    noDeadWait_of_keepsNode .queue [0, 1] ⟨0⟩ ⟨0⟩ ⟨0⟩
      (Machine.reaches_of_run bothWait rfl) rfl⟩

/-- The only node is sent an input, and a second input waits for it. -/
def secondWaits : List (Action Nat) :=
  configuration (.config 1 1) [0] ++
    [.userMessage (.ok (.data 5)), .userMessage (.ok (.data 6))]

/-- The send to the only node fails.  Its input waits for a node, and so does the
main loop with the second one, and the user is told nothing. -/
theorem dead_wait :
    ∃ session : Session Nat,
      Machine.Reachable (step .queue) (initial [0] ⟨0⟩ ⟨0⟩ ⟨0⟩) session ∧
        session.phase = .dispatching ∧ session.acknowledged.length = 1 ∧
          session.retired = [0] ∧ session.sendTasks = [] ∧
            session.pool.waiters.length = 2 ∧ session.forwarded = [] ∧
              ¬NoDeadWait .queue session := by
  refine ⟨_, Machine.reaches_of_run
    (secondWaits ++
      [.inputSendError ⟨0, ⟨⟨3, .data 5⟩, .config 1 1⟩, 0⟩ .eof]) rfl, rfl, rfl,
    rfl, rfl, rfl, rfl, ?_⟩
  intro hdead
  exact hdead.notAllRetired (by decide) rfl

end

end Session

end FpgaFramework
