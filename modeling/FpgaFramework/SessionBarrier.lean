/-
The end of the configuration phase.  Every `_configure_node` has one outcome,
and when the response goes to the user the ready nodes are those that
acknowledged the configuration.  The response itself does not depend on them.
-/
import FpgaFramework.SessionCounters

namespace FpgaFramework

open scoped List

namespace Session

variable {N : Type} {variant : Variant} {session after : Session N}
  {action : Action N}

/-- The reply to a configuration is a valid response with status SUCCESS. -/
def accepting : Except ErrorCode ValidMessage → Bool
  | .error _ => false
  | .ok reply =>
      decide (reply.1.isValidConfigResp ∧ reply.1.status = .success)

/-- The outcome of a node's configuration, if the step decides it. -/
def Action.outcome : Action N → List (N × Bool)
  | .configSendError task _ => [(task.node, false)]
  | .configReply task result => [(task.node, accepting result)]
  | _ => []

/-- The outcome of a task whose completion handler has not run. -/
def ConfigTask.outcome (task : ConfigTask N) : List (N × Bool) :=
  match task.stage with
  | .finished ec => [(task.node, ec.isNone)]
  | _ => []

theorem node_of_mem_outcome {task : ConfigTask N} {entry : N × Bool}
    (h : entry ∈ ConfigTask.outcome task) : task.node = entry.1 := by
  unfold ConfigTask.outcome at h
  split at h
  · rw [List.mem_singleton.mp h]
  · cases h

/-- The outcomes that completion handlers have acted on, and those that are still
to be acted on. -/
def settled (session : Session N) : List (N × Bool) :=
  session.pool.items.map (·, true) ++ session.retired.map (·, false)

def unsettled (session : Session N) : List (N × Bool) :=
  session.configTasks.flatMap ConfigTask.outcome

theorem filter_outcomes (ready retired : List N) (flag : Bool) :
    (((ready.map (·, true) ++ retired.map (·, false)) : List (N × Bool)).filter
        (·.2 = flag)).map Prod.fst =
      if flag then ready else retired := by
  cases flag with
  | true => simp [List.filter_map, Function.comp_def]
  | false => simp [List.filter_map, Function.comp_def]

/-- What a session's notes of the outcomes say while no loop has started. -/
def OutcomesKept (session : Session N) (outcomes : List (N × Bool)) : Prop :=
  session.BeforeLoops → outcomes ~ session.settled ++ session.unsettled

theorem OutcomesKept.filter {outcomes : List (N × Bool)}
    (hkept : session.OutcomesKept outcomes) (hbefore : session.BeforeLoops)
    (hnone : session.configTasks = []) (flag : Bool) :
    (outcomes.filter (·.2 = flag)).map Prod.fst ~
      if flag then session.pool.items else session.retired := by
  have hperm := hkept hbefore
  simp only [unsettled, hnone, List.flatMap_nil, List.append_nil] at hperm
  rw [← filter_outcomes]
  exact (hperm.filter _).map Prod.fst

/-- A node that has acknowledged the configuration is ready once its completion
handler has run. -/
theorem OutcomesKept.mem_items {outcomes : List (N × Bool)}
    (hkept : session.OutcomesKept outcomes) (hbefore : session.BeforeLoops)
    {node : N} (hmem : (node, true) ∈ outcomes)
    (hended : node ∉ session.configTasks.map ConfigTask.node) :
    node ∈ session.pool.items := by
  rcases List.mem_append.mp ((hkept hbefore).mem_iff.mp hmem) with
    hsettled | hunsettled
  · simpa [settled] using hsettled
  · obtain ⟨task, htask, houtcome⟩ := List.mem_flatMap.mp hunsettled
    exact absurd (List.mem_map.mpr ⟨task, htask, node_of_mem_outcome houtcome⟩)
      hended

variable [DecidableEq N]

/-- The outcome of one task, and those of the others. -/
theorem count_unsettled {task : ConfigTask N} {rest : List (ConfigTask N)}
    (hperm : session.configTasks ~ task :: rest) (entry : N × Bool) :
    session.unsettled.count entry =
      (ConfigTask.outcome task).count entry +
        (rest.flatMap ConfigTask.outcome).count entry :=
  count_flatMap_of_perm hperm ConfigTask.outcome entry

/-- Until the main loop starts, an outcome that a step brings about waits for its
completion handler. -/
theorem Transition.count_outcomes (hearly : session.Early)
    (h : Transition variant session action after)
    (hbefore : after.BeforeLoops) (entry : N × Bool) :
    after.settled.count entry + after.unsettled.count entry =
      session.settled.count entry + session.unsettled.count entry +
        action.outcome.count entry := by
  have hstart := h.to_before hbefore
  cases h with
  | firstConfig hphase =>
      have hnone : ∀ (ready : List N) (config : Held),
          (ready.map fun node =>
            (⟨node, config, .sending 0⟩ : ConfigTask N)).flatMap
              ConfigTask.outcome = [] := by
        intro ready config
        simp [ConfigTask.outcome]
      simp only [settled, unsettled, configureNodes, AsyncPool.popAll,
        hearly.noItems hphase, List.flatMap_append, hnone, List.nil_append,
        List.map_nil, Action.outcome, List.count_nil, Nat.add_zero]
  | configPiece hperm hstage | configSent hperm hstage =>
      rw [count_unsettled hperm]
      simp only [ConfigTask.outcome, hstage, settled, unsettled,
        List.flatMap_cons, List.nil_append, Action.outcome, List.count_nil,
        Nat.zero_add, Nat.add_zero]
  | configSendError hperm hstage | configReplyError hperm hstage =>
      rw [count_unsettled hperm]
      simp only [ConfigTask.outcome, hstage, settled, unsettled,
        List.flatMap_cons, Action.outcome, accepting, Option.isNone_some,
        List.count_append, List.count_nil]
      omega
  | configRefused hperm hstage hreply | configAcknowledged hperm hstage hreply =>
      rw [count_unsettled hperm]
      simp only [ConfigTask.outcome, hstage, settled, unsettled,
        List.flatMap_cons, Action.outcome, accepting, hreply, and_self,
        decide_false, decide_true, Option.isNone_some, Option.isNone_none,
        List.count_append, List.count_nil]
      omega
  | @configOk task _ _ hperm hstage =>
      have hput := ((AsyncPool.put_perm variant.discipline task.node
        session.pool.items).map (·, true)).count_eq entry
      rw [count_unsettled hperm]
      simp only [ConfigTask.outcome, hstage, settled, unsettled,
        AsyncPool.items_push, List.count_append, hput, List.map_cons,
        List.count_cons, List.count_nil, Option.isNone_none, Action.outcome]
      omega
  | configFailed hperm hstage =>
      rw [count_unsettled hperm]
      simp only [ConfigTask.outcome, hstage, settled, unsettled,
        List.count_append, List.map_cons, List.count_cons, List.count_nil,
        Option.isNone_some, Action.outcome]
      omega
  | respSent | userError | userConfig | userInvalidQueue | drained | stopped =>
      cases hbefore
  | userInput hphase =>
      exact absurd hstart (by simp [BeforeLoops, hphase, Phase.beforeLoops])
  | inputPiece hperm | inputWhole hperm | inputSendError hperm
  | inputSent hperm =>
      exact absurd hstart (hearly.not_before_of_sendTasks hperm)
  | resumed _ _ hwaiters =>
      exact absurd (hearly.noWaiters hstart) (not_nil_of_perm hwaiters)
  | _ => rfl

/-- The outcome of a configuration, noted as the node's answer comes in. -/
def noteOutcome (_before : Session N) (action : Action N) (_after : Session N) :
    List (N × Bool) :=
  action.outcome

theorem OutcomesKept.transition {outcomes : List (N × Bool)}
    (hkept : session.OutcomesKept outcomes) (hearly : session.Early)
    (h : Transition variant session action after) :
    after.OutcomesKept (outcomes ++ action.outcome) := by
  intro hbefore
  rw [List.perm_iff_count]
  intro entry
  have hcount := (hkept (h.to_before hbefore)).count_eq entry
  have hmove := h.count_outcomes hearly hbefore entry
  simp only [List.count_append] at hcount ⊢
  omega

theorem outcomesKept_of_records {nodes : List N} {config data receiver : Counter}
    {outcomes : List (N × Bool)}
    (h : Machine.Records (step variant) noteOutcome (fun _ _ => True)
      (initial nodes config data receiver) session outcomes) :
    session.OutcomesKept outcomes := by
  apply h.invariant
  · exact fun _ => List.Perm.refl _
  · intro before action after outcomes hreach hkept _ hstep
    have hearly := early_of_reachable hreach
    exact hkept.transition hearly (transition_of_step hstep).2

/-- What is known of the nodes when the user is answered. -/
structure Barrier (nodes : List N) (session : Session N)
    (outcomes : List (N × Bool)) : Prop where
  finished : session.configTasks = []
  ready : session.pool.items ~
    (outcomes.filter (·.2 = true)).map Prod.fst
  once : session.pool.items.Nodup
  failed : session.retired ~ (outcomes.filter (·.2 = false)).map Prod.fst
  allNodes : nodes ~ session.pool.items ++ session.retired

/-- While the response is sent to the user, every configuration task has ended,
and the ready nodes are those that acknowledged the configuration. -/
theorem barrier_of_responding (variant : Variant) {nodes : List N}
    (hnodup : nodes.Nodup) (hbound : nodes.length < 2 ^ 32)
    (config data receiver : Counter) (hconfig : config.getValue = 0)
    {session : Session N} {outcomes : List (N × Bool)}
    (h : Machine.Records (step variant) noteOutcome (fun _ _ => True)
      (initial nodes config data receiver) session outcomes)
    {response : Held} {ticket : Nat}
    (hphase : session.phase = .responding response ticket) :
    Barrier nodes session outcomes := by
  have hreach : Machine.Reachable (step variant)
      (initial nodes config data receiver) session := h.reaches
  have hbefore : session.BeforeLoops := by
    simp [BeforeLoops, hphase, Phase.beforeLoops]
  have hnone : session.configTasks = [] :=
    (configInv_of_reachable hbound hconfig hreach).configuring.resolve_left
      (by simp [hphase])
  have hnodes := nodeInv_of_reachable hnodup hreach
  have hkept := outcomesKept_of_records h
  have hall : nodes ~ session.pool.items ++ session.retired := by
    have hstart : session.nodes = [] :=
      hnodes.handedOver.resolve_right (by simp [hphase])
    rw [List.perm_iff_count]
    intro node
    have hplace := hnodes.places node
    simp only [placeCount, hstart, hnone, hnodes.early.noSendTasks hbefore,
      List.map_nil, List.count_nil] at hplace
    rw [List.count_append]
    omega
  exact {
    finished := hnone
    ready := (hkept.filter hbefore hnone true).symm
    once := (List.nodup_append.mp (hall.nodup hnodup)).1
    failed := (hkept.filter hbefore hnone false).symm
    allNodes := hall }

/-- One node acknowledges the configuration, and the other cannot be written
to. -/
def halfConfigured : List (Action Nat) :=
  .firstMessage (.ok (.config 1 1)) :: acknowledge (.config 1 1) 0 ++
    [.configSendError ⟨1, ⟨0, .config 1 1⟩, .sending 0⟩ .eof,
      .configHandler ⟨1, ⟨0, .config 1 1⟩, .finished (some .eof)⟩,
      .configured fun _ => 0]

theorem barrier_of_responding_half :
    ∃ (session : Session Nat) (outcomes : List (Nat × Bool)),
      Machine.run (Machine.recording (step .queue) noteOutcome)
        (fun _ _ => True) (initial [0, 1] ⟨0⟩ ⟨0⟩ ⟨0⟩, []) halfConfigured =
          some (session, outcomes) ∧
      session.pool.items = [0] ∧ Barrier [0, 1] session outcomes :=
  ⟨_, _, rfl, rfl,
    barrier_of_responding .queue (by decide) (by decide) ⟨0⟩ ⟨0⟩ ⟨0⟩ rfl
      (Machine.records_of_run halfConfigured rfl) rfl⟩

/-- A response of SUCCESS tells of a ready node that acknowledged the
configuration, and where every node refuses or fails the response is ERROR. -/
structure Honest (session : Session N) (outcomes : List (N × Bool))
    (response : ValidMessage) : Prop where
  success : response.1.status = .success →
    ∃ node ∈ session.pool.items, (node, true) ∈ outcomes
  error : (∀ entry ∈ outcomes, entry.2 = false) → response.1.status = .error

/-- `_send_config_response` sends what `new_config_resp` makes by default. -/
theorem response_of_responding {nodes : List N} {config data receiver : Counter}
    (h : Machine.Reachable (step variant) (initial nodes config data receiver)
      session) {response : Held} {ticket : Nat}
    (hphase : session.phase = .responding response ticket) :
    response.message.1.status = .success := by
  induction h generalizing response ticket with
  | refl => cases hphase
  | tail hreach _ hstep ih =>
      cases (transition_of_step hstep).2 with
      | configured _ _ hresponse =>
          cases hphase
          rw [hresponse]
          rfl
      | firstError | firstInvalid | firstConfig | respError | respSent
      | userError | userConfig | userInvalidQueue | drained | stopped =>
          cases hphase
      | userInput hother =>
          rcases phase_acceptInput hother hphase with hphase | hphase <;>
            cases hphase
      | resumed => exact ih (phase_of_resumed hphase (by simp))
      | _ => exact ih hphase

/-- The response is honest exactly where a node has acknowledged the
configuration and its task has ended: it is SUCCESS in any case. -/
theorem honest_iff_acknowledged (variant : Variant) (nodes : List N)
    (hnodup : nodes.Nodup) (config data receiver : Counter)
    {session : Session N} {outcomes : List (N × Bool)}
    (h : Machine.Records (step variant) noteOutcome (fun _ _ => True)
      (initial nodes config data receiver) session outcomes)
    {response : Held} {ticket : Nat}
    (hphase : session.phase = .responding response ticket) :
    Honest session outcomes response.message ↔
      ∃ node, (node, true) ∈ outcomes ∧
        node ∉ session.configTasks.map ConfigTask.node := by
  have hbefore : session.BeforeLoops := by
    simp [BeforeLoops, hphase, Phase.beforeLoops]
  constructor
  · intro hhonest
    obtain ⟨node, hready, hmem⟩ :=
      hhonest.success (response_of_responding h.reaches hphase)
    refine ⟨node, hmem, fun htask => ?_⟩
    have hplace := (nodeInv_of_reachable hnodup h.reaches).places node
    have hone := List.nodup_iff_count_le_one.mp hnodup node
    have hitem := List.count_pos_iff.mpr hready
    have hconfig := List.count_pos_iff.mpr htask
    simp only [placeCount] at hplace
    omega
  · rintro ⟨node, hmem, hended⟩
    constructor
    · intro _
      have hready := (outcomesKept_of_records h).mem_items hbefore hmem hended
      exact ⟨node, hready, hmem⟩
    · intro hall
      exact absurd (hall _ hmem) (by simp)

theorem honest_iff_acknowledged_half :
    ∃ (session : Session Nat) (outcomes : List (Nat × Bool)) (response : Held),
      Machine.run (Machine.recording (step .queue) noteOutcome)
        (fun _ _ => True) (initial [0, 1] ⟨0⟩ ⟨0⟩ ⟨0⟩, []) halfConfigured =
          some (session, outcomes) ∧
      (Honest session outcomes response.message ↔
        ∃ node, (node, true) ∈ outcomes ∧
          node ∉ session.configTasks.map ConfigTask.node) :=
  ⟨_, _, _, rfl,
    honest_iff_acknowledged .queue [0, 1] (by decide) ⟨0⟩ ⟨0⟩ ⟨0⟩
      (Machine.records_of_run halfConfigured rfl) rfl⟩

/-- The user is told SUCCESS where there is no node, and where the only node has
answered with ERROR. -/
theorem response_not_honest :
    (∃ (session : Session Nat) (response : Held) (ticket : Nat),
      Machine.Records (step .queue) noteOutcome (fun _ _ => True)
        (initial [] ⟨0⟩ ⟨0⟩ ⟨0⟩) session [] ∧
      session.phase = .responding response ticket ∧
        ¬Honest session [] response.message) ∧
    ∃ (session : Session Nat) (response : Held) (ticket : Nat),
      Machine.Records (step .queue) noteOutcome (fun _ _ => True)
        (initial [0] ⟨0⟩ ⟨0⟩ ⟨0⟩) session [(0, false)] ∧
      session.phase = .responding response ticket ∧
        ¬Honest session [(0, false)] response.message := by
  refine ⟨⟨_, _, _, Machine.records_of_run
    [.firstMessage (.ok (.config 1 1)), .configured fun _ => 0] rfl, rfl,
    fun h => ?_⟩, ⟨_, _, _, Machine.records_of_run
    [.firstMessage (.ok (.config 1 1)),
      .configPiece ⟨0, ⟨0, .config 1 1⟩, .sending 0⟩ 20,
      .configSent ⟨0, ⟨0, .config 1 1⟩, .sending 20⟩,
      .configReply ⟨0, ⟨0, .config 1 1⟩, .receiving⟩
        (.ok (.newConfigResp (fun _ => 0) .error)),
      .configHandler ⟨0, ⟨0, .config 1 1⟩, .finished (some .fault)⟩,
      .configured fun _ => 0] rfl, rfl, fun h => ?_⟩⟩
  · exact absurd (h.error nofun) (by decide)
  · exact absurd (h.error (by decide)) (by decide)

end Session

end FpgaFramework
