/-
How the bench ends.  `receiving_loop` looks for the end of `sending_loop` only before
it waits for another result, so a last result that overtakes the end of its own
`send_message` leaves it waiting for good; and that is the only way.
-/
import FpgaFramework.BenchSafety

namespace FpgaFramework

open scoped List

namespace BenchUser

/-- `sending_loop` has ended, and there is a result for each input. -/
structure Finished (user : BenchUser) : Prop where
  running : user.stage = .running
  ended : user.sending = .stopped
  all : user.sent.length ≤ user.results.length

/-- The receiving loop waits for a result that nobody owes it. -/
def Overtaken (user : BenchUser) : Prop :=
  user.Finished ∧ user.receiving = true

/-- The user has failed, or it goes on and was not overtaken. -/
def Timely (sizes : BenchSizes) (user : BenchUser) : Prop :=
  user.stage = .failed ∨ user.Inv sizes ∧ ¬user.Overtaken

variable {sizes : BenchSizes} {user : BenchUser}

/-- Who has read a result and goes on waiting misses another one, or has not ended
its sending loop. -/
theorem Inv.not_overtaken_checkDone (hinv : user.Inv sizes)
    (hwaits : user.receiving = true) (frame : Frame) :
    ¬Overtaken (checkDone { user with
      messagesReceived := user.messagesReceived + 1
      taken := user.taken + 1
      results := user.results ++ [frame] }) := by
  rintro ⟨⟨_, hended, hall⟩, hreceiving⟩
  rw [checkDone] at hended hall hreceiving
  split at hreceiving
  · cases hreceiving
  · next hgoes =>
      rw [if_neg hgoes] at hended hall
      have hdone := (hinv.stopped hwaits).mpr hended
      have hsent := hinv.counted hwaits
      have hnot : user.sending ≠ .sending := by
        rw [hended]
        exact Sending.noConfusion
      rw [if_neg hnot] at hsent
      rw [List.length_append, List.length_singleton] at hall
      have hresults : user.sent.length ≤ user.results.length + 1 := hall
      have hcounts : user.messagesSent ≤ user.messagesReceived + 1 := by
        rw [hinv.received]
        omega
      exact hgoes ⟨hdone, hcounts⟩

theorem Timely.resolve (h : user.Timely sizes) {stage : Stage}
    (hstage : user.stage = stage) (hlive : stage ≠ .failed) :
    user.Inv sizes ∧ ¬user.Overtaken :=
  h.resolve_left (hstage ▸ hlive)

theorem Timely.initial : Timely sizes initial := by
  refine Or.inr ⟨Inv.initial, ?_⟩
  rintro ⟨⟨hrunning, _⟩, _⟩
  cases hrunning

theorem Timely.takeResponse (h : user.Timely sizes) (hstage : user.stage = .waiting)
    (response : Message) : Timely sizes (user.takeResponse response) := by
  obtain ⟨hinv, _⟩ := h.resolve hstage Stage.noConfusion
  by_cases haccepts : acceptsResponse response = true
  · rw [BenchUser.takeResponse, if_pos haccepts]
    refine Or.inr ⟨hinv.takeResponse hstage, ?_⟩
    rintro ⟨⟨_, hended, _⟩, _⟩
    exact hinv.some hended (hinv.early (Or.inr hstage)).1
  · rw [BenchUser.takeResponse, if_neg haccepts]
    exact Or.inl rfl

theorem Timely.takeResult (h : user.Timely sizes) (hstage : user.stage = .running)
    (hwaits : user.receiving = true) (result : Message) :
    Timely sizes (user.takeResult sizes result) := by
  obtain ⟨hinv, _⟩ := h.resolve hstage Stage.noConfusion
  rw [BenchUser.takeResult]
  split
  · exact Or.inr ⟨hinv.takeResult hstage hwaits _,
      hinv.not_overtaken_checkDone hwaits _⟩
  · exact Or.inl rfl

end BenchUser

namespace BenchCluster

variable {N : Type} {variant : Variant} {sizes : BenchSizes} {nodes : List N}
  {cluster after : BenchCluster N}

/-- There is nothing to read but the response and one result for each input. -/
theorem Inv.length_reads_le (hinv : cluster.Inv nodes sizes) :
    cluster.session.reads.length ≤ cluster.user.sent.length + 1 := by
  have hle := hinv.known.readable.length_reads_le
  have hkeys := hinv.known.accepted_keys.length_eq
  have hsent := congrArg List.length hinv.sent_eq
  have hmessages : cluster.session.user.sends.length =
      cluster.session.user.messages.length := (List.length_map _).symm
  simp only [List.length_append, List.length_map] at hkeys hsent
  rcases hinv.known.readable.first.order with ⟨hnone, _⟩ | ⟨memory, hsome⟩
  · rw [hnone, List.length_nil] at hmessages
    omega
  · rw [hsome, List.length_cons, List.length_map] at hmessages
    omega

theorem Other.user_kept {action : Session.Action N} (h : cluster.Other action after) :
    after.user = cluster.user := by
  cases h <;> rfl

/-- The action is one of the server or of a node. -/
def Action.ofOthers : Action N → Bool
  | .server _ | .node _ _ _ | .nodeLost _ => true
  | _ => false

variable [DecidableEq N]

theorem user_of_others {action : Action N} (hothers : action.ofOthers = true)
    (h : cluster.step variant sizes action = some after) :
    after.user = cluster.user := by
  cases action with
  | server action =>
      obtain ⟨brought, hother, hmap⟩ := Option.bind_eq_some_iff.mp h
      obtain ⟨session, _, rfl⟩ := Option.map_eq_some_iff.mp hmap
      have hkept := (other_cases hother).user_kept
      exact hkept
  | node node memory message =>
      simp only [BenchCluster.step] at h
      split at h
      · cases h
      · obtain ⟨_, heq⟩ := Option.ite_none_right_eq_some.mp h
        rw [← Option.some.inj heq]
  | nodeLost node =>
      obtain ⟨_, heq⟩ := Option.ite_none_right_eq_some.mp h
      rw [← Option.some.inj heq]
  | _ => cases hothers

/-- A user that was overtaken takes no step. -/
theorem Inv.user_of_overtaken (hinv : cluster.Inv nodes sizes)
    (hover : cluster.user.Overtaken) {action : Action N}
    (h : cluster.step variant sizes action = some after) :
    after.user = cluster.user := by
  obtain ⟨⟨hrunning, hended, hall⟩, hwaits⟩ := hover
  cases action with
  | sendConfig memory =>
      obtain ⟨hstage, _⟩ := Option.ite_none_right_eq_some.mp h
      rw [hrunning] at hstage
      cases hstage
  | takeResponse message =>
      obtain ⟨⟨hstage, _⟩, _⟩ := Option.ite_none_right_eq_some.mp h
      rw [hrunning] at hstage
      cases hstage
  | writeInput memory t =>
      obtain ⟨⟨_, hsending⟩, _⟩ := Option.ite_none_right_eq_some.mp h
      rw [hended] at hsending
      cases hsending
  | inputSent elapsed =>
      obtain ⟨⟨_, hsending⟩, _⟩ := Option.ite_none_right_eq_some.mp h
      rw [hended] at hsending
      cases hsending
  | takeResult message =>
      -- One more result would be one more than there are inputs.
      obtain ⟨⟨_, _, hnext⟩, _⟩ := Option.ite_none_right_eq_some.mp h
      have hread := (hinv.next_result hrunning hnext).2.length_le
      have hreads := hinv.length_reads_le
      simp only [List.length_cons, List.length_append, List.length_nil] at hread
      omega
  | userLost =>
      obtain ⟨⟨_, hphase⟩, _⟩ := Option.ite_none_right_eq_some.mp h
      have hclosed := hinv.returned hphase
      rw [hrunning] at hclosed
      cases hclosed
  | close =>
      obtain ⟨⟨_, _, hends⟩, _⟩ := Option.ite_none_right_eq_some.mp h
      rw [hwaits] at hends
      cases hends
  | _ => exact user_of_others rfl h

/-- `sending_loop` counts an input before all results are there. -/
def SentInTime (cluster : BenchCluster N) : Action N → Prop
  | .inputSent _ => cluster.user.results.length < cluster.user.sent.length
  | _ => True

instance (cluster : BenchCluster N) (action : Action N) :
    Decidable (cluster.SentInTime action) := by
  cases action <;> unfold SentInTime <;> infer_instance

/-- Only the sending loop can make its user an overtaken one, whatever the other
parties and the connections do. -/
theorem timely_step (htimely : cluster.user.Timely sizes) {action : Action N}
    (htime : cluster.SentInTime action)
    (h : cluster.step variant sizes action = some after) :
    after.user.Timely sizes := by
  cases action with
  | sendConfig memory =>
      obtain ⟨config, hsent, _⟩ := BenchUser.sendConfig_spec sizes memory cluster.user
      obtain ⟨hstage, heq⟩ := Option.ite_none_right_eq_some.mp h
      obtain ⟨hinv, _⟩ := htimely.resolve hstage BenchUser.Stage.noConfusion
      rw [← Option.some.inj heq, hsent]
      refine Or.inr ⟨hinv.sendConfig hstage, ?_⟩
      rintro ⟨⟨hrunning, _⟩, _⟩
      cases hrunning
  | takeResponse message =>
      obtain ⟨⟨hstage, _⟩, heq⟩ := Option.ite_none_right_eq_some.mp h
      rw [← Option.some.inj heq]
      exact htimely.takeResponse hstage message.1
  | writeInput memory t =>
      obtain ⟨input, hsent, hholds⟩ :=
        BenchUser.writeInput_spec sizes memory t cluster.user
      obtain ⟨⟨hstage, hsending⟩, heq⟩ := Option.ite_none_right_eq_some.mp h
      obtain ⟨hinv, _⟩ := htimely.resolve hstage BenchUser.Stage.noConfusion
      rw [← Option.some.inj heq, hsent]
      refine Or.inr ⟨hinv.writeInput hstage hsending hholds, ?_⟩
      rintro ⟨⟨_, hended, _⟩, _⟩
      cases hended
  | inputSent elapsed =>
      obtain ⟨⟨hstage, hsending⟩, heq⟩ := Option.ite_none_right_eq_some.mp h
      obtain ⟨hinv, _⟩ := htimely.resolve hstage BenchUser.Stage.noConfusion
      rw [← Option.some.inj heq]
      refine Or.inr ⟨hinv.inputSent hsending elapsed, ?_⟩
      rintro ⟨⟨_, _, hall⟩, _⟩
      exact absurd htime (Nat.not_lt.mpr hall)
  | takeResult message =>
      obtain ⟨⟨hstage, hwaits, _⟩, heq⟩ := Option.ite_none_right_eq_some.mp h
      rw [← Option.some.inj heq]
      exact htimely.takeResult hstage hwaits message.1
  | userLost =>
      obtain ⟨_, heq⟩ := Option.ite_none_right_eq_some.mp h
      rw [← Option.some.inj heq]
      exact Or.inl rfl
  | close =>
      obtain ⟨⟨hstage, _, hends⟩, heq⟩ := Option.ite_none_right_eq_some.mp h
      obtain ⟨hinv, _⟩ := htimely.resolve hstage BenchUser.Stage.noConfusion
      rw [← Option.some.inj heq]
      refine Or.inr ⟨hinv.close hstage hends, ?_⟩
      rintro ⟨⟨hrunning, _⟩, _⟩
      cases hrunning
  | _ =>
      rw [user_of_others rfl h]
      exact htimely

/-- The user closes its connection as soon as its receiving loop has ended too. -/
theorem step_close (hfinished : cluster.user.Finished)
    (hends : cluster.user.receiving = false) :
    ∃ closed, cluster.step variant sizes .close = some closed ∧
      closed.user.stage = .closed := by
  refine ⟨_, if_pos ⟨hfinished.running, hfinished.ended, hends⟩, ?_⟩
  rfl

/-- Once every input is sent and has its result, the user closes its connection next
or, if its receiving loop still waits, does nothing any more. -/
theorem closes_or_waits_of_finished (variant : Variant) (sizes : BenchSizes)
    {nodes : List N} (hnodup : nodes.Nodup) (hbound : nodes.length < 2 ^ 32)
    {config : Counter} (hconfig : config.getValue = 0) (data receiver : Counter)
    {cluster : BenchCluster N}
    (h : Machine.Reaches (step variant sizes) WritesAlone
      (initial nodes config data receiver) cluster)
    (hfinished : cluster.user.Finished) :
    (cluster.user.receiving = false →
        ∃ closed, cluster.step variant sizes .close = some closed ∧
          closed.user.stage = .closed) ∧
      (cluster.user.receiving = true →
        ∀ later, Machine.Reaches (step variant sizes) WritesAlone cluster later →
          later.user = cluster.user) := by
  constructor
  · exact step_close hfinished
  · intro hwaits later hlater
    induction hlater with
    | refl => rfl
    | @tail before after action hreach _ hstep ih =>
        have hinv := inv_of_reaches hnodup hbound hconfig (h.trans hreach)
        have hover : before.user.Overtaken := by
          rw [ih]
          exact ⟨hfinished, hwaits⟩
        exact (hinv.user_of_overtaken hover hstep).trans ih

/-- The first result comes before `send_message` is back, and the loop ends then. -/
def lateEnd : List (Action Nat) :=
  (oneInput.eraseIdx 12).take 20 ++ [.inputSent 10000000]

theorem closes_or_waits_of_finished_lateEnd :
    ∃ cluster : BenchCluster Nat,
      Machine.run (step .queue smallSizes) WritesAlone (initial [0] ⟨0⟩ ⟨0⟩ ⟨0⟩)
          lateEnd = some cluster ∧
        cluster.user.stage = .running ∧
          ∀ later, Machine.Reaches (step .queue smallSizes) WritesAlone cluster later →
            later.user = cluster.user := by
  have hends : (Machine.run (step .queue smallSizes) WritesAlone
      (initial [0] ⟨0⟩ ⟨0⟩ ⟨0⟩) lateEnd).map (fun cluster =>
        (cluster.user.stage, cluster.user.sending, cluster.user.receiving,
          decide (cluster.user.sent.length ≤ cluster.user.results.length))) =
      some (.running, .stopped, true, true) := by
    decide +kernel
  obtain ⟨cluster, hrun, hlast⟩ := Option.map_eq_some_iff.mp hends
  obtain ⟨hrunning, hlast⟩ := Prod.mk.inj hlast
  obtain ⟨hended, hlast⟩ := Prod.mk.inj hlast
  obtain ⟨hwaits, hall⟩ := Prod.mk.inj hlast
  refine ⟨cluster, hrun, hrunning, ?_⟩
  exact (closes_or_waits_of_finished .queue smallSizes (show [0].Nodup by decide)
    (by decide) (show Counter.getValue ⟨0⟩ = 0 from rfl) ⟨0⟩ ⟨0⟩
    (Machine.reaches_of_run lateEnd hrun)
    ⟨hrunning, hended, of_decide_eq_true hall⟩).2 hwaits

/-- Where the sending loop counts each input before all results are there, the user
closes its connection once every input has its result. -/
theorem closes_of_sentInTime (variant : Variant) (sizes : BenchSizes) (nodes : List N)
    (config data receiver : Counter) {cluster : BenchCluster N}
    (h : Machine.Reaches (step variant sizes) SentInTime
      (initial nodes config data receiver) cluster)
    (hfinished : cluster.user.Finished) :
    ∃ closed, cluster.step variant sizes .close = some closed ∧
      closed.user.stage = .closed := by
  have htimely : cluster.user.Timely sizes := by
    clear hfinished
    induction h with
    | refl => exact BenchUser.Timely.initial
    | tail _ htime hstep ih => exact timely_step ih htime hstep
  obtain ⟨_, hnot⟩ := htimely.resolve hfinished.running BenchUser.Stage.noConfusion
  apply step_close hfinished
  exact Bool.eq_false_of_not_eq_true fun hwaits => hnot ⟨hfinished, hwaits⟩

theorem closes_of_sentInTime_oneInput :
    ∃ cluster : BenchCluster Nat,
      Machine.run (step .queue smallSizes) SentInTime (initial [0] ⟨0⟩ ⟨0⟩ ⟨0⟩)
          oneInput.dropLast = some cluster ∧
        ∃ closed, cluster.step .queue smallSizes .close = some closed ∧
          closed.user.stage = .closed := by
  have hends : (Machine.run (step .queue smallSizes) SentInTime
      (initial [0] ⟨0⟩ ⟨0⟩ ⟨0⟩) oneInput.dropLast).map (fun cluster =>
        (cluster.user.stage, cluster.user.sending,
          decide (cluster.user.sent.length ≤ cluster.user.results.length))) =
      some (.running, .stopped, true) := by
    decide +kernel
  obtain ⟨cluster, hrun, hlast⟩ := Option.map_eq_some_iff.mp hends
  obtain ⟨hrunning, hlast⟩ := Prod.mk.inj hlast
  obtain ⟨hended, hall⟩ := Prod.mk.inj hlast
  refine ⟨cluster, hrun, ?_⟩
  exact closes_of_sentInTime .queue smallSizes [0] ⟨0⟩ ⟨0⟩ ⟨0⟩
    (Machine.reaches_of_run oneInput.dropLast hrun)
    ⟨hrunning, hended, of_decide_eq_true hall⟩

end BenchCluster

end FpgaFramework
