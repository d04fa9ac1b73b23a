/-
The stop event.  It is edge-triggered: it ends the wait of a receiver loop that
is waiting, and a loop that is busy with a result does not learn of it.  So all
loops end by themselves if none is busy with a result that it will forward.
-/
import FpgaFramework.SessionTeardown

namespace FpgaFramework

open scoped List

namespace Session

variable {N : Type} {variant : Variant} {session after : Session N}
  {action : Action N}

/-- The loop ends without another wait, once the stop event has ended the wait it
may be in. -/
def endsByItself (session : Session N) (loop : Loop N) : Bool :=
  match loop.stage with
  | .notified | .finished => true
  | _ => session.rejects loop

/-- `_main_loop` notifies the stop event with this step. -/
def Action.notifies : Action N → Bool
  | .drained => true
  | _ => false

/-- The stop event finds no loop with a result that it forwards. -/
def StopsAll (session : Session N) (action : Action N) : Prop :=
  action.notifies = true → ∀ loop ∈ session.loops,
    loop.stage = .waiting ∨ session.endsByItself loop = true

instance (session : Session N) (action : Action N) :
    Decidable (session.StopsAll action) := by
  unfold StopsAll
  infer_instance

/-- The main loop waits for loops that end by themselves. -/
def Ending (session : Session N) : Prop :=
  session.phase = .stopping →
    ∀ loop ∈ session.loops, session.endsByItself loop = true

theorem Ending.transition (hinv : session.Ending)
    (hguard : session.StopsAll action)
    (h : Transition variant session action after) : after.Ending := by
  intro hphase
  cases h with
  | firstError | firstInvalid | firstConfig | configured | respError | respSent
  | userError | userConfig | userInvalidQueue | stopped => cases hphase
  | userInput hother =>
      rcases phase_acceptInput hother hphase with hafter | hafter <;> cases hafter
  | drained =>
      intro loop hmem
      obtain ⟨old, hold, rfl⟩ := List.mem_map.mp hmem
      unfold notify
      rcases hguard rfl old hold with hstage | hends
      · simp only [hstage]
        rfl
      · split
        · rfl
        · exact hends
  | resumed => exact hinv (phase_of_resumed hphase (by simp))
  | nodeError hperm hstage | nodeUnasked hperm hstage | nodeAnswer hperm hstage
  | forwardDone hperm hstage =>
      refine forall_moved (hinv hphase) hperm ?_
      simp [endsByItself, rejects, hstage]
  | examineError hperm | examineInvalid hperm | forwardError hperm
  | loopStopped hperm =>
      exact forall_moved (hinv hphase) hperm (fun _ => rfl)
  | examineValid hperm hstage hconfig hdata =>
      refine forall_moved (hinv hphase) hperm ?_
      simp [endsByItself, rejects, hstage, hconfig, hdata]
  | loopHandler hperm => exact forall_rest (hinv hphase) hperm
  | _ => exact hinv hphase

theorem not_waiting_of_endsByItself {loop : Loop N}
    (h : session.endsByItself loop = true) : loop.stage ≠ .waiting := by
  intro hstage
  simp [endsByItself, rejects, hstage] at h

/-- The steps that a loop takes to its end without its node. -/
def OwnEnd (_session : Session N) (action : Action N) : Prop :=
  ∃ loop, action = .examine loop ∨ action = .loopStopped loop ∨
    action = .loopHandler loop

/-- The steps that a loop has left to its end. -/
def Loop.endWork (loop : Loop N) : Nat :=
  match loop.stage with
  | .finished => 1
  | _ => 2

def endWork (session : Session N) : Nat :=
  session.loops.foldr (fun loop work => Loop.endWork loop + work) 0

/-- A session that waits for loops that end by themselves. -/
structure EndingInv (session : Session N) : Prop where
  running : session.Running
  stored : session.Stored
  stopping : session.phase = .stopping
  ending : ∀ loop ∈ session.loops, session.endsByItself loop = true

theorem EndingInv.of_loops (hinv : session.EndingInv)
    (hfault : after.fault = session.fault)
    (hphase : after.phase = session.phase)
    (hconfig : after.config = session.config)
    (hloops : ∀ loop ∈ after.loops,
      loop.stage = .finished ∨ loop ∈ session.loops) : after.EndingInv where
  running := by
    rw [Running, hfault, hphase]
    exact hinv.running
  stored := by
    rw [Stored, hphase, hconfig]
    exact hinv.stored
  stopping := hphase.trans hinv.stopping
  ending loop hmem := by
    rcases hloops loop hmem with hstage | hold
    · simp only [endsByItself, hstage]
    · simpa only [endsByItself, rejects, hconfig] using hinv.ending loop hold

section

variable [DecidableEq N]

/-- A loop with a result that it rejects examines it and ends. -/
theorem step_examine_of_rejects (variant : Variant)
    (hrunning : session.Running) {stored : Held}
    (hconfig : session.config = some stored) {loop : Loop N}
    (hmem : loop ∈ session.loops) {result : Except ErrorCode Held}
    {answers : Option Input} (hstage : loop.stage = .received result answers)
    (hrejects : session.rejects loop = true) :
    ∃ destroyed, session.step variant (.examine loop) =
      some { session with
        loops := { loop with stage := .finished } :: session.loops.erase loop
        destroyed := destroyed } := by
  have hstep : session.step variant (.examine loop) =
      some (session.examine stored loop (session.loops.erase loop) result
        answers) := by
    simp [step, hrunning, act, hstage, hmem, hconfig]
  rw [hstep]
  cases result with
  | error ec => exact ⟨session.destroyed, rfl⟩
  | ok held =>
      have hdata : held.message.1.isValidData stored.message.1.outputSize =
          some false := by
        simpa [rejects, hstage, hconfig] using hrejects
      exact ⟨held.id :: session.destroyed, by simp only [examine, hdata]⟩

/-- One of the loops can take a step to its end. -/
theorem EndingInv.progress (hinv : session.EndingInv)
    (hsome : session.loops ≠ []) :
    ∃ action after, session.OwnEnd action ∧
      session.step variant action = some after ∧ after.EndingInv ∧
        after.endWork < session.endWork := by
  have hrunning := hinv.running
  obtain ⟨stored, hconfig⟩ := Option.ne_none_iff_exists'.mp
    ((hinv.stored.resolve_left (by simp [hinv.stopping])).resolve_left hrunning.2)
  obtain ⟨loop, rest, hloops⟩ := List.exists_cons_of_ne_nil hsome
  have hmem : loop ∈ session.loops := by simp [hloops]
  have herase : session.loops.erase loop = rest := by simp [hloops]
  have hfinished : ∀ other ∈ (⟨loop.node, .finished⟩ :: rest : List (Loop N)),
      other.stage = .finished ∨ other ∈ session.loops := by
    intro other hother
    rcases List.mem_cons.mp hother with rfl | hrest
    · exact Or.inl rfl
    · exact Or.inr (by simp [hloops, hrest])
  have hends := hinv.ending loop hmem
  cases hstage : loop.stage with
  | waiting => simp [endsByItself, rejects, hstage] at hends
  | forwarding => simp [endsByItself, rejects, hstage] at hends
  | finished =>
      have hstep : session.step variant (.loopHandler loop) =
          some { session with
            loops := rest
            nodeReceiverCounter := session.nodeReceiverCounter.decr } := by
        simp [step, hrunning, act, hmem, hstage, herase]
      refine ⟨_, _, ⟨loop, Or.inr (Or.inr rfl)⟩, hstep,
        hinv.of_loops rfl rfl rfl ?_, ?_⟩
      · exact fun other hrest => Or.inr (by simp [hloops, hrest])
      · simp [endWork, hloops, Loop.endWork, hstage]
  | notified =>
      have hstep : session.step variant (.loopStopped loop) =
          some { session with
            loops := { loop with stage := .finished } :: rest } := by
        simp [step, hrunning, act, hmem, hstage, herase]
      refine ⟨_, _, ⟨loop, Or.inr (Or.inl rfl)⟩, hstep,
        hinv.of_loops rfl rfl rfl hfinished, ?_⟩
      simp [endWork, hloops, Loop.endWork, hstage]
  | received result answers =>
      have hrejects : session.rejects loop = true := by
        simpa [endsByItself, hstage] using hends
      obtain ⟨destroyed, hstep⟩ := step_examine_of_rejects
        variant hrunning hconfig hmem hstage hrejects
      rw [herase] at hstep
      refine ⟨_, _, ⟨loop, Or.inl rfl⟩, hstep,
        hinv.of_loops rfl rfl rfl hfinished, ?_⟩
      simp [endWork, hloops, Loop.endWork, hstage]

/-- What the stop event achieves, in one state and the next step: no loop waits
again, and the loops end without another message from a node. -/
structure StopReaches (variant : Variant) (session : Session N) : Prop where
  noneWaits : ∀ loop ∈ session.loops, loop.stage ≠ .waiting
  noneWaitsAgain : ∀ action after, session.step variant action = some after →
    after.phase = .stopping → ∀ loop ∈ after.loops, loop.stage ≠ .waiting
  ends : ∃ last, Machine.Reaches (step variant) OwnEnd session last ∧
    last.loops = [] ∧ last.nodeReceiverCounter.val = 0

/-- Where the stop event finds no loop busy with a result that it forwards, it
reaches every loop. -/
theorem stopReaches_of_stopsAll (variant : Variant) (nodes : List N)
    (config data receiver : Counter) (hreceiver : receiver.getValue = 0)
    {session : Session N}
    (h : Machine.Reaches (step variant) StopsAll
      (initial nodes config data receiver) session)
    (hphase : session.phase = .stopping) (hfault : session.fault = none) :
    StopReaches variant session := by
  have hkeep : ∀ (before : Session N) (action : Action N) (after : Session N),
      before.Ending → before.StopsAll action →
        before.step variant action = some after → after.Ending :=
    fun _ _ _ hinv hguard hstep =>
      hinv.transition hguard (transition_of_step hstep).2
  have hending : session.Ending := h.invariant nofun hkeep
  refine ⟨?_, ?_, ?_⟩
  · exact fun loop hmem => not_waiting_of_endsByItself (hending hphase loop hmem)
  · intro action after hstep hafter loop hmem
    have hguard : session.StopsAll action := by
      intro hnotifies
      cases action with
      | drained =>
          cases (transition_of_step hstep).2 with
          | drained hother =>
              rw [hphase] at hother
              cases hother
      | _ => cases hnotifies
    exact not_waiting_of_endsByItself
      (hkeep session action after hending hguard hstep hafter loop hmem)
  · have hinv : session.EndingInv :=
      ⟨⟨hfault, by simp [hphase]⟩, stored_of_reachable h.reachable, hphase,
        hending hphase⟩
    obtain ⟨last, hreach, hnone⟩ := Machine.reaches_of_measure endWork
      (fun _ hinv hsome => hinv.progress hsome) hinv
    have hcount := receiverCounter_le_of_reachable hreceiver
      (h.reachable.trans hreach.reachable)
    rw [hnone, List.length_nil, Nat.le_zero] at hcount
    exact ⟨last, hreach, hnone, (Counter.val_eq_zero_iff _).mpr hcount⟩

/-- One node has disconnected when the stop event comes, and its loop has not
looked at that yet. -/
def stopReached : List (Action Nat) :=
  configuration (.config 1 1) [0, 1] ++
    [.userMessage (.ok (.config 1 2)),
      .nodeMessage ⟨0, .waiting⟩ (.error .eof) none, .drained]

theorem stopReaches_of_stopsAll_reached :
    ∃ session : Session Nat,
      Machine.run (step .queue) StopsAll (initial [0, 1] ⟨0⟩ ⟨0⟩ ⟨0⟩)
        stopReached = some session ∧
      session.loops = [⟨0, .received (.error .eof) none⟩, ⟨1, .notified⟩] ∧
        StopReaches .queue session :=
  ⟨_, rfl, rfl,
    stopReaches_of_stopsAll .queue [0, 1] ⟨0⟩ ⟨0⟩ ⟨0⟩ rfl
      (Machine.reaches_of_run stopReached rfl) rfl rfl⟩

/-- A node sends a result that nobody asked for.  Its loop is sending it to the
user when the stop event comes, and then waits again, for the node. -/
theorem stop_not_reached :
    ∃ session : Session Nat,
      Machine.Reachable (step .queue) (initial [0] ⟨0⟩ ⟨0⟩ ⟨0⟩) session ∧
        session.phase = .stopping ∧ session.fault = none ∧
          session.loops = [⟨0, .waiting⟩] ∧ ¬StopReaches .queue session := by
  refine ⟨_, Machine.reaches_of_run
    (configuration (.config 1 1) [0] ++
      [.nodeMessage ⟨0, .waiting⟩ (.ok (.data 5)) none,
        .examine ⟨0, .received (.ok ⟨3, .data 5⟩) none⟩,
        .userMessage (.ok (.config 1 2)), .drained,
        .forwardPiece ⟨0, .forwarding ⟨3, .data 5⟩ 1 none⟩ 13,
        .forwardDone ⟨0, .forwarding ⟨3, .data 5⟩ 1 none⟩]) rfl, rfl, rfl, rfl, ?_⟩
  intro hreaches
  exact hreaches.noneWaits ⟨0, .waiting⟩ List.mem_cons_self rfl

end

end Session

end FpgaFramework
