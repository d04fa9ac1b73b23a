/-
The counters that `start` and `_main_loop` wait on.  Started at zero, the
configuration counter counts the configuration tasks and the receiver counter
counts the receiver loops.
-/
import FpgaFramework.SessionNodes

namespace FpgaFramework

open scoped List

namespace Session

variable {N : Type} {variant : Variant} {session after : Session N}
  {action : Action N}

/-- The configuration phase of a session with `bound` nodes. -/
structure ConfigInv (bound : Nat) (session : Session N) : Prop where
  early : session.Early
  places : session.places.length = bound
  configTasks : session.configCounter.getValue = session.configTasks.length
  configuring : session.phase = .configuring ∨ session.configTasks = []
  alive : session.fault ≠ some .deadCounter

theorem ConfigInv.initial {nodes : List N} {config data receiver : Counter}
    (hconfig : config.getValue = 0) :
    ConfigInv nodes.length (initial nodes config data receiver) where
  early := Early.initial nodes config data receiver
  places := by simp [Session.places, Session.initial, AsyncPool.empty]
  configTasks := hconfig
  configuring := Or.inr rfl
  alive := nofun

variable {bound : Nat}

theorem ConfigInv.phase_of_task (hinv : ConfigInv bound session)
    {task : ConfigTask N} {rest : List (ConfigTask N)}
    (hperm : session.configTasks ~ task :: rest) :
    session.phase = .configuring :=
  hinv.configuring.resolve_right (not_nil_of_perm hperm)

theorem ConfigInv.configTasks_transition (hbound : bound < 2 ^ 32)
    (hinv : ConfigInv bound session)
    (h : Transition variant session action after) :
    after.configCounter.getValue = after.configTasks.length := by
  have hcount := hinv.configTasks
  cases h with
  | firstConfig hphase =>
      have hnone := hinv.early.noConfigTasks hphase
      have hlength := (AsyncPool.items_pushAll_perm variant.discipline
        session.pool session.nodes).length_eq
      have hplaces := hinv.places
      simp only [Session.places, List.length_append] at hplaces hlength
      simp only [hnone, List.length_nil] at hcount
      simp only [configureNodes, AsyncPool.popAll, hnone, List.append_nil,
        List.length_map]
      rw [Counter.getValue_incrs _ _ (by omega), hcount, Nat.zero_add]
  | configPiece hperm | configSendError hperm | configSent hperm
  | configReplyError hperm | configRefused hperm | configAcknowledged hperm =>
      exact hcount.trans hperm.length_eq
  | configOk hperm | configFailed hperm =>
      rw [hperm.length_eq, List.length_cons] at hcount
      simp only [Counter.getValue_decr]
      omega
  | _ => exact hcount

theorem ConfigInv.configuring_transition (hinv : ConfigInv bound session)
    (h : Transition variant session action after) :
    after.phase = .configuring ∨ after.configTasks = [] := by
  have hother : session.phase ≠ .configuring → session.configTasks = [] :=
    hinv.configuring.resolve_left
  cases h with
  | firstConfig => exact Or.inl rfl
  | configPiece hperm | configSendError hperm | configSent hperm
  | configReplyError hperm | configRefused hperm | configAcknowledged hperm
  | configOk hperm | configFailed hperm =>
      exact Or.inl (hinv.phase_of_task hperm)
  | configured _ hzero =>
      have hcount := hinv.configTasks
      rw [(Counter.val_eq_zero_iff _).mp hzero] at hcount
      exact Or.inr (List.eq_nil_of_length_eq_zero hcount.symm)
  | firstError hphase | firstInvalid hphase | respError hphase | respSent hphase
  | userError hphase | userInput hphase | userConfig hphase
  | userInvalidQueue _ hphase | drained hphase | stopped hphase =>
      exact Or.inr (hother (by simp [hphase]))
  | resumed _ _ hwaiters =>
      refine Or.inr (hother fun hphase => ?_)
      exact not_nil_of_perm hwaiters
        (hinv.early.noWaiters (by simp [BeforeLoops, hphase, Phase.beforeLoops]))
  | _ => exact hinv.configuring

/-- How the receiver counter moves with the receiver loops. -/
theorem Transition.receiverCounter
    (h : Transition variant session action after) :
    after.nodeReceiverCounter = session.nodeReceiverCounter ∧
        after.loops.length = session.loops.length ∨
      (session.BeforeLoops ∧
        after.nodeReceiverCounter =
          session.nodeReceiverCounter.incrs session.pool.items.length ∧
        after.loops.length = session.pool.items.length + session.loops.length) ∨
      after.nodeReceiverCounter = session.nodeReceiverCounter.decr ∧
        session.loops.length = after.loops.length + 1 := by
  cases h with
  | respSent hphase =>
      refine Or.inr (Or.inl ⟨?_, rfl, ?_⟩)
      · simp [BeforeLoops, hphase, Phase.beforeLoops]
      · simp only [startLoops, AsyncPool.popAll, List.length_append,
          List.length_map]
  | drained => exact Or.inl ⟨rfl, List.length_map _⟩
  | nodeError hperm | nodeUnasked hperm | nodeAnswer hperm | examineError hperm
  | examineInvalid hperm | examineValid hperm | forwardError hperm
  | forwardDone hperm | loopStopped hperm =>
      exact Or.inl ⟨rfl, hperm.length_eq.symm⟩
  | loopHandler hperm => exact Or.inr (Or.inr ⟨rfl, hperm.length_eq⟩)
  | _ => exact Or.inl ⟨rfl, rfl⟩

/-- The receiver counter follows the receiver loops. -/
theorem ConfigInv.loops_transition (hbound : bound < 2 ^ 32)
    (hinv : ConfigInv bound session)
    (hcount : session.nodeReceiverCounter.getValue = session.loops.length)
    (h : Transition variant session action after) :
    after.nodeReceiverCounter.getValue = after.loops.length := by
  rcases h.receiverCounter with
    ⟨hsame, hlength⟩ | ⟨hbefore, hmore, hlength⟩ | ⟨hless, hlength⟩
  · rw [hsame, hlength]
    exact hcount
  · have hplaces := hinv.places
    have hnone := hinv.early.noLoops hbefore
    simp only [Session.places, List.length_append] at hplaces
    rw [hnone, List.length_nil] at hcount hlength
    rw [hmore, hlength, Counter.getValue_incrs _ _ (by omega), hcount,
      Nat.zero_add, Nat.add_zero]
  · rw [hless, Counter.getValue_decr]
    omega

/-- Whatever wraps, the receiver counter is at most the number of loops. -/
theorem Transition.receiverCounter_le
    (h : Transition variant session action after)
    (hle : session.nodeReceiverCounter.getValue ≤ session.loops.length) :
    after.nodeReceiverCounter.getValue ≤ after.loops.length := by
  rcases h.receiverCounter with
    ⟨hsame, hlength⟩ | ⟨_, hmore, hlength⟩ | ⟨hless, hlength⟩
  · rw [hsame, hlength]
    exact hle
  · have hincrs := session.nodeReceiverCounter.getValue_incrs_le
      session.pool.items.length
    rw [hmore]
    omega
  · rw [hless, Counter.getValue_decr]
    omega

theorem ConfigInv.alive_transition (hinv : ConfigInv bound session)
    (h : Transition variant session action after) :
    after.fault ≠ some .deadCounter := by
  cases h with
  | configOk hperm _ hfault | configFailed hperm _ hfault =>
      simp [hfault, counterLives, hinv.phase_of_task hperm]
  | userDivision | examineDivision | resumeEmpty => simp
  | _ => exact hinv.alive

variable [DecidableEq N]

theorem ConfigInv.transition (hbound : bound < 2 ^ 32)
    (hinv : ConfigInv bound session)
    (h : Transition variant session action after) : ConfigInv bound after where
  early := hinv.early.transition h
  places := h.places_perm.length_eq.trans hinv.places
  configTasks := hinv.configTasks_transition hbound h
  configuring := hinv.configuring_transition h
  alive := hinv.alive_transition h

theorem configInv_of_reachable {nodes : List N} {config data receiver : Counter}
    (hbound : nodes.length < 2 ^ 32) (hconfig : config.getValue = 0)
    (h : Machine.Reachable (step variant) (initial nodes config data receiver)
      session) : ConfigInv nodes.length session := by
  apply h.invariant (ConfigInv.initial hconfig)
  intro before action after hinv _ hstep
  exact hinv.transition hbound (transition_of_step hstep).2

theorem receiverCounter_le_of_reachable {nodes : List N}
    {config data receiver : Counter} (hreceiver : receiver.getValue = 0)
    (h : Machine.Reachable (step variant) (initial nodes config data receiver)
      session) :
    session.nodeReceiverCounter.getValue ≤ session.loops.length := by
  induction h with
  | refl => exact hreceiver.le
  | tail _ _ hstep ih => exact (transition_of_step hstep).2.receiverCounter_le ih

end Session

end FpgaFramework
