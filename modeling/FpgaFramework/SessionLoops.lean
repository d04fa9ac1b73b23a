/-
What depends on the receiver loops: that a ready node is still read from, and
that an input a node holds is still waited for.  A loop ends by itself, and
nothing else in the session learns of it; so each result is about runs in which
a loop ends only where nothing depends on it.
-/
import FpgaFramework.SessionCounters
import FpgaFramework.SessionMessages

namespace FpgaFramework

open scoped List

namespace Session

variable {N : Type} {variant : Variant} {session after : Session N}
  {action : Action N}

/-- The node of a receiver loop that has not ended. -/
def Loop.serving (loop : Loop N) : List N :=
  match loop.stage with
  | .finished => []
  | _ => [loop.node]

/-- The nodes whose receiver loop is running. -/
def servedNodes (session : Session N) : List N :=
  session.loops.flatMap Loop.serving

/-- The loop ends when it examines what it received. -/
def rejects (session : Session N) (loop : Loop N) : Bool :=
  match loop.stage, session.config with
  | .received (.error _) _, _ => true
  | .received (.ok held) _, some config =>
      held.message.1.isValidData config.message.1.outputSize == some false
  | _, _ => false

/-- The loop that ends with this step. -/
def ended (session : Session N) : Action N → Option (Loop N)
  | .examine loop => if session.rejects loop then some loop else none
  | .forwardError loop _ => some loop
  | .loopStopped loop => some loop
  | _ => none

theorem mem_servedNodes {node : N} :
    node ∈ session.servedNodes ↔
      ∃ loop ∈ session.loops, loop.node = node ∧ loop.stage ≠ .finished := by
  simp only [servedNodes, List.mem_flatMap]
  constructor
  · rintro ⟨loop, hmem, hserving⟩
    refine ⟨loop, hmem, ?_⟩
    unfold Loop.serving at hserving
    split at hserving
    · cases hserving
    · next hstage => exact ⟨(List.mem_singleton.mp hserving).symm, hstage⟩
  · rintro ⟨loop, hmem, rfl, hstage⟩
    refine ⟨loop, hmem, ?_⟩
    unfold Loop.serving
    split
    · next hfinished => exact absurd hfinished hstage
    · exact List.mem_singleton.mpr rfl

@[simp] theorem serving_notify (loop : Loop N) :
    Loop.serving (notify loop) = Loop.serving loop := by
  unfold notify
  split
  · next hstage => simp [Loop.serving, hstage]
  · rfl

/-- A node loses its reader only when its loop ends. -/
theorem Transition.mem_servedNodes (h : Transition variant session action after)
    {node : N} (hserved : node ∈ session.servedNodes)
    (hkeep : ∀ loop ∈ session.ended action, loop.node ≠ node) :
    node ∈ after.servedNodes := by
  have hmove : ∀ {loop : Loop N} {rest : List (Loop N)},
      session.loops ~ loop :: rest → loop ∈ session.ended action →
        node ∈ rest.flatMap Loop.serving := by
    intro loop rest hperm hended
    have hmem := (hperm.flatMap_right Loop.serving).mem_iff.mp hserved
    rw [List.flatMap_cons] at hmem
    apply (List.mem_append.mp hmem).resolve_left
    unfold Loop.serving
    split
    · exact List.not_mem_nil
    · exact fun hsame =>
        hkeep loop hended (List.mem_singleton.mp hsame).symm
  cases h with
  | respSent =>
      simp only [servedNodes, startLoops, List.flatMap_append]
      exact List.mem_append_right _ hserved
  | drained =>
      simpa only [servedNodes, List.flatMap_map, serving_notify] using hserved
  | nodeError hperm hstage | nodeUnasked hperm hstage | nodeAnswer hperm hstage
  | examineValid hperm hstage | forwardDone hperm hstage =>
      have hmem := (hperm.flatMap_right Loop.serving).mem_iff.mp hserved
      simpa only [servedNodes, List.flatMap_cons, Loop.serving, hstage] using hmem
  | examineError hperm hstage =>
      have hrest := hmove hperm (by simp [ended, rejects, hstage])
      exact hrest
  | examineInvalid hperm hstage hconfig hdata =>
      have hrest := hmove hperm (by simp [ended, rejects, hstage, hconfig, hdata])
      exact hrest
  | forwardError hperm | loopStopped hperm =>
      have hrest := hmove hperm rfl
      exact hrest
  | loopHandler hperm hstage =>
      have hmem := (hperm.flatMap_right Loop.serving).mem_iff.mp hserved
      simpa only [servedNodes, List.flatMap_cons, Loop.serving, hstage,
        List.nil_append] using hmem
  | _ => exact hserved

theorem Phase.mainLoop_of_not_before {phase : Phase}
    (hbefore : ¬phase.beforeLoops = true) (hreturned : phase ≠ .returned) :
    phase.mainLoop = true := by
  cases phase with
  | awaitingConfig | configuring | responding => exact absurd rfl hbefore
  | returned => exact absurd rfl hreturned
  | receiving | dispatching | draining | stopping => rfl

/-- `_main_loop` is entered in one way. -/
theorem Transition.mainLoop (hearly : session.Early)
    (hrunning : session.Running) (h : Transition variant session action after)
    (hmain : after.phase.mainLoop = true) :
    session.phase.mainLoop = true ∨ action = .respSent := by
  cases h with
  | firstError | firstInvalid | firstConfig | configured | respError | userError
  | userInvalidQueue | stopped => cases hmain
  | respSent => exact Or.inr rfl
  | userInput hphase | userConfig hphase | drained hphase =>
      exact Or.inl (by simp [hphase, Phase.mainLoop])
  | resumed _ _ hwaiters =>
      refine Or.inl (Phase.mainLoop_of_not_before ?_ hrunning.2)
      exact fun hbefore => not_nil_of_perm hwaiters (hearly.noWaiters hbefore)
  | _ => exact Or.inl hmain

/-- A loop ends only when its node neither is ready nor is being sent an
input. -/
def KeepsReaders (session : Session N) (action : Action N) : Prop :=
  ∀ loop ∈ session.ended action, loop.node ∉ session.readyNodes

instance [DecidableEq N] (session : Session N) (action : Action N) :
    Decidable (session.KeepsReaders action) := by
  unfold KeepsReaders
  infer_instance

/-- Every node that may be sent an input is read from. -/
def Served (session : Session N) : Prop :=
  session.phase.mainLoop = true →
    ∀ node ∈ session.readyNodes, node ∈ session.servedNodes

theorem served_startLoops (hearly : session.Early)
    (hbefore : session.BeforeLoops) : (startLoops variant session).Served := by
  intro _ node hmem
  have hitems := (AsyncPool.items_pushAll_perm variant.discipline
    session.pool.popAll.2 session.pool.popAll.1).mem_iff (a := node)
  simp only [readyNodes, startLoops, hearly.noSendTasks hbefore, List.map_nil,
    List.append_nil, hitems] at hmem
  rw [mem_servedNodes]
  refine ⟨⟨node, .waiting⟩, ?_, rfl, fun hstage => by cases hstage⟩
  exact List.mem_append_left _ (List.mem_map_of_mem hmem)

section

variable [DecidableEq N] {bound : Nat}

theorem Served.transition (hconfig : ConfigInv bound session)
    (hserved : session.Served) (hrunning : session.Running)
    (hguard : session.KeepsReaders action)
    (h : Transition variant session action after) : after.Served := by
  intro hmain node hmem
  rcases h.mainLoop hconfig.early hrunning hmain with hbefore | rfl
  · have hconfigured : session.phase ≠ .configuring := by
      intro hphase
      simp [hphase, Phase.mainLoop] at hbefore
    rcases h.mem_readyNodes hmem with hready | ⟨task, htask, _⟩
    · apply h.mem_servedNodes (hserved hbefore node hready)
      rintro loop hended rfl
      exact hguard loop hended hready
    · rw [hconfig.configuring.resolve_left hconfigured] at htask
      cases htask
  · cases h with
    | respSent hphase =>
        have hearly := hconfig.early
        have hbefore : session.BeforeLoops := by
          simp [BeforeLoops, hphase, Phase.beforeLoops]
        refine served_startLoops ?_ hbefore hmain node hmem
        exact ⟨hearly.noConfig, hearly.noItems, hearly.noConfigTasks,
          hearly.noWaiters, hearly.noSendTasks, hearly.noLoops⟩

/-- As long as no receiver loop ends while its node is ready or being sent an
input, every ready node has a running receiver loop. -/
theorem ready_served_of_keepsReaders (variant : Variant) (nodes : List N)
    (hbound : nodes.length < 2 ^ 32) (config data receiver : Counter)
    (hconfig : config.getValue = 0) {session : Session N}
    (h : Machine.Reaches (step variant) KeepsReaders
      (initial nodes config data receiver) session)
    (hmain : session.phase.mainLoop = true) :
    ∀ node ∈ session.pool.items,
      ∃ loop ∈ session.loops, loop.node = node ∧ loop.stage ≠ .finished := by
  have hserved : session.Served := by
    refine h.invariant_of (fun _ hreach =>
      configInv_of_reachable hbound hconfig hreach.reachable) nofun ?_
    intro before action after hknown hserved hguard hstep
    obtain ⟨hrunning, htransition⟩ := transition_of_step hstep
    exact hserved.transition hknown hrunning hguard htransition
  intro node hmem
  exact mem_servedNodes.mp (hserved hmain node (List.mem_append_left _ hmem))

/-- A node disconnects after it was given up, and the other is ready again. -/
theorem ready_served_of_keepsReaders_retry :
    ∃ session : Session Nat,
      Machine.run (step .queue) KeepsReaders (initial [0, 1] ⟨0⟩ ⟨0⟩ ⟨0⟩)
        (retry ++ [.nodeMessage ⟨0, .waiting⟩ (.error .eof) none,
          .examine ⟨0, .received (.error .eof) none⟩,
          .inputPiece ⟨1, ⟨⟨4, .data 5⟩, .config 1 1⟩, 0⟩ 13,
          .inputSent ⟨1, ⟨⟨4, .data 5⟩, .config 1 1⟩, 13⟩]) = some session ∧
      session.pool.items = [1] ∧
        ∀ node ∈ session.pool.items,
          ∃ loop ∈ session.loops, loop.node = node ∧ loop.stage ≠ .finished :=
  ⟨_, rfl, rfl,
    ready_served_of_keepsReaders .queue [0, 1] (by decide) ⟨0⟩ ⟨0⟩ ⟨0⟩ rfl
      (Machine.reaches_of_run
        (retry ++ [.nodeMessage ⟨0, .waiting⟩ (.error .eof) none,
          .examine ⟨0, .received (.error .eof) none⟩,
          .inputPiece ⟨1, ⟨⟨4, .data 5⟩, .config 1 1⟩, 0⟩ 13,
          .inputSent ⟨1, ⟨⟨4, .data 5⟩, .config 1 1⟩, 13⟩]) rfl) rfl⟩

/-- An idle node disconnects and stays in the ready container. -/
theorem ready_not_served :
    ∃ session : Session Nat,
      Machine.Reachable (step .queue) (initial [0, 1] ⟨0⟩ ⟨0⟩ ⟨0⟩) session ∧
        session.phase = .receiving ∧
          ¬∀ node ∈ session.pool.items,
            ∃ loop ∈ session.loops,
              loop.node = node ∧ loop.stage ≠ .finished := by
  refine ⟨_, Machine.reaches_of_run
    (configuration (.config 1 1) [0, 1] ++
      [.nodeMessage ⟨0, .waiting⟩ (.error .eof) none,
        .examine ⟨0, .received (.error .eof) none⟩]) rfl, rfl, ?_⟩
  change ¬∀ node ∈ [0, 1], ∃ loop ∈ [(⟨0, .finished⟩ : Loop Nat), ⟨1, .waiting⟩],
    loop.node = node ∧ loop.stage ≠ .finished
  decide

end

end Session

end FpgaFramework
