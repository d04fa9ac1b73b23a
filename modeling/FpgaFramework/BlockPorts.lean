/-
Ports of a block.  The worker runs from the constructor on, and the ports are set
by two later calls; no port is used before, where no chunk is taken before.
-/
import FpgaFramework.BlockQueues

namespace FpgaFramework

namespace Block

/-- Both ports that the chunk needs are set: one without items is never copied from
the incoming buffer. -/
def Ready (block : Block) (chunk : DataChunk) : Prop :=
  block.outputPort.isSome = true ∧
    (chunk.size = 0 ∨ block.inputPort.isSome = true)

instance (block : Block) (chunk : DataChunk) : Decidable (block.Ready chunk) := by
  unfold Ready
  infer_instance

/-- The ports are set for the chunk that the thread is going to copy. -/
def PortsAt (block : Block) : Stage → Prop
  | .allocating coming => block.Ready coming
  | .looping coming _ _ => block.Ready coming
  | .starting coming _ _ => block.Ready coming
  | .polling coming _ _ => block.Ready coming
  | .reading coming _ _ => block.Ready coming
  | _ => True

/-- No port was used that is not set, and none will be in this pass. -/
structure PortsSet (block : Block) : Prop where
  noUnset : block.fault ≠ some .unsetPort
  ports : block.PortsAt block.stage

/-- A port that is set stays set. -/
theorem PortsAt.mono {block after : Block} {stage : Stage}
    (hready : ∀ chunk, block.Ready chunk → after.Ready chunk)
    (h : block.PortsAt stage) : after.PortsAt stage := by
  cases stage with
  | allocating | looping | starting | polling | reading => exact hready _ h
  | _ => exact True.intro

/-- A step that takes no port away. -/
theorem portsSet_of_ready (block : Block) {after : Block}
    (hfault : after.fault ≠ some .unsetPort)
    (hready : ∀ chunk, block.Ready chunk → after.Ready chunk)
    (hports : block.PortsAt after.stage) : after.PortsSet := by
  constructor
  · exact hfault
  · exact hports.mono hready

theorem PortsSet.transition {block after : Block} {action : Action}
    (h : block.PortsSet)
    (hpop : ∀ chunk, action = .pop (some chunk) → block.Ready chunk)
    (htransition : Transition block action after) : after.PortsSet := by
  have hnone := h.noUnset
  have hports := h.ports
  cases htransition with
  | popped => exact portsSet_of_ready block hnone (fun _ => id) (hpop _ rfl)
  | allocateUnset hstage hport | readUnset hstage hport =>
      rw [hstage] at hports
      have hset := hports.1
      rw [hport] at hset
      cases hset
  | writeUnset hstage ha hport =>
      rw [hstage] at hports
      rcases hports.2 with hzero | hset
      · rw [hzero, UInt32.lt_iff_toNat_lt] at ha
        exact absurd ha (Nat.not_lt_zero _)
      · rw [hport] at hset
        cases hset
  | writeOutside | readOutside =>
      exact portsSet_of_ready block (by simp) (fun _ => id) hports
  | allocated hstage | wrote hstage | started hstage | pollDone hstage
  | read hstage =>
      rw [hstage] at hports
      exact portsSet_of_ready block hnone (fun _ => id) hports
  | setInputs =>
      exact portsSet_of_ready block hnone (fun _ hready => ⟨hready.1, Or.inr rfl⟩)
        hports
  | setOutputs =>
      exact portsSet_of_ready block hnone (fun _ hready => ⟨rfl, hready.2⟩) hports
  | stopped | pollBusy => exact h
  | device | setState => exact portsSet_of_ready block hnone (fun _ => id) hports
  | _ => exact portsSet_of_ready block hnone (fun _ => id) True.intro

end Block

namespace System

/-- A block is given a chunk only when the ports that the chunk needs are set. -/
def PopsWhenReady (system : System) : Action → Prop
  | .block index (.pop (some chunk)) =>
      ∀ block ∈ system.blocks[index]?, block.Ready chunk
  | _ => True

instance (system : System) (action : Action) :
    Decidable (system.PopsWhenReady action) := by
  unfold PopsWhenReady
  split <;> infer_instance

/-- A step of one block leaves the others alone. -/
theorem blocks_of_blockStep {system after : System} {index : Nat} {block : Block}
    {action : Block.Action}
    (h : system.blockStep index block action = some after) :
    ∃ next, block.step action = some next ∧
      after.blocks = system.blocks.set index next := by
  unfold blockStep at h
  split at h
  · obtain ⟨_, hmap⟩ := Option.ite_none_right_eq_some.mp h
    obtain ⟨next, hstep, rfl⟩ := Option.map_eq_some_iff.mp hmap
    exact ⟨next, hstep, rfl⟩
  · split at h
    · obtain ⟨next, hstep, rfl⟩ := Option.map_eq_some_iff.mp h
      exact ⟨next, hstep, rfl⟩
    · cases h
  · obtain ⟨next, hstep, rfl⟩ := Option.map_eq_some_iff.mp h
    exact ⟨next, hstep, rfl⟩

theorem portsSet_of_step {system after : System} {action : Action}
    (h : ∀ block ∈ system.blocks, block.PortsSet)
    (hguard : system.PopsWhenReady action)
    (hstep : system.step action = some after) :
    ∀ block ∈ after.blocks, block.PortsSet := by
  cases action with
  | produce id size data =>
      cases hstep
      exact h
  | consume =>
      cases hstep
      exact h
  | block index action =>
      obtain ⟨block, hblock, hmove⟩ := Option.bind_eq_some_iff.mp hstep
      obtain ⟨next, hnext, hblocks⟩ := blocks_of_blockStep hmove
      obtain ⟨_, htransition⟩ := Block.transition_of_step hnext
      intro other hmem
      rw [hblocks] at hmem
      rcases List.mem_or_eq_of_mem_set hmem with hold | rfl
      · exact h other hold
      · apply (h block (List.mem_of_getElem? hblock)).transition _ htransition
        rintro chunk rfl
        exact hguard block hblock

/-- No block uses a port that is not set, in every run in which blocks are given
chunks only when their ports are set; producers may push at any time. -/
theorem noUnset_of_popsWhenReady (devices : List Device) {system : System}
    (h : Machine.Reaches step PopsWhenReady (initial devices) system) :
    ∀ block ∈ system.blocks, block.fault ≠ some .unsetPort := by
  have hports : ∀ block ∈ system.blocks, block.PortsSet := by
    apply h.invariant
    · intro block hmem
      obtain ⟨device, _, rfl⟩ := List.mem_map.mp hmem
      exact ⟨by simp [Block.construct], True.intro⟩
    · intro before action after hinv hguard hstep
      exact portsSet_of_step hinv hguard hstep
  intro block hmem
  exact (hports block hmem).noUnset

/-- A chunk is there before the block, and waits until both ports are set. -/
theorem noUnset_of_popsWhenReady_waits :
    ∃ system : System,
      Machine.run step PopsWhenReady (initial [⟨[0], [0], 0⟩])
        [.produce 7 1 [5], .block 0 .work, .block 0 (.setInputs ⟨1⟩),
          .block 0 .work, .block 0 (.setOutputs ⟨1⟩),
          .block 0 (.pop (some ⟨0, 7, 1, [5]⟩)),
          .block 0 (.allocate fun _ => 0), .block 0 .work] = some system ∧
      system.held = [(0, 7, 1)] ∧
      ∀ block ∈ system.blocks, block.fault ≠ some .unsetPort :=
  ⟨_, rfl, rfl,
    noUnset_of_popsWhenReady [⟨[0], [0], 0⟩]
      (Machine.reaches_of_run
        [.produce 7 1 [5], .block 0 .work, .block 0 (.setInputs ⟨1⟩),
          .block 0 .work, .block 0 (.setOutputs ⟨1⟩),
          .block 0 (.pop (some ⟨0, 7, 1, [5]⟩)),
          .block 0 (.allocate fun _ => 0), .block 0 .work] rfl)⟩

/-- The worker takes the chunk between the constructor and the two calls. -/
theorem unset_port_used :
    ∃ system : System,
      Machine.Reachable step (initial [⟨[0], [0], 0⟩]) system ∧
        ∃ block ∈ system.blocks, block.fault = some .unsetPort := by
  refine ⟨_, Machine.reaches_of_run
    [.produce 7 1 [5], .block 0 .work, .block 0 .work,
      .block 0 (.pop (some ⟨0, 7, 1, [5]⟩)),
      .block 0 (.allocate fun _ => 0)] rfl, ?_⟩
  exact ⟨_, List.mem_singleton.mpr rfl, rfl⟩

end System

end FpgaFramework
