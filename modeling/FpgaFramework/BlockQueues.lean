/-
Blocks on shared queues.  Any number of worker loops take chunks from one queue
and put results into another, among producers and consumers; every chunk stays in
one place, and a single block keeps the order.
-/
import FpgaFramework.Block
import Mathlib.Data.List.Infix
import Mathlib.Data.List.Nodup
import Mathlib.Data.List.Perm.Basic

namespace FpgaFramework

open scoped List

universe u

/-- `utils::SafeQ`: every call holds the mutex from its start to its end. -/
structure SafeQ (T : Type u) where
  queue : List T
deriving Repr, DecidableEq

namespace SafeQ

variable {T : Type u}

def pop (q : SafeQ T) : Option T × SafeQ T :=
  match q.queue with
  | [] => (none, q)
  | item :: rest => (some item, ⟨rest⟩)

def push (q : SafeQ T) (item : T) : SafeQ T := ⟨q.queue ++ [item]⟩

theorem pop_none {q : SafeQ T} (h : q.pop.1 = none) : q.pop.2 = q := by
  unfold pop at h ⊢
  split at h
  · rfl
  · cases h

theorem pop_some {q : SafeQ T} {item : T} (h : q.pop.1 = some item) :
    q.queue = item :: q.pop.2.queue := by
  unfold pop at h ⊢
  split at h
  · cases h
  · next hcons =>
      cases h
      simp only [hcons]

theorem pop_suffix (q : SafeQ T) : q.pop.2.queue <:+ q.queue := by
  unfold pop
  split
  · exact List.suffix_rfl
  · next hcons =>
      rw [hcons]
      exact List.suffix_cons _ _

end SafeQ

/-- What a chunk is known by, from its push to the input queue to the push of its
results. -/
abbrev ChunkKey := Nat × UInt32 × UInt32

def DataChunk.key (chunk : DataChunk) : ChunkKey :=
  (chunk.ticket, chunk.id, chunk.size)

/-- The chunk that the thread works on: the one that was taken, and from its
allocation on the one that will be pushed for it. -/
def Block.Stage.chunk : Block.Stage → Option DataChunk
  | .allocating coming => some coming
  | .looping _ going _ => some going
  | .starting _ going _ => some going
  | .polling _ going _ => some going
  | .reading _ going _ => some going
  | .pushing going => some going
  | _ => none

def Block.held (block : Block) : List ChunkKey :=
  (block.stage.chunk.map DataChunk.key).toList

/-- The two queues and the blocks on them.  History: every chunk that was pushed
to the input queue, and every chunk that a block pushed to the output queue. -/
structure System where
  inputQ : SafeQ DataChunk
  outputQ : SafeQ DataChunk
  blocks : List Block
  pushed : List DataChunk
  made : List DataChunk
deriving DecidableEq

namespace System

/-- `initEveryting`, one block for each device, with both queues empty. -/
def initial (devices : List Device) : System where
  inputQ := ⟨[]⟩
  outputQ := ⟨[]⟩
  blocks := devices.map Block.construct
  pushed := []
  made := []

/-- A producer pushes, a consumer pops, or something happens in a block. -/
inductive Action where
  | produce (id size : UInt32) (data : List UInt8)
  | consume
  | block (index : Nat) (action : Block.Action)

/-- The new chunk of a producer. -/
def chunk (system : System) (id size : UInt32) (data : List UInt8) : DataChunk :=
  ⟨system.pushed.length, id, size, data⟩

/-- A step of block `index` and what it does to the queues. -/
def blockStep (system : System) (index : Nat) (block : Block) :
    Block.Action → Option System
  | .pop result =>
      if result = system.inputQ.pop.1 then
        (block.step (.pop result)).map fun after =>
          { system with
            inputQ := system.inputQ.pop.2
            blocks := system.blocks.set index after }
      else none
  | .push =>
      match block.stage with
      | .pushing going =>
          (block.step .push).map fun after =>
            { system with
              outputQ := system.outputQ.push going
              blocks := system.blocks.set index after
              made := system.made ++ [going] }
      | _ => none
  | action =>
      (block.step action).map fun after =>
        { system with blocks := system.blocks.set index after }

def step (system : System) : Action → Option System
  | .produce id size data =>
      some { system with
        inputQ := system.inputQ.push (system.chunk id size data)
        pushed := system.pushed ++ [system.chunk id size data] }
  | .consume => some { system with outputQ := system.outputQ.pop.2 }
  | .block index action =>
      system.blocks[index]?.bind fun block =>
        system.blockStep index block action

/-- The keys of the chunks that blocks work on. -/
def held (system : System) : List ChunkKey := system.blocks.flatMap Block.held

def waiting (system : System) : List ChunkKey :=
  system.inputQ.queue.map DataChunk.key

def outputs (system : System) : List ChunkKey := system.made.map DataChunk.key

def inputs (system : System) : List ChunkKey := system.pushed.map DataChunk.key

/-- Every chunk pushed to the input queue is in exactly one place, and nothing
else is anywhere; what consumers have not taken is the end of what was made.  A
single block makes its outputs in the order of the inputs. -/
structure Conserved (system : System) : Prop where
  one_place : ∀ key ∈ system.inputs, system.waiting.count key +
    system.held.count key + system.outputs.count key = 1
  known : ∀ key, key ∈ system.waiting ∨ key ∈ system.held ∨
    key ∈ system.outputs → key ∈ system.inputs
  outputQ_suffix : system.outputQ.queue <:+ system.made
  in_order : system.blocks.length = 1 →
    system.outputs ++ system.held ++ system.waiting = system.inputs

/-- What one step does to the places of the chunks. -/
inductive Moves (system : System) : System → Prop
  | produced {chunk : DataChunk} (hticket : chunk.ticket = system.pushed.length) :
      Moves system
        { system with
          inputQ := system.inputQ.push chunk
          pushed := system.pushed ++ [chunk] }
  | consumed : Moves system { system with outputQ := system.outputQ.pop.2 }
  | taken {index : Nat} {block after : Block} {chunk : DataChunk}
      (hblock : system.blocks[index]? = some block) (hfree : block.held = [])
      (hqueue : system.inputQ.queue = chunk :: system.inputQ.pop.2.queue)
      (hheld : after.held = [chunk.key]) :
      Moves system
        { system with
          inputQ := system.inputQ.pop.2
          blocks := system.blocks.set index after }
  | made {index : Nat} {block after : Block} {going : DataChunk}
      (hblock : system.blocks[index]? = some block)
      (hheld : block.held = [going.key]) (hfree : after.held = []) :
      Moves system
        { system with
          outputQ := system.outputQ.push going
          blocks := system.blocks.set index after
          made := system.made ++ [going] }
  | kept {index : Nat} {block after : Block}
      (hblock : system.blocks[index]? = some block)
      (hheld : after.held = block.held) :
      Moves system { system with blocks := system.blocks.set index after }

variable {system after : System}

/-- Apart from `pop` and `push` a block keeps the chunk it works on. -/
theorem held_of_transition {block next : Block} {action : Block.Action}
    (h : Block.Transition block action next)
    (hpop : ∀ chunk, action ≠ .pop (some chunk)) (hpush : action ≠ .push) :
    next.held = block.held := by
  cases h with
  | popped => exact absurd rfl (hpop _)
  | pushed => exact absurd rfl hpush
  | checked hstage | marked hstage | popEmpty hstage | allocated hstage
  | wrote hstage | left hstage | started hstage | pollDone hstage | read hstage
  | finished hstage =>
      simp only [Block.held, hstage]
      rfl
  | _ => rfl

theorem moves_of_blockStep {index : Nat} {block : Block} {action : Block.Action}
    (hblock : system.blocks[index]? = some block)
    (h : system.blockStep index block action = some after) :
    Moves system after := by
  unfold blockStep at h
  split at h
  · next result =>
      obtain ⟨hresult, hmap⟩ := Option.ite_none_right_eq_some.mp h
      obtain ⟨next, hstep, rfl⟩ := Option.map_eq_some_iff.mp hmap
      obtain ⟨_, htransition⟩ := Block.transition_of_step hstep
      cases htransition with
      | popEmpty hstage =>
          rw [SafeQ.pop_none hresult.symm]
          refine Moves.kept hblock ?_
          simp only [Block.held, hstage]
          rfl
      | popped hstage =>
          refine Moves.taken hblock ?_ (SafeQ.pop_some hresult.symm) rfl
          simp only [Block.held, hstage]
          rfl
  · split at h
    · next going hstage =>
        obtain ⟨next, hstep, rfl⟩ := Option.map_eq_some_iff.mp h
        obtain ⟨_, htransition⟩ := Block.transition_of_step hstep
        cases htransition with
        | pushed _ =>
            refine Moves.made hblock ?_ rfl
            simp only [Block.held, hstage]
            rfl
    · cases h
  · next hpop hpush =>
      obtain ⟨next, hstep, rfl⟩ := Option.map_eq_some_iff.mp h
      obtain ⟨_, htransition⟩ := Block.transition_of_step hstep
      refine Moves.kept hblock (held_of_transition htransition ?_ ?_)
      · intro chunk heq
        exact hpop _ heq
      · exact hpush

theorem moves_of_step {action : Action} (h : system.step action = some after) :
    Moves system after := by
  cases action with
  | produce id size data =>
      cases h
      exact Moves.produced rfl
  | consume =>
      cases h
      exact Moves.consumed
  | block index action =>
      obtain ⟨block, hblock, hstep⟩ := Option.bind_eq_some_iff.mp h
      exact moves_of_blockStep hblock hstep

/-- One block of many: the others keep their chunks around it. -/
theorem held_split {index : Nat} {block : Block}
    (hblock : system.blocks[index]? = some block) :
    ∃ front back, system.held = front ++ block.held ++ back ∧
      ∀ next : Block, (system.blocks.set index next).flatMap Block.held =
        front ++ next.held ++ back := by
  obtain ⟨hlt, hget⟩ := List.getElem?_eq_some_iff.mp hblock
  refine ⟨(system.blocks.take index).flatMap Block.held,
    (system.blocks.drop (index + 1)).flatMap Block.held, ?_, fun next => ?_⟩
  · have hsplit : system.blocks = system.blocks.take index ++
        block :: system.blocks.drop (index + 1) := by
      rw [← hget, List.getElem_cons_drop, List.take_append_drop]
    rw [held]
    conv => lhs; rw [hsplit]
    rw [List.flatMap_append, List.flatMap_cons, List.append_assoc]
  · rw [List.set_eq_take_append_cons_drop, if_pos hlt, List.flatMap_append,
      List.flatMap_cons, List.append_assoc]

/-- What is kept by every step. -/
structure Inv (system : System) : Prop where
  places : ∀ key, system.waiting.count key + system.held.count key +
    system.outputs.count key = system.inputs.count key
  tickets : system.pushed.map DataChunk.ticket = List.range system.pushed.length
  outputQ_suffix : system.outputQ.queue <:+ system.made
  in_order : system.blocks.length = 1 →
    system.outputs ++ system.held ++ system.waiting = system.inputs

theorem Inv.initial (devices : List Device) : (initial devices).Inv := by
  have hheld : (System.initial devices).held = [] := by
    simp [held, System.initial, Block.construct, Block.held, Block.Stage.chunk]
  refine ⟨fun key => ?_, rfl, List.suffix_rfl, fun _ => ?_⟩
  · rw [hheld]
    rfl
  · rw [hheld]
    rfl

/-- A single block holds all that is held. -/
theorem held_single {index : Nat} {block : Block}
    (hblock : system.blocks[index]? = some block)
    (hone : system.blocks.length = 1) :
    system.held = block.held ∧ ∀ next : Block,
      (system.blocks.set index next).flatMap Block.held = next.held := by
  obtain ⟨hlt, hget⟩ := List.getElem?_eq_some_iff.mp hblock
  obtain ⟨only, honly⟩ := List.length_eq_one_iff.mp hone
  have hindex : index = 0 := by omega
  subst hindex
  simp only [honly, List.getElem_cons_zero] at hget
  subst hget
  refine ⟨?_, fun next => ?_⟩
  · rw [held, honly, List.flatMap_singleton]
  · rw [honly, List.set_cons_zero, List.flatMap_singleton]

theorem Inv.produced (hinv : system.Inv) {chunk : DataChunk}
    (hticket : chunk.ticket = system.pushed.length) :
    Inv { system with
      inputQ := system.inputQ.push chunk
      pushed := system.pushed ++ [chunk] } := by
  constructor
  · intro key
    have hkey := hinv.places key
    simp only [waiting, held, outputs, inputs, SafeQ.push, List.map_append,
      List.count_append] at hkey ⊢
    omega
  · rw [List.map_append, hinv.tickets, List.length_append, List.length_singleton,
      List.range_succ, List.map_singleton, hticket]
  · exact hinv.outputQ_suffix
  · intro hone
    have horder := hinv.in_order hone
    simp only [waiting, held, outputs, inputs, SafeQ.push, List.map_append]
      at horder ⊢
    rw [← horder]
    simp only [List.append_assoc]

theorem Inv.taken (hinv : system.Inv) {index : Nat} {block next : Block}
    {chunk : DataChunk} (hblock : system.blocks[index]? = some block)
    (hfree : block.held = [])
    (hqueue : system.inputQ.queue = chunk :: system.inputQ.pop.2.queue)
    (hheld : next.held = [chunk.key]) :
    Inv { system with
      inputQ := system.inputQ.pop.2
      blocks := system.blocks.set index next } := by
  have hwaiting : system.waiting =
      chunk.key :: system.inputQ.pop.2.queue.map DataChunk.key := by
    rw [waiting, hqueue, List.map_cons]
  constructor
  · intro key
    obtain ⟨front, back, hbefore, hafter⟩ := held_split hblock
    have hkey := hinv.places key
    rw [hwaiting, hbefore, hfree, ← List.singleton_append] at hkey
    change (system.inputQ.pop.2.queue.map DataChunk.key).count key +
      ((system.blocks.set index next).flatMap Block.held).count key +
        system.outputs.count key = system.inputs.count key
    rw [hafter, hheld]
    simp only [List.count_append, List.append_nil] at hkey ⊢
    omega
  · exact hinv.tickets
  · exact hinv.outputQ_suffix
  · intro hone
    rw [List.length_set] at hone
    obtain ⟨hbefore, hafter⟩ := held_single hblock hone
    have horder := hinv.in_order hone
    rw [hwaiting, hbefore, hfree, List.append_nil] at horder
    change system.outputs ++ (system.blocks.set index next).flatMap Block.held ++
      system.inputQ.pop.2.queue.map DataChunk.key = system.inputs
    rw [hafter, hheld, List.append_assoc, List.singleton_append]
    exact horder

theorem Inv.made (hinv : system.Inv) {index : Nat} {block next : Block}
    {going : DataChunk} (hblock : system.blocks[index]? = some block)
    (hheld : block.held = [going.key]) (hfree : next.held = []) :
    Inv { system with
      outputQ := system.outputQ.push going
      blocks := system.blocks.set index next
      made := system.made ++ [going] } := by
  constructor
  · intro key
    obtain ⟨front, back, hbefore, hafter⟩ := held_split hblock
    have hkey := hinv.places key
    rw [hbefore, hheld] at hkey
    change system.waiting.count key +
      ((system.blocks.set index next).flatMap Block.held).count key +
        ((system.made ++ [going]).map DataChunk.key).count key =
          system.inputs.count key
    rw [hafter, hfree]
    simp only [outputs, List.count_append, List.append_nil, List.map_append,
      List.map_singleton] at hkey ⊢
    omega
  · exact hinv.tickets
  · obtain ⟨taken, htaken⟩ := hinv.outputQ_suffix
    exact ⟨taken, by rw [SafeQ.push, ← htaken, List.append_assoc]⟩
  · intro hone
    rw [List.length_set] at hone
    obtain ⟨hbefore, hafter⟩ := held_single hblock hone
    have horder := hinv.in_order hone
    rw [hbefore, hheld] at horder
    change (system.made ++ [going]).map DataChunk.key ++
      (system.blocks.set index next).flatMap Block.held ++ system.waiting =
        system.inputs
    rw [hafter, hfree, List.append_nil, List.map_append, List.map_singleton]
    exact horder

theorem Inv.kept (hinv : system.Inv) {index : Nat} {block next : Block}
    (hblock : system.blocks[index]? = some block)
    (hheld : next.held = block.held) :
    Inv { system with blocks := system.blocks.set index next } := by
  have hsame : (system.blocks.set index next).flatMap Block.held =
      system.held := by
    obtain ⟨front, back, hbefore, hafter⟩ := held_split hblock
    rw [hafter, hheld, hbefore]
  constructor
  · intro key
    have hkey := hinv.places key
    rw [← hsame] at hkey
    exact hkey
  · exact hinv.tickets
  · exact hinv.outputQ_suffix
  · intro hone
    rw [List.length_set] at hone
    have horder := hinv.in_order hone
    rw [← hsame] at horder
    exact horder

theorem Inv.moves (hinv : system.Inv) (h : Moves system after) : after.Inv := by
  cases h with
  | produced hticket => exact hinv.produced hticket
  | consumed =>
      exact ⟨hinv.places, hinv.tickets,
        (SafeQ.pop_suffix system.outputQ).trans hinv.outputQ_suffix, hinv.in_order⟩
  | taken hblock hfree hqueue hheld => exact hinv.taken hblock hfree hqueue hheld
  | made hblock hheld hfree => exact hinv.made hblock hheld hfree
  | kept hblock hheld => exact hinv.kept hblock hheld

theorem Inv.conserved (hinv : system.Inv) : system.Conserved := by
  have hnodup : system.inputs.Nodup := by
    have htickets : (system.inputs.map Prod.fst).Nodup := by
      have heq : system.inputs.map Prod.fst = system.pushed.map DataChunk.ticket := by
        rw [inputs, List.map_map]
        rfl
      rw [heq, hinv.tickets]
      exact List.nodup_range
    exact htickets.of_map
  constructor
  · intro key hmem
    rw [hinv.places key]
    exact List.count_eq_one_of_mem hnodup hmem
  · intro key hplace
    have hkey := hinv.places key
    rw [← List.count_pos_iff, ← List.count_pos_iff, ← List.count_pos_iff] at hplace
    rw [← List.count_pos_iff]
    omega
  · exact hinv.outputQ_suffix
  · exact hinv.in_order

/-- Chunks are conserved.  With any number of blocks, producers and consumers,
after any interleaving of their steps, every chunk that was pushed waits in the
input queue, or is worked on by one block, or has become one output chunk with
its id and size; a single block keeps the order. -/
theorem chunks_conserved (devices : List Device) {system : System}
    (h : Machine.Reachable step (initial devices) system) : system.Conserved := by
  have hinv : system.Inv := by
    apply h.invariant
    · exact Inv.initial devices
    · intro before action after hinv _ hstep
      exact hinv.moves (moves_of_step hstep)
  exact hinv.conserved

/-- The second block overtakes the first, and a consumer takes its output. -/
def overtaken : List Action :=
  [.produce 5 0 [], .produce 6 0 [], .block 0 .work, .block 1 .work,
    .block 0 .work, .block 1 .work, .block 0 (.pop (some ⟨0, 5, 0, []⟩)),
    .block 1 (.pop (some ⟨1, 6, 0, []⟩)), .block 1 (.setOutputs ⟨1⟩),
    .block 1 (.allocate fun _ => 0), .block 1 .work, .block 1 .push, .consume]

theorem chunks_conserved_overtaken :
    ∃ system : System,
      Machine.run step (fun _ _ => True)
        (initial [⟨[], [], 0⟩, ⟨[], [], 0⟩]) overtaken = some system ∧
      system.held = [(0, 5, 0)] ∧ system.outputs = [(1, 6, 0)] ∧
        system.Conserved :=
  ⟨_, rfl, rfl, rfl,
    chunks_conserved [⟨[], [], 0⟩, ⟨[], [], 0⟩]
      (Machine.reaches_of_run overtaken rfl)⟩

end System

end FpgaFramework
