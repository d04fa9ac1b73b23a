/-
What a system of blocks computes.  Where every device computes one function, each
chunk that was pushed becomes the chunk of its items' values, whichever block took
it; and as long as a worker runs, all that was pushed can be worked off.
-/
import FpgaFramework.BlockWork
import FpgaFramework.BlockPorts

namespace FpgaFramework

open scoped List

/-- What all blocks of a system are made for: the sizes of their ports, and the
function from the bytes of the one to the bytes of the other. -/
structure Kernel where
  inputPort : Port
  outputPort : Port
  f : List UInt8 → List UInt8
  length_f : ∀ bytes, bytes.length = inputPort.size.toNat →
    (f bytes).length = outputPort.size.toNat

namespace Kernel

variable (kernel : Kernel)

/-- A chunk of whole items whose buffers are measured in 32 bits. -/
structure Fits (chunk : DataChunk) : Prop where
  input_lt : chunk.size.toNat * kernel.inputPort.size.toNat < 2 ^ 32
  output_lt : chunk.size.toNat * kernel.outputPort.size.toNat < 2 ^ 32
  length_data : chunk.data.length = chunk.size.toNat * kernel.inputPort.size.toNat

theorem fits_iff (chunk : DataChunk) : kernel.Fits chunk ↔
    chunk.size.toNat * kernel.inputPort.size.toNat < 2 ^ 32 ∧
      chunk.size.toNat * kernel.outputPort.size.toNat < 2 ^ 32 ∧
        chunk.data.length = chunk.size.toNat * kernel.inputPort.size.toNat := by
  constructor
  · intro h
    exact ⟨h.input_lt, h.output_lt, h.length_data⟩
  · rintro ⟨hinput, houtput, hlength⟩
    exact ⟨hinput, houtput, hlength⟩

instance (chunk : DataChunk) : Decidable (kernel.Fits chunk) :=
  decidable_of_iff _ (kernel.fits_iff chunk).symm

/-- The pass that a block makes with a chunk. -/
def pass (chunk : DataChunk) (h : kernel.Fits chunk) : Block.Pass where
  coming := chunk
  inputPort := kernel.inputPort
  outputPort := kernel.outputPort
  f := kernel.f
  input_lt := h.input_lt
  output_lt := h.output_lt
  length_data := h.length_data
  length_f := kernel.length_f

/-- The chunk of the values of the items. -/
def apply (chunk : DataChunk) : DataChunk :=
  { chunk with
    data := (List.range chunk.size.toNat).flatMap fun a =>
      kernel.f ((chunk.data.drop (a * kernel.inputPort.size.toNat)).take
        kernel.inputPort.size.toNat) }

theorem result_pass {chunk : DataChunk} (h : kernel.Fits chunk) :
    (kernel.pass chunk h).result = kernel.apply chunk := rfl

@[simp] theorem key_apply (chunk : DataChunk) :
    (kernel.apply chunk).key = chunk.key := rfl

/-- What is assumed of a step of one block: its device computes `f`, its ports are
set to these sizes, and are set before it is given a chunk. -/
def Serves (block : Block) : Block.Action → Prop
  | .pop (some _) =>
      block.inputPort = some kernel.inputPort ∧
        block.outputPort = some kernel.outputPort
  | .start device =>
      device.input = block.device.input ∧ device.isDone = false ∧
        device.output.length = block.device.output.length
  | .device device =>
      device.input = block.device.input ∧
        device.output.length = block.device.output.length ∧
        (block.device.isDone = true →
          device.isDone = true ∧ device.output = block.device.output) ∧
        (block.device.isDone = false → device.isDone = true →
          device.output = kernel.f device.input)
  | .setInputs port => port = kernel.inputPort
  | .setOutputs port => port = kernel.outputPort
  | _ => True

instance (block : Block) (action : Block.Action) :
    Decidable (kernel.Serves block action) :=
  match action with
  | .pop (some _) => inferInstanceAs (Decidable (_ ∧ _))
  | .start _ => inferInstanceAs (Decidable (_ ∧ _ ∧ _))
  | .device _ => inferInstanceAs (Decidable (_ ∧ _ ∧ (_ → _) ∧ (_ → _ → _)))
  | .setInputs port => inferInstanceAs (Decidable (port = kernel.inputPort))
  | .setOutputs port => inferInstanceAs (Decidable (port = kernel.outputPort))
  | .work | .pop none | .allocate _ | .push | .setState _ => .isTrue trivial

/-- A block between two passes, or in the pass of one of `chunks`. -/
structure Working (chunks : List DataChunk) (block : Block) : Prop where
  noFault : block.fault = none
  inputPort_eq : ∀ port ∈ block.inputPort, port = kernel.inputPort
  outputPort_eq : ∀ port ∈ block.outputPort, port = kernel.outputPort
  length_input : block.device.input.length = kernel.inputPort.size.toNat
  length_output : block.device.output.length = kernel.outputPort.size.toNat
  inPass : block.stage.chunk ≠ none → ∃ chunk ∈ chunks,
    ∃ (hfits : kernel.Fits chunk) (notes : List Block.Event),
      (kernel.pass chunk hfits).Inv block notes

variable {kernel} {chunks : List DataChunk} {block after : Block}

theorem Working.mono (h : kernel.Working chunks block) {more : List DataChunk}
    (hmore : ∀ chunk ∈ chunks, chunk ∈ more) : kernel.Working more block := by
  refine ⟨h.noFault, h.inputPort_eq, h.outputPort_eq, h.length_input,
    h.length_output, fun hstage => ?_⟩
  obtain ⟨chunk, hmem, hpass⟩ := h.inPass hstage
  exact ⟨chunk, hmore chunk hmem, hpass⟩

theorem working_construct {device : Device}
    (hinput : device.input.length = kernel.inputPort.size.toNat)
    (houtput : device.output.length = kernel.outputPort.size.toNat) :
    kernel.Working chunks (Block.construct device) := by
  refine ⟨rfl, ?_, ?_, hinput, houtput, fun hstage => absurd rfl hstage⟩
  · intro port hport
    cases hport
  · intro port hport
    cases hport

/-- In a pass the block follows it, and stays in it until it is over. -/
theorem Working.of_pass {chunk : DataChunk} (hmem : chunk ∈ chunks)
    {hfits : kernel.Fits chunk} {notes : List Block.Event}
    (h : (kernel.pass chunk hfits).Inv block notes) :
    kernel.Working chunks block := by
  refine ⟨h.noFault, ?_, ?_, h.length_input, h.length_output,
    fun _ => ⟨chunk, hmem, hfits, notes, h⟩⟩
  · intro port hport
    exact h.eq_inputPort hport
  · intro port hport
    exact h.eq_outputPort hport

/-- A step inside a pass. -/
theorem Working.transition_inPass (hworking : kernel.Working chunks block)
    (hstage : block.stage.chunk ≠ none) {action : Block.Action}
    (hserves : kernel.Serves block action)
    (h : Block.Transition block action after) : kernel.Working chunks after := by
  obtain ⟨chunk, hmem, hfits, notes, hinv⟩ := hworking.inPass hstage
  have hfollow : (kernel.pass chunk hfits).Serves block action →
      kernel.Working chunks after := fun hpass =>
    .of_pass hmem (hinv.transition hpass h)
  cases action with
  | setInputs port =>
      cases h with
      | setInputs =>
          obtain rfl : port = kernel.inputPort := hserves
          have hport : block.inputPort = some kernel.inputPort := hinv.inputPort_eq
          rw [← hport]
          exact hworking
  | setOutputs port =>
      cases h with
      | setOutputs =>
          obtain rfl : port = kernel.outputPort := hserves
          have hport : block.outputPort = some kernel.outputPort :=
            hinv.outputPort_eq
          rw [← hport]
          exact hworking
  | work =>
      apply hfollow
      intro hfinishing
      rw [hfinishing] at hstage
      exact hstage rfl
  | start device => exact hfollow hserves
  | device device => exact hfollow hserves
  | _ => exact hfollow True.intro

/-- A step between two passes; with a chunk a new pass begins. -/
theorem Working.transition_between (hworking : kernel.Working chunks block)
    (hstage : block.stage.chunk = none) {action : Block.Action}
    (hserves : kernel.Serves block action)
    (hpop : ∀ chunk, action = .pop (some chunk) →
      chunk ∈ chunks ∧ kernel.Fits chunk)
    (h : Block.Transition block action after) : kernel.Working chunks after := by
  obtain ⟨hfault, hinput, houtput, hinputs, houtputs, _⟩ := hworking
  have hidle : ∀ {stage : Block.Stage}, stage.chunk = none →
      kernel.Working chunks { block with stage := stage } := by
    intro stage hnone
    exact ⟨hfault, hinput, houtput, hinputs, houtputs, fun hsome => absurd hnone hsome⟩
  cases h with
  | stopped => exact ⟨hfault, hinput, houtput, hinputs, houtputs,
      fun hsome => absurd hstage hsome⟩
  | checked | popEmpty => exact hidle rfl
  | marked | finished => exact ⟨hfault, hinput, houtput, hinputs, houtputs,
      fun hsome => absurd rfl hsome⟩
  | @popped chunk _ =>
      obtain ⟨hmem, hfits⟩ := hpop chunk rfl
      obtain ⟨hin, hout⟩ := hserves
      have hbegins : (kernel.pass chunk hfits).Begins
          { block with stage := .allocating chunk } :=
        ⟨rfl, hfault, hin, hout, hinputs, houtputs⟩
      exact .of_pass hmem hbegins.inv
  | device =>
      obtain ⟨hsame, hlength, _⟩ := hserves
      exact ⟨hfault, hinput, houtput, by rw [hsame]; exact hinputs,
        hlength.trans houtputs, fun hsome => absurd hstage hsome⟩
  | @setInputs port =>
      refine ⟨hfault, ?_, houtput, hinputs, houtputs, fun hsome => absurd hstage hsome⟩
      intro other hother
      rw [← Option.some.inj hother]
      exact hserves
  | @setOutputs port =>
      refine ⟨hfault, hinput, ?_, hinputs, houtputs, fun hsome => absurd hstage hsome⟩
      intro other hother
      rw [← Option.some.inj hother]
      exact hserves
  | setState => exact ⟨hfault, hinput, houtput, hinputs, houtputs,
      fun hsome => absurd hstage hsome⟩
  | allocateUnset hat | allocated hat | writeUnset hat | writeOutside hat
  | wrote hat | left hat | started hat | pollBusy hat | pollDone hat
  | readUnset hat | readOutside hat | read hat | pushed hat =>
      rw [hat] at hstage
      cases hstage

theorem Working.transition (hworking : kernel.Working chunks block)
    {action : Block.Action} (hserves : kernel.Serves block action)
    (hpop : ∀ chunk, action = .pop (some chunk) →
      chunk ∈ chunks ∧ kernel.Fits chunk)
    (h : Block.Transition block action after) : kernel.Working chunks after := by
  by_cases hstage : block.stage.chunk = none
  · exact hworking.transition_between hstage hserves hpop h
  · exact hworking.transition_inPass hstage hserves h

/-- What a block pushes is the value of a chunk. -/
theorem Working.going_eq (hworking : kernel.Working chunks block)
    {going : DataChunk} (hstage : block.stage = .pushing going) :
    ∃ coming ∈ chunks, going = kernel.apply coming := by
  have hchunk : block.stage.chunk ≠ none := by simp [hstage, Block.Stage.chunk]
  obtain ⟨chunk, hmem, hfits, notes, hinv⟩ := hworking.inPass hchunk
  have hat := hinv.atStage
  rw [hstage] at hat
  exact ⟨chunk, hmem, hat.1⟩

end Kernel

namespace System

variable (kernel : Kernel)

/-- What is assumed of a step of the system: producers push chunks of whole items,
and every block serves. -/
def Serves (system : System) : Action → Prop
  | .produce id size data => kernel.Fits ⟨system.pushed.length, id, size, data⟩
  | .consume => True
  | .block index action =>
      ∀ block ∈ system.blocks[index]?, kernel.Serves block action

instance (system : System) (action : Action) :
    Decidable (system.Serves kernel action) := by
  unfold Serves
  split <;> infer_instance

/-- What a step of block `index` to `next` does to the queues. -/
inductive BlockMove (system : System) (index : Nat) (block next : Block) :
    Block.Action → System → Prop
  | pop {result : Option DataChunk} (hresult : result = system.inputQ.pop.1) :
      BlockMove system index block next (.pop result)
        { system with
          inputQ := system.inputQ.pop.2
          blocks := system.blocks.set index next }
  | push {going : DataChunk} (hstage : block.stage = .pushing going) :
      BlockMove system index block next .push
        { system with
          outputQ := system.outputQ.push going
          blocks := system.blocks.set index next
          made := system.made ++ [going] }
  | own {action : Block.Action} (hpop : ∀ result, action ≠ .pop result)
      (hpush : action ≠ .push) :
      BlockMove system index block next action
        { system with blocks := system.blocks.set index next }

variable {kernel} {system after : System} {index : Nat} {block : Block}

theorem blockMove_of_blockStep {action : Block.Action}
    (h : system.blockStep index block action = some after) :
    ∃ next, block.step action = some next ∧
      system.BlockMove index block next action after := by
  unfold blockStep at h
  split at h
  · obtain ⟨hresult, hmap⟩ := Option.ite_none_right_eq_some.mp h
    obtain ⟨next, hstep, rfl⟩ := Option.map_eq_some_iff.mp hmap
    exact ⟨next, hstep, .pop hresult⟩
  · split at h
    · next going hstage =>
        obtain ⟨next, hstep, rfl⟩ := Option.map_eq_some_iff.mp h
        exact ⟨next, hstep, .push hstage⟩
    · cases h
  · next hpop hpush =>
      obtain ⟨next, hstep, rfl⟩ := Option.map_eq_some_iff.mp h
      exact ⟨next, hstep, .own hpop hpush⟩

theorem blockStep_of_blockMove {action : Block.Action} {next : Block}
    (hstep : block.step action = some next)
    (h : system.BlockMove index block next action after) :
    system.blockStep index block action = some after := by
  cases h with
  | pop hresult => simp only [blockStep, if_pos hresult, hstep, Option.map_some]
  | push hstage => simp only [blockStep, hstage, hstep, Option.map_some]
  | own hpop hpush =>
      cases action with
      | pop result => exact absurd rfl (hpop result)
      | push => exact absurd rfl hpush
      | _ => simp only [blockStep, hstep, Option.map_some]

variable (kernel) in
/-- All that was pushed is made of whole items; every block serves; and what was
made are values of chunks that were pushed. -/
structure Serving (system : System) : Prop where
  fits : ∀ chunk ∈ system.pushed, kernel.Fits chunk
  queued : ∀ chunk ∈ system.inputQ.queue, chunk ∈ system.pushed
  working : ∀ block ∈ system.blocks, kernel.Working system.pushed block
  made : ∀ going ∈ system.made, ∃ coming ∈ system.pushed, going = kernel.apply coming

theorem serving_initial {devices : List Device}
    (hsizes : ∀ device ∈ devices,
      device.input.length = kernel.inputPort.size.toNat ∧
        device.output.length = kernel.outputPort.size.toNat) :
    (initial devices).Serving kernel := by
  refine ⟨?_, ?_, ?_, ?_⟩
  · intro chunk hmem
    cases hmem
  · intro chunk hmem
    cases hmem
  · intro block hmem
    obtain ⟨device, hdevice, rfl⟩ := List.mem_map.mp hmem
    exact Kernel.working_construct (hsizes device hdevice).1 (hsizes device hdevice).2
  · intro going hmem
    cases hmem

/-- A step of one block leaves the others alone. -/
theorem Serving.set (h : system.Serving kernel) {next : Block}
    (hnext : kernel.Working system.pushed next) :
    ∀ other ∈ system.blocks.set index next, kernel.Working system.pushed other := by
  intro other hmem
  rcases List.mem_or_eq_of_mem_set hmem with hold | rfl
  · exact h.working other hold
  · exact hnext

theorem Serving.blockMove (h : system.Serving kernel)
    (hblock : system.blocks[index]? = some block) {action : Block.Action}
    (hserves : kernel.Serves block action) {next : Block}
    (hstep : block.step action = some next)
    (hmove : system.BlockMove index block next action after) :
    after.Serving kernel := by
  have hworking := h.working block (List.mem_of_getElem? hblock)
  obtain ⟨_, htransition⟩ := Block.transition_of_step hstep
  cases hmove with
  | @pop result hresult =>
      have hpop : ∀ chunk, Block.Action.pop result = .pop (some chunk) →
          chunk ∈ system.pushed ∧ kernel.Fits chunk := by
        intro chunk heq
        obtain rfl : result = some chunk := Block.Action.pop.inj heq
        have hmem : chunk ∈ system.pushed :=
          h.queued chunk (by rw [SafeQ.pop_some hresult.symm]; exact List.mem_cons_self)
        exact ⟨hmem, h.fits chunk hmem⟩
      refine ⟨h.fits, ?_, h.set (hworking.transition hserves hpop htransition), h.made⟩
      intro chunk hmem
      exact h.queued chunk ((SafeQ.pop_suffix system.inputQ).subset hmem)
  | push hstage =>
      refine ⟨h.fits, h.queued, h.set (hworking.transition hserves ?_ htransition), ?_⟩
      · intro chunk heq
        cases heq
      · intro going hmem
        rcases List.mem_append.mp hmem with hold | hnew
        · exact h.made going hold
        · rw [List.mem_singleton.mp hnew]
          exact hworking.going_eq hstage
  | own hpop hpush =>
      refine ⟨h.fits, h.queued, h.set (hworking.transition hserves ?_ htransition),
        h.made⟩
      intro chunk heq
      exact absurd heq (hpop _)

theorem Serving.step (h : system.Serving kernel) {action : Action}
    (hserves : system.Serves kernel action) (hstep : system.step action = some after) :
    after.Serving kernel := by
  cases action with
  | produce id size data =>
      cases hstep
      have hmore : ∀ chunk ∈ system.pushed,
          chunk ∈ system.pushed ++ [system.chunk id size data] := fun chunk hmem =>
        List.mem_append_left _ hmem
      refine ⟨?_, ?_, fun block hmem => (h.working block hmem).mono hmore, ?_⟩
      · intro chunk hmem
        rcases List.mem_append.mp hmem with hold | hnew
        · exact h.fits chunk hold
        · rw [List.mem_singleton.mp hnew]
          exact hserves
      · intro chunk hmem
        rcases List.mem_append.mp hmem with hold | hnew
        · exact hmore chunk (h.queued chunk hold)
        · exact List.mem_append_right _ hnew
      · intro going hmem
        obtain ⟨coming, hcoming, heq⟩ := h.made going hmem
        exact ⟨coming, hmore coming hcoming, heq⟩
  | consume =>
      cases hstep
      exact ⟨h.fits, h.queued, h.working, h.made⟩
  | block index action =>
      obtain ⟨block, hblock, hmove⟩ := Option.bind_eq_some_iff.mp hstep
      obtain ⟨next, hnext, hmove⟩ := blockMove_of_blockStep hmove
      exact h.blockMove hblock (hserves block hblock) hnext hmove

/-- Two chunks that were pushed differ in their keys. -/
theorem Inv.eq_of_key (hinv : system.Inv) {chunk chunk' : DataChunk}
    (hmem : chunk ∈ system.pushed) (hmem' : chunk' ∈ system.pushed)
    (hkey : chunk.key = chunk'.key) : chunk = chunk' := by
  have hnodup : (system.pushed.map DataChunk.ticket).Nodup := by
    rw [hinv.tickets]
    exact List.nodup_range
  exact List.inj_on_of_nodup_map hnodup hmem hmem' (congrArg Prod.fst hkey)

variable (kernel) in
/-- The value of the pushed chunk with this key. -/
def value (system : System) (key : ChunkKey) : Option DataChunk :=
  (system.pushed.find? fun chunk => chunk.key = key).map kernel.apply

theorem Inv.value_key (hinv : system.Inv) {chunk : DataChunk}
    (hmem : chunk ∈ system.pushed) :
    system.value kernel chunk.key = some (kernel.apply chunk) := by
  cases hfind : system.pushed.find? fun other => other.key = chunk.key with
  | none =>
      have hnot := List.find?_eq_none.mp hfind chunk hmem
      exact absurd (decide_eq_true rfl) hnot
  | some other =>
      have hkey : other.key = chunk.key := by simpa using List.find?_some hfind
      rw [hinv.eq_of_key (List.mem_of_find?_eq_some hfind) hmem hkey] at hfind
      rw [value, hfind, Option.map_some]

theorem Inv.filterMap_inputs (hinv : system.Inv) :
    system.inputs.filterMap (system.value kernel) = system.pushed.map kernel.apply := by
  rw [inputs, List.filterMap_map, ← List.filterMap_eq_map]
  apply List.filterMap_congr
  intro chunk hmem
  exact hinv.value_key hmem

theorem Inv.filterMap_outputs (hinv : system.Inv) (h : system.Serving kernel) :
    system.outputs.filterMap (system.value kernel) = system.made := by
  rw [outputs, List.filterMap_map]
  have hsome : ∀ going ∈ system.made,
      (system.value kernel ∘ DataChunk.key) going = some going := by
    intro going hmem
    obtain ⟨coming, hcoming, rfl⟩ := h.made going hmem
    exact hinv.value_key hcoming
  rw [List.filterMap_congr hsome, List.filterMap_some]

/-- The keys that are somewhere are those that were pushed. -/
theorem Inv.places_perm (hinv : system.Inv) :
    system.outputs ++ (system.held ++ system.waiting) ~ system.inputs := by
  rw [List.perm_iff_count]
  intro key
  have hplaces := hinv.places key
  simp only [List.count_append]
  omega

theorem Inv.key_value (hinv : system.Inv) {keys : List ChunkKey}
    (hkeys : ∀ key ∈ keys, key ∈ system.inputs) :
    (keys.filterMap (system.value kernel)).map DataChunk.key = keys := by
  induction keys with
  | nil => rfl
  | cons key keys ih =>
      obtain ⟨chunk, hmem, rfl⟩ := List.mem_map.mp (hkeys key List.mem_cons_self)
      have hrest := ih fun other hother => hkeys other (List.mem_cons_of_mem _ hother)
      rw [List.filterMap_cons, hinv.value_key hmem, List.map_cons, hrest,
        Kernel.key_apply]

theorem inv_of_reaches {devices : List Device} {guard : System → Action → Prop}
    (h : Machine.Reaches step guard (initial devices) system) : system.Inv := by
  apply h.invariant
  · exact Inv.initial devices
  · intro before action after hinv _ hstep
    exact hinv.moves (moves_of_step hstep)

theorem serving_of_reaches {devices : List Device}
    (hsizes : ∀ device ∈ devices,
      device.input.length = kernel.inputPort.size.toNat ∧
        device.output.length = kernel.outputPort.size.toNat)
    (h : Machine.Reaches step (Serves kernel) (initial devices) system) :
    system.Serving kernel := by
  apply h.invariant
  · exact serving_initial hsizes
  · intro before action after hserving hserves hstep
    exact hserving.step hserves hstep

/-- What was made, with the values of the chunks that wait or are worked on. -/
theorem Inv.owed (hinv : system.Inv) (h : system.Serving kernel) :
    ∃ owed : List DataChunk, system.made ++ owed ~ system.pushed.map kernel.apply ∧
      owed.map DataChunk.key = system.held ++ system.waiting := by
  refine ⟨(system.held ++ system.waiting).filterMap (system.value kernel), ?_, ?_⟩
  · have hperm := hinv.places_perm.filterMap (system.value kernel)
    rw [List.filterMap_append, hinv.filterMap_outputs h, hinv.filterMap_inputs] at hperm
    exact hperm
  · apply hinv.key_value
    intro key hmem
    exact hinv.places_perm.subset (List.mem_append_right _ hmem)

/-- The system computes its kernel.  With any number of blocks whose devices
compute `f`, and after any interleaving, no block has faulted, and what was made,
with the values of the chunks that wait or are worked on, are the values of all
chunks that were pushed, each once; a single block makes them in their order. -/
theorem results_of_serves (kernel : Kernel) (devices : List Device)
    (hsizes : ∀ device ∈ devices,
      device.input.length = kernel.inputPort.size.toNat ∧
        device.output.length = kernel.outputPort.size.toNat) {system : System}
    (h : Machine.Reaches step (Serves kernel) (initial devices) system) :
    (∀ block ∈ system.blocks, block.fault = none) ∧
      (∃ owed : List DataChunk,
        system.made ++ owed ~ system.pushed.map kernel.apply ∧
          owed.map DataChunk.key = system.held ++ system.waiting) ∧
      (system.blocks.length = 1 → system.made <+: system.pushed.map kernel.apply) := by
  have hinv := inv_of_reaches h
  have hserving := serving_of_reaches hsizes h
  refine ⟨fun block hmem => (hserving.working block hmem).noFault,
    hinv.owed hserving, ?_⟩
  intro hone
  have horder := congrArg (List.filterMap (system.value kernel)) (hinv.in_order hone)
  rw [List.append_assoc, List.filterMap_append, hinv.filterMap_outputs hserving,
    hinv.filterMap_inputs] at horder
  exact ⟨_, horder⟩

theorem length_increment (bytes : List UInt8)
    (h : bytes.length = (1 : UInt32).toNat) :
    (bytes.map (· + 1)).length = (1 : UInt32).toNat := by
  rw [List.length_map, h]

/-- Items of one byte, and devices that add one. -/
def addOne : Kernel where
  inputPort := ⟨1⟩
  outputPort := ⟨1⟩
  f := List.map (· + 1)
  length_f := length_increment

/-- Two blocks get their ports; the second one takes the first chunk and pushes its
results, the first one has taken the second chunk. -/
def shared : List Action :=
  [.block 0 (.setInputs ⟨1⟩), .block 0 (.setOutputs ⟨1⟩),
    .block 1 (.setInputs ⟨1⟩), .block 1 (.setOutputs ⟨1⟩),
    .produce 7 1 [10], .produce 8 1 [20], .block 0 .work, .block 0 .work,
    .block 1 .work, .block 1 .work, .block 1 (.pop (some ⟨0, 7, 1, [10]⟩)),
    .block 0 (.pop (some ⟨1, 8, 1, [20]⟩)), .block 1 (.allocate fun _ => 0),
    .block 1 .work, .block 1 (.start ⟨[10], [0], 0⟩),
    .block 1 (.device ⟨[10], [11], 2⟩), .block 1 .work, .block 1 .work,
    .block 1 .work, .block 1 .push]

theorem results_of_serves_shared :
    ∃ system : System,
      Machine.run step (Serves addOne) (initial [⟨[0], [0], 0⟩, ⟨[0], [0], 0⟩])
        shared = some system ∧
      system.made = [⟨0, 7, 1, [11]⟩] ∧ system.held = [(1, 8, 1)] ∧
      (∀ block ∈ system.blocks, block.fault = none) ∧
      (∃ owed : List DataChunk,
        system.made ++ owed ~ system.pushed.map addOne.apply ∧
          owed.map DataChunk.key = system.held ++ system.waiting) ∧
      (system.blocks.length = 1 → system.made <+: system.pushed.map addOne.apply) :=
  ⟨_, rfl, rfl, rfl,
    results_of_serves addOne [⟨[0], [0], 0⟩, ⟨[0], [0], 0⟩] (by decide)
      (Machine.reaches_of_run shared rfl)⟩

/-- What the workers and their devices do by themselves. -/
def Own (kernel : Kernel) (system : System) : Action → Prop
  | .block _ (.setInputs _) => False
  | .block _ (.setOutputs _) => False
  | .block _ (.setState _) => False
  | .block index action =>
      ∀ block ∈ system.blocks[index]?, kernel.Serves block action
  | _ => False

theorem serves_of_own {action : Action} (h : system.Own kernel action) :
    system.Serves kernel action := by
  cases action with
  | produce | consume => exact absurd h id
  | block index action =>
      cases action with
      | setInputs | setOutputs | setState => exact absurd h id
      | _ => exact h

end System

namespace Kernel

/-- A worker with its ports that will not wait for its controller. -/
structure Runs (kernel : Kernel) (block : Block) : Prop where
  inputPort_eq : block.inputPort = some kernel.inputPort
  outputPort_eq : block.outputPort = some kernel.outputPort
  notStopped : block.stage = .checking → block.state ≠ .stopped

/-- How far a worker is from its next chunk. -/
def rank (block : Block) : Nat :=
  match block.stage with
  | .checking => 3
  | .marking => 2
  | .popping => 1
  | .finishing => 4
  | _ => Block.Pass.remaining block + 5

/-- The rank of a worker that has just taken the chunk. -/
def weight (chunk : DataChunk) : Nat := 5 * chunk.size.toNat + 9

theorem rank_le (block : Block) : rank block ≤ Block.Pass.remaining block + 5 := by
  unfold rank
  split <;> omega

theorem rank_of_chunk {block : Block} (h : block.stage.chunk ≠ none) :
    rank block = Block.Pass.remaining block + 5 := by
  unfold rank
  split
  · next hstage => exact absurd (by rw [hstage]; rfl) h
  · next hstage => exact absurd (by rw [hstage]; rfl) h
  · next hstage => exact absurd (by rw [hstage]; rfl) h
  · next hstage => exact absurd (by rw [hstage]; rfl) h
  · rfl

variable {kernel : Kernel} {chunks : List DataChunk} {block after : Block}

/-- Inside a pass the worker or its device can go on. -/
theorem Working.progress_inPass (hworking : kernel.Working chunks block)
    (hstage : block.stage.chunk ≠ none) :
    ∃ action after, kernel.Serves block action ∧ block.step action = some after ∧
      (∀ result, action ≠ .pop result) ∧ (∀ port, action ≠ .setInputs port) ∧
        (∀ port, action ≠ .setOutputs port) ∧ (∀ state, action ≠ .setState state) ∧
          rank after < rank block := by
  obtain ⟨chunk, hmem, hfits, notes, hinv⟩ := hworking.inPass hstage
  have hgoing : block.stage ≠ .finishing := by
    intro hfinishing
    rw [hfinishing] at hstage
    exact hstage rfl
  obtain ⟨action, after, hserves, hstep, hless⟩ := hinv.progress hgoing
  have hrank : rank after < rank block := by
    rw [rank_of_chunk hstage]
    exact Nat.lt_of_le_of_lt (rank_le after) (Nat.add_lt_add_right hless 5)
  obtain ⟨_, htransition⟩ := Block.transition_of_step hstep
  refine ⟨action, after, ?_, hstep, ?_, ?_, ?_, ?_, hrank⟩
  · cases action with
    | pop result =>
        cases htransition with
        | popEmpty hat | popped hat =>
            rw [hat] at hstage
            exact absurd rfl hstage
    | setInputs | setOutputs => exact absurd hserves id
    | start device => exact hserves
    | device device => exact hserves
    | _ => exact True.intro
  · rintro result rfl
    cases htransition with
    | popEmpty hat | popped hat =>
        rw [hat] at hstage
        exact absurd rfl hstage
  · rintro port rfl
    exact hserves
  · rintro port rfl
    exact hserves
  · rintro state rfl
    cases htransition
    exact absurd hless (Nat.lt_irrefl _)

/-- Between two passes a worker comes to the queue. -/
theorem Runs.progress_between (hruns : kernel.Runs block)
    (hfault : block.fault = none) (hstage : block.stage.chunk = none) :
    block.stage = .popping ∨
      ∃ after, block.step .work = some after ∧ rank after < rank block := by
  cases hat : block.stage with
  | popping => exact Or.inl rfl
  | checking =>
      refine Or.inr ⟨{ block with stage := .marking }, ?_, ?_⟩
      · simp only [Block.step, hfault, Block.act, Block.work, hat,
          if_neg (hruns.notStopped hat), ↓reduceIte]
      · simp [rank, hat]
  | marking =>
      refine Or.inr ⟨{ block with state := .busy, stage := .popping }, ?_, ?_⟩
      · simp only [Block.step, hfault, Block.act, Block.work, hat, ↓reduceIte]
      · simp [rank, hat]
  | finishing =>
      refine Or.inr ⟨{ block with state := .done, stage := .checking }, ?_, ?_⟩
      · simp only [Block.step, hfault, Block.act, Block.work, hat, ↓reduceIte]
      · simp [rank, hat]
  | _ =>
      rw [hat] at hstage
      cases hstage

/-- A running worker runs on, as long as nothing is set. -/
theorem Runs.transition (hruns : kernel.Runs block) {action : Block.Action}
    (hinputs : ∀ port, action ≠ .setInputs port)
    (houtputs : ∀ port, action ≠ .setOutputs port)
    (hstate : ∀ state, action ≠ .setState state)
    (h : Block.Transition block action after) : kernel.Runs after := by
  obtain ⟨hinput, houtput, hnot⟩ := hruns
  cases h with
  | stopped => exact ⟨hinput, houtput, hnot⟩
  | finished => exact ⟨hinput, houtput, fun _ => by simp⟩
  | setInputs => exact absurd rfl (hinputs _)
  | setOutputs => exact absurd rfl (houtputs _)
  | setState => exact absurd rfl (hstate _)
  | device | pollBusy | allocateUnset | writeUnset | writeOutside | readUnset
  | readOutside => exact ⟨hinput, houtput, hnot⟩
  | _ =>
      refine ⟨hinput, houtput, fun hchecking => ?_⟩
      cases hchecking

end Kernel

/-- The sum of a list. -/
def total : List Nat → Nat
  | [] => 0
  | n :: rest => n + total rest

theorem total_set {α : Type} (f : α → Nat) {items : List α} {index : Nat} {item : α}
    (h : items[index]? = some item) (next : α) :
    total ((items.set index next).map f) + f item = total (items.map f) + f next := by
  induction items generalizing index with
  | nil => cases h
  | cons first rest ih =>
      cases index with
      | zero =>
          cases h
          simp only [List.set_cons_zero, List.map_cons, total]
          omega
      | succ index =>
          have hrest := @ih index h
          simp only [List.set_cons_succ, List.map_cons, total]
          omega

namespace System

/-- How much the workers have left to do. -/
def left (system : System) : Nat :=
  total (system.blocks.map Kernel.rank) +
    total (system.inputQ.queue.map Kernel.weight)

variable {kernel : Kernel} {system after : System}

/-- What the workers keep while nobody else acts on the system. -/
structure Draining (kernel : Kernel) (pushed : List DataChunk) (system : System) :
    Prop where
  serving : system.Serving kernel
  runs : ∃ (index : Nat) (block : Block),
    system.blocks[index]? = some block ∧ kernel.Runs block
  pushed_eq : system.pushed = pushed

theorem Draining.step {pushed : List DataChunk} (h : Draining kernel pushed system)
    {action : Action} (hown : system.Own kernel action)
    (hstep : system.step action = some after) : Draining kernel pushed after := by
  obtain ⟨hserving, ⟨runner, running, hrunning, hruns⟩, hpushed⟩ := h
  refine ⟨hserving.step (serves_of_own hown) hstep, ?_, ?_⟩
  · cases action with
    | produce | consume => exact absurd hown id
    | block index action =>
        obtain ⟨block, hblock, hmove⟩ := Option.bind_eq_some_iff.mp hstep
        obtain ⟨next, hnext, hblocks⟩ := blocks_of_blockStep hmove
        obtain ⟨_, htransition⟩ := Block.transition_of_step hnext
        rw [hblocks]
        by_cases hsame : runner = index
        · subst hsame
          rw [hblock] at hrunning
          cases hrunning
          refine ⟨runner, next, ?_, hruns.transition ?_ ?_ ?_ htransition⟩
          · exact List.getElem?_set_self (List.getElem?_eq_some_iff.mp hblock).1
          · rintro port rfl
            exact hown
          · rintro port rfl
            exact hown
          · rintro state rfl
            exact hown
        · refine ⟨runner, running, ?_, hruns⟩
          rw [List.getElem?_set_ne (Ne.symm hsame)]
          exact hrunning
  · cases action with
    | produce | consume => exact absurd hown id
    | block index action =>
        obtain ⟨block, hblock, hmove⟩ := Option.bind_eq_some_iff.mp hstep
        obtain ⟨next, _, hmove⟩ := blockMove_of_blockStep hmove
        cases hmove with
        | pop | push | own => exact hpushed

/-- A step of one worker brings the system on. -/
theorem left_of_blockMove {index : Nat} {block next : Block}
    {action : Block.Action} (hblock : system.blocks[index]? = some block)
    (hpop : ∀ result, action ≠ .pop result)
    (hmove : system.BlockMove index block next action after)
    (hless : Kernel.rank next < Kernel.rank block) : after.left < system.left := by
  have hset := total_set Kernel.rank hblock next
  cases hmove with
  | pop => exact absurd rfl (hpop _)
  | push | own =>
      simp only [left]
      omega

/-- While something is left some worker can go on. -/
theorem Draining.progress {pushed : List DataChunk}
    (h : Draining kernel pushed system)
    (hleft : ¬(system.held = [] ∧ system.waiting = [])) :
    ∃ action after, system.Own kernel action ∧ system.step action = some after ∧
      Draining kernel pushed after ∧ after.left < system.left := by
  have hdone : ∀ action {after}, system.Own kernel action →
      system.step action = some after → after.left < system.left →
        ∃ action after, system.Own kernel action ∧ system.step action = some after ∧
          Draining kernel pushed after ∧ after.left < system.left :=
    fun _ _ hown hstep hless => ⟨_, _, hown, hstep, h.step hown hstep, hless⟩
  by_cases hidle : ∀ block ∈ system.blocks, block.stage.chunk = none
  · obtain ⟨index, block, hblock, hruns⟩ := h.runs
    have hmem := List.mem_of_getElem? hblock
    have hfault := (h.serving.working block hmem).noFault
    rcases hruns.progress_between hfault (hidle block hmem) with
      hpopping | ⟨next, hstep, hless⟩
    · cases hqueue : system.inputQ.queue with
      | nil =>
          apply absurd _ hleft
          refine ⟨List.flatMap_eq_nil_iff.mpr fun other hother => ?_, ?_⟩
          · rw [Block.held, hidle other hother]
            rfl
          · rw [waiting, hqueue]
            rfl
      | cons chunk rest =>
          have hpop : some chunk = system.inputQ.pop.1 := by
            rw [SafeQ.pop, hqueue]
          have hrest : system.inputQ.pop.2.queue = rest := by
            rw [SafeQ.pop, hqueue]
          have hstep : block.step (.pop (some chunk)) =
              some { block with stage := .allocating chunk } := by
            simp only [Block.step, hfault, Block.act, hpopping, ↓reduceIte]
          have hmove : system.BlockMove index block
              { block with stage := .allocating chunk } (.pop (some chunk)) _ :=
            .pop hpop
          refine hdone (.block index (.pop (some chunk))) ?_
            (Option.bind_eq_some_iff.mpr
              ⟨block, hblock, blockStep_of_blockMove hstep hmove⟩) ?_
          · intro other hother
            rw [hblock] at hother
            cases hother
            exact ⟨hruns.inputPort_eq, hruns.outputPort_eq⟩
          · have hset := total_set Kernel.rank hblock
              { block with stage := .allocating chunk }
            simp only [left, hrest, hqueue, List.map_cons, total]
            simp only [Kernel.rank, hpopping, Block.Pass.remaining] at hset
            simp only [Kernel.weight]
            omega
    · have hmove : system.BlockMove index block next .work _ :=
        .own (by simp) (by simp)
      refine hdone (.block index .work) ?_
        (Option.bind_eq_some_iff.mpr
          ⟨block, hblock, blockStep_of_blockMove hstep hmove⟩)
        (left_of_blockMove hblock (by simp) hmove hless)
      intro other _
      exact True.intro
  · simp only [not_forall] at hidle
    obtain ⟨block, hmem, hstage⟩ := hidle
    obtain ⟨index, hblock⟩ := List.getElem?_of_mem hmem
    obtain ⟨action, next, hserves, hstep, hpop, hinputs, houtputs, hstate, hless⟩ :=
      (h.serving.working block hmem).progress_inPass hstage
    have hmove : ∃ after, system.BlockMove index block next action after := by
      by_cases hpush : action = .push
      · subst hpush
        cases hat : block.stage with
        | pushing going => exact ⟨_, .push hat⟩
        | _ =>
            simp only [Block.step, Block.act, hat] at hstep
            split at hstep <;> cases hstep
      · exact ⟨_, .own hpop hpush⟩
    obtain ⟨after, hmove⟩ := hmove
    refine hdone (.block index action) ?_
      (Option.bind_eq_some_iff.mpr
        ⟨block, hblock, blockStep_of_blockMove hstep hmove⟩)
      (left_of_blockMove hblock hpop hmove hless)
    cases action with
    | setInputs port => exact absurd rfl (hinputs port)
    | setOutputs port => exact absurd rfl (houtputs port)
    | setState state => exact absurd rfl (hstate state)
    | _ =>
        intro other hother
        rw [hblock] at hother
        cases hother
        exact hserves

/-- As long as one worker runs, the system can work off by itself all that was
pushed: from every reachable state the workers and their devices alone can come to
a state in which the values of all chunks are made. -/
theorem drains_of_serves (kernel : Kernel) (devices : List Device)
    (hsizes : ∀ device ∈ devices,
      device.input.length = kernel.inputPort.size.toNat ∧
        device.output.length = kernel.outputPort.size.toNat) {system : System}
    (h : Machine.Reaches step (Serves kernel) (initial devices) system)
    (hruns : ∃ block ∈ system.blocks, kernel.Runs block) :
    ∃ last, Machine.Reaches step (Own kernel) system last ∧
      last.pushed = system.pushed ∧
        last.made ~ system.pushed.map kernel.apply := by
  obtain ⟨block, hmem, hruns⟩ := hruns
  obtain ⟨index, hblock⟩ := List.getElem?_of_mem hmem
  have hstart : Draining kernel system.pushed system :=
    ⟨serving_of_reaches hsizes h, ⟨index, block, hblock, hruns⟩, rfl⟩
  have hprogress : ∀ before : System, Draining kernel system.pushed before →
      ¬(before.held = [] ∧ before.waiting = []) → ∃ action after,
        before.Own kernel action ∧ before.step action = some after ∧
          Draining kernel system.pushed after ∧ after.left < before.left :=
    fun _ hdraining hgoal => hdraining.progress hgoal
  obtain ⟨last, hlast, hheld, hwaiting⟩ :=
    Machine.reaches_of_measure left hprogress hstart
  have hpushed : last.pushed = system.pushed := by
    have hdraining : Draining kernel system.pushed last :=
      hlast.invariant hstart fun _ _ _ hbefore hown hstep => hbefore.step hown hstep
    exact hdraining.pushed_eq
  have hwhole := h.trans (hlast.mono fun _ _ => serves_of_own)
  obtain ⟨owed, hperm, hkeys⟩ :=
    (inv_of_reaches hwhole).owed (serving_of_reaches hsizes hwhole)
  rw [hheld, hwaiting, List.append_nil, List.map_eq_nil_iff] at hkeys
  rw [hkeys, List.append_nil, hpushed] at hperm
  exact ⟨last, hlast, hpushed, hperm⟩

theorem drains_of_serves_shared :
    ∃ system last : System,
      Machine.run step (Serves addOne) (initial [⟨[0], [0], 0⟩, ⟨[0], [0], 0⟩])
        shared = some system ∧
      Machine.Reaches step (Own addOne) system last ∧
      last.pushed = system.pushed ∧ last.made ~ [⟨0, 7, 1, [11]⟩, ⟨1, 8, 1, [21]⟩] := by
  have hruns : ∀ system, Machine.run step (Serves addOne)
      (initial [⟨[0], [0], 0⟩, ⟨[0], [0], 0⟩]) shared = some system →
        ∃ last, Machine.Reaches step (Own addOne) system last ∧
          last.pushed = system.pushed ∧
            last.made ~ system.pushed.map addOne.apply := by
    intro system hrun
    refine drains_of_serves addOne [⟨[0], [0], 0⟩, ⟨[0], [0], 0⟩] (by decide)
      (Machine.reaches_of_run shared hrun) ?_
    cases hrun
    exact ⟨_, List.mem_cons_self, rfl, rfl, fun h => by cases h⟩
  obtain ⟨last, hlast⟩ := hruns _ rfl
  exact ⟨_, last, rfl, hlast⟩

end System

end FpgaFramework
