/-
Blocks on one memory.  All ports and registers are addresses behind one bridge;
where the blocks' regions are apart, the blocks behave as if each had a device of
its own.
-/
import FpgaFramework.AddressSpace
import FpgaFramework.BlockResults

namespace FpgaFramework

open scoped List

/-- What is behind the bridge: a byte at every address. -/
abbrev Bridge := AddressSpace UInt8

/-- `Port`. -/
structure MappedPort where
  address : Nat
  size : UInt32
deriving Repr, DecidableEq

def MappedPort.port (port : MappedPort) : Port := ⟨port.size⟩

/-- `Block`, whose device is somewhere behind `_cr_addr` and its ports. -/
structure MappedBlock where
  crAddr : Nat
  state : Block.State
  inputPort : Option MappedPort
  outputPort : Option MappedPort
  stage : Block.Stage
  fault : Option Block.Fault
deriving Repr, DecidableEq

namespace MappedBlock

/-- The constructor sets no port, and starts the thread. -/
def construct (crAddr : Nat) : MappedBlock where
  crAddr := crAddr
  state := .ready
  inputPort := none
  outputPort := none
  stage := .checking
  fault := none

/-- What can happen next in a block.  `start` carries what the device makes of the
memory when it sees the store. -/
inductive Action where
  | work
  | pop (result : Option DataChunk)
  | allocate (contents : Nat → UInt8)
  | start (react : Bridge → Bridge)
  | push
  | setInputs (address : Nat) (length : UInt32)
  | setOutputs (address : Nat) (length : UInt32)
  | setState (state : Block.State)

/-- `Block::start`. -/
def start (block : MappedBlock) (memory : Bridge) : Bridge :=
  memory.store (block.crAddr + 0x8) [1]

/-- `Block::isDone`. -/
def isDone (block : MappedBlock) (memory : Bridge) : Bool :=
  (memory (block.crAddr + 0x18) &&& 0x02) >>> 1 == 1

/-- The thread's own next step, and what it does to the memory. -/
def work (block : MappedBlock) (memory : Bridge) : Option (MappedBlock × Bridge) :=
  match block.stage with
  | .checking =>
      if block.state = .stopped then some (block, memory)
      else some ({ block with stage := .marking }, memory)
  | .marking => some ({ block with state := .busy, stage := .popping }, memory)
  | .looping coming going a =>
      if a < coming.size then
        match block.inputPort with
        | none => some ({ block with fault := some .unsetPort }, memory)
        | some port =>
            match Buffer.read coming.data (Block.itemOffset a port.port)
                port.size.toNat with
            | none => some ({ block with fault := some .outOfBounds }, memory)
            | some item => some ({ block with stage := .starting coming going a },
                memory.store port.address item)
      else some ({ block with stage := .pushing going }, memory)
  | .polling coming going a =>
      if block.isDone memory then
        some ({ block with stage := .reading coming going a }, memory)
      else some (block, memory)
  | .reading coming going a =>
      match block.outputPort with
      | none => some ({ block with fault := some .unsetPort }, memory)
      | some port =>
          match Buffer.write going.data (Block.itemOffset a port.port)
              (memory.load port.address port.size.toNat) with
          | none => some ({ block with fault := some .outOfBounds }, memory)
          | some data => some ({ block with
              stage := .looping coming { going with data := data } (a + 1) }, memory)
  | .finishing => some ({ block with state := .done, stage := .checking }, memory)
  | _ => none

/-- What each label does in a block that is still running. -/
def act (block : MappedBlock) (memory : Bridge) : Action → Option (MappedBlock × Bridge)
  | .work => block.work memory
  | .pop result =>
      match block.stage, result with
      | .popping, none => some ({ block with stage := .finishing }, memory)
      | .popping, some chunk =>
          some ({ block with stage := .allocating chunk }, memory)
      | _, _ => none
  | .allocate contents =>
      match block.stage with
      | .allocating coming =>
          match block.outputPort with
          | none => some ({ block with fault := some .unsetPort }, memory)
          | some port => some ({ block with
              stage := .looping coming
                (Block.outgoing coming port.port contents) 0 }, memory)
      | _ => none
  | .start react =>
      match block.stage with
      | .starting coming going a =>
          some ({ block with stage := .polling coming going a },
            react (block.start memory))
      | _ => none
  | .push =>
      match block.stage with
      | .pushing _ => some ({ block with stage := .finishing }, memory)
      | _ => none
  | .setInputs address length =>
      some ({ block with inputPort := some ⟨address, length⟩ }, memory)
  | .setOutputs address length =>
      some ({ block with outputPort := some ⟨address, length⟩ }, memory)
  | .setState state => some ({ block with state := state }, memory)

def step (block : MappedBlock) (memory : Bridge) (action : Action) :
    Option (MappedBlock × Bridge) :=
  if block.fault = none then block.act memory action else none

end MappedBlock

/-- Where the fabric puts a device: its two ports, and its control registers. -/
structure Place where
  input : Range
  output : Range
  cr : Nat
deriving Repr, DecidableEq

namespace Place

/-- The start register. -/
def startRegister (place : Place) : Range := ⟨place.cr + 0x8, 1⟩

/-- The status register. -/
def statusRegister (place : Place) : Range := ⟨place.cr + 0x18, 1⟩

/-- All that belongs to the device. -/
def regions (place : Place) : List Range :=
  [place.input, place.output, place.startRegister, place.statusRegister]

/-- The device's ports and registers are apart. -/
def Apart (place : Place) : Prop := place.regions.Pairwise Range.Disjoint

instance (place : Place) : Decidable place.Apart := by
  unfold Apart
  infer_instance

/-- The address belongs to the device. -/
def Owns (place : Place) (address : Nat) : Prop :=
  ∃ range ∈ place.regions, range.Contains address

/-- What the memory holds for the device. -/
def device (place : Place) (memory : Bridge) : Device where
  input := memory.load place.input.offset place.input.length
  output := memory.load place.output.offset place.output.length
  status := memory place.statusRegister.offset

theorem length_input (place : Place) (memory : Bridge) :
    (place.device memory).input.length = place.input.length :=
  AddressSpace.length_load _ _ _

theorem length_output (place : Place) (memory : Bridge) :
    (place.device memory).output.length = place.output.length :=
  AddressSpace.length_load _ _ _

/-- Only the device's own bytes change. -/
def Local (place : Place) (memory after : Bridge) : Prop :=
  ∀ address, ¬place.Owns address → after address = memory address

theorem Local.refl (place : Place) (memory : Bridge) : place.Local memory memory :=
  fun _ _ => rfl

theorem Local.trans {place : Place} {memory middle after : Bridge}
    (h : place.Local memory middle) (h' : place.Local middle after) :
    place.Local memory after :=
  fun address hnot => (h' address hnot).trans (h address hnot)

/-- A store into one of the device's regions. -/
theorem local_store {place : Place} {memory : Bridge} {address : Nat}
    {values : List UInt8} (h : ⟨address, values.length⟩ ∈ place.regions) :
    place.Local memory (memory.store address values) := by
  intro a hnot
  apply AddressSpace.store_of_not_contains
  intro hcontains
  exact hnot ⟨_, h, hcontains⟩

/-- Devices with nothing in common. -/
def Clear (place other : Place) : Prop :=
  ∀ range ∈ place.regions, ∀ range' ∈ other.regions, range.Disjoint range'

instance (place other : Place) : Decidable (place.Clear other) := by
  unfold Clear
  infer_instance

theorem Clear.symm {place other : Place} (h : place.Clear other) :
    other.Clear place :=
  fun range hrange range' hrange' => (h range' hrange' range hrange).symm

/-- What one device does is not seen by another. -/
theorem Clear.device_eq {place other : Place} (hclear : place.Clear other)
    {memory after : Bridge} (h : place.Local memory after) :
    other.device after = other.device memory := by
  have hsame : ∀ range ∈ other.regions, ∀ address, range.Contains address →
      after address = memory address := by
    intro range hrange address hcontains
    apply h
    rintro ⟨range', hrange', hcontains'⟩
    exact (hclear range' hrange' range hrange).not_contains hcontains' hcontains
  have hin : other.input ∈ other.regions := by simp [regions]
  have hout : other.output ∈ other.regions := by simp [regions]
  have hstatus : other.statusRegister ∈ other.regions := by simp [regions]
  simp only [device, AddressSpace.load_congr (hsame _ hin),
    AddressSpace.load_congr (hsame _ hout)]
  rw [hsame _ hstatus]
  exact ⟨Nat.le_refl _, Nat.lt_succ_self _⟩

/-- A store that fills the input port is seen there and nowhere else. -/
theorem Apart.device_store {place : Place} (h : place.Apart) {memory : Bridge}
    {values : List UInt8} (hlength : values.length = place.input.length) :
    place.device (memory.store place.input.offset values) =
      { place.device memory with input := values } := by
  have hrange : (⟨place.input.offset, values.length⟩ : Range) = place.input := by
    rw [hlength]
  obtain ⟨hinput, _⟩ := List.pairwise_cons.mp h
  have hout : Range.Disjoint ⟨place.input.offset, values.length⟩ place.output := by
    rw [hrange]
    exact hinput _ (by simp)
  have hstatus : place.input.Disjoint place.statusRegister :=
    hinput _ (by simp)
  simp only [device]
  rw [← hlength, AddressSpace.load_store, AddressSpace.load_store_of_disjoint _ hout,
    AddressSpace.store_of_not_contains]
  rw [hrange]
  apply hstatus.symm.not_contains
  exact ⟨Nat.le_refl _, Nat.lt_succ_self _⟩

end Place

namespace MappedBlock

/-- The block with what its place holds as its own device. -/
def toBlock (block : MappedBlock) (place : Place) (memory : Bridge) : Block where
  state := block.state
  inputPort := block.inputPort.map MappedPort.port
  outputPort := block.outputPort.map MappedPort.port
  device := place.device memory
  stage := block.stage
  fault := block.fault

/-- The block uses the addresses of its place. -/
structure Wired (block : MappedBlock) (place : Place) : Prop where
  crAddr_eq : block.crAddr = place.cr
  inputPort_eq : ∀ port ∈ block.inputPort,
    port.address = place.input.offset ∧ port.size.toNat = place.input.length
  outputPort_eq : ∀ port ∈ block.outputPort,
    port.address = place.output.offset ∧ port.size.toNat = place.output.length

/-- The step of a block with a device of its own. -/
def Action.view (place : Place) (block : MappedBlock) (memory : Bridge) :
    Action → Block.Action
  | .work => .work
  | .pop result => .pop result
  | .allocate contents => .allocate contents
  | .start react => .start (place.device (react (block.start memory)))
  | .push => .push
  | .setInputs _ length => .setInputs ⟨length⟩
  | .setOutputs _ length => .setOutputs ⟨length⟩
  | .setState state => .setState state

/-- The device changes only what belongs to it, and the ports are set to it. -/
def Keeps (place : Place) (block : MappedBlock) (memory : Bridge) : Action → Prop
  | .start react => place.Local (block.start memory) (react (block.start memory))
  | .setInputs address length =>
      address = place.input.offset ∧ length.toNat = place.input.length
  | .setOutputs address length =>
      address = place.output.offset ∧ length.toNat = place.output.length
  | _ => True

variable {block : MappedBlock} {place : Place} {memory : Bridge}

theorem isDone_toBlock (hwired : block.Wired place) :
    (block.toBlock place memory).device.isDone = block.isDone memory := by
  rw [isDone, hwired.crAddr_eq]
  rfl

/-- The copy to the input port. -/
theorem Wired.writeItem (hwired : block.Wired place) {port : MappedPort}
    (hport : block.inputPort = some port) (coming : DataChunk) (a : UInt32) :
    Block.writeItem (place.device memory) port.port coming a =
      Buffer.read coming.data (Block.itemOffset a port.port) port.size.toNat := by
  obtain ⟨_, hsize⟩ := hwired.inputPort_eq port hport
  rw [Block.writeItem]
  change (Buffer.read coming.data (Block.itemOffset a port.port) port.size.toNat).bind
    (Buffer.write (place.device memory).input 0) = _
  cases hread : Buffer.read coming.data (Block.itemOffset a port.port)
      port.size.toNat with
  | none => rfl
  | some item =>
      have hlength := Buffer.length_of_read hread
      have hfull : (place.device memory).input.length = item.length := by
        rw [hlength, hsize, Place.length_input]
      rw [Option.bind_some, Buffer.write_of_le (by omega), Buffer.put, List.take_zero,
        List.nil_append, List.drop_eq_nil_iff.mpr (by omega), List.append_nil]

theorem Wired.length_item (hwired : block.Wired place) {port : MappedPort}
    (hport : block.inputPort = some port) {coming : DataChunk} {a : UInt32}
    {item : List UInt8}
    (hread : Buffer.read coming.data (Block.itemOffset a port.port)
      port.size.toNat = some item) : item.length = place.input.length :=
  (Buffer.length_of_read hread).trans (hwired.inputPort_eq port hport).2

/-- The copy from the output port. -/
theorem Wired.readItem (hwired : block.Wired place) {port : MappedPort}
    (hport : block.outputPort = some port) (going : DataChunk) (a : UInt32) :
    Block.readItem (place.device memory) port.port going a =
      Buffer.write going.data (Block.itemOffset a port.port)
        (memory.load port.address port.size.toNat) := by
  obtain ⟨haddress, hsize⟩ := hwired.outputPort_eq port hport
  have hlength : (place.device memory).output.length = port.size.toNat := by
    rw [hsize, Place.length_output]
  have hread : Buffer.read (place.device memory).output 0 port.size.toNat =
      some (place.device memory).output := by
    rw [← hlength, Buffer.read_all]
  rw [Block.readItem]
  change (Buffer.read (place.device memory).output 0 port.size.toNat).bind _ = _
  rw [hread, Option.bind_some, haddress, hsize]
  rfl

@[simp] theorem toBlock_stage : (block.toBlock place memory).stage = block.stage := rfl

@[simp] theorem toBlock_device :
    (block.toBlock place memory).device = place.device memory := rfl

@[simp] theorem toBlock_inputPort : (block.toBlock place memory).inputPort =
    block.inputPort.map MappedPort.port := rfl

@[simp] theorem toBlock_outputPort : (block.toBlock place memory).outputPort =
    block.outputPort.map MappedPort.port := rfl

/-- The thread's own step is that of the block with a device of its own. -/
theorem work_toBlock (hwired : block.Wired place) (hapart : place.Apart) :
    (block.toBlock place memory).work =
      (block.work memory).map fun next => next.1.toBlock place next.2 := by
  cases hat : block.stage with
  | checking =>
      have hstate : (block.toBlock place memory).state = block.state := rfl
      simp only [Block.work, work, toBlock_stage, hat]
      by_cases hstopped : block.state = .stopped
      · simp only [if_pos hstopped, if_pos (hstate.trans hstopped)]; rfl
      · simp only [if_neg hstopped, if_neg (hstate ▸ hstopped)]; rfl
  | marking => simp only [Block.work, work, toBlock_stage, hat]; rfl
  | looping coming going a =>
      simp only [Block.work, work, toBlock_stage, hat]
      by_cases ha : a < coming.size
      · simp only [if_pos ha, toBlock_inputPort, toBlock_device]
        cases hport : block.inputPort with
        | none => rfl
        | some port =>
            simp only [Option.map_some, hwired.writeItem hport]
            cases hread : Buffer.read coming.data (Block.itemOffset a port.port)
                port.size.toNat with
            | none => rfl
            | some item =>
                simp only [Option.map_some, Option.some.injEq, toBlock]
                rw [(hwired.inputPort_eq port hport).1,
                  hapart.device_store (hwired.length_item hport hread)]
      · simp only [if_neg ha]; rfl
  | polling coming going a =>
      simp only [Block.work, work, toBlock_stage, hat]
      rw [isDone_toBlock hwired]
      split <;> rfl
  | reading coming going a =>
      simp only [Block.work, work, toBlock_stage, toBlock_outputPort, toBlock_device,
        hat]
      cases hport : block.outputPort with
      | none => rfl
      | some port =>
          simp only [Option.map_some, hwired.readItem hport]
          cases Buffer.write going.data (Block.itemOffset a port.port)
            (memory.load port.address port.size.toNat) <;> rfl
  | finishing => simp only [Block.work, work, toBlock_stage, hat]; rfl
  | popping | allocating | starting | pushing =>
      simp only [Block.work, work, toBlock_stage, hat]; rfl

theorem act_toBlock (hwired : block.Wired place) (hapart : place.Apart)
    (action : Action) :
    (block.toBlock place memory).act (action.view place block memory) =
      (block.act memory action).map fun next => next.1.toBlock place next.2 := by
  cases action with
  | work => exact work_toBlock hwired hapart
  | pop result =>
      simp only [Action.view, Block.act, act, toBlock_stage]
      cases block.stage <;> cases result <;> rfl
  | allocate contents =>
      simp only [Action.view, Block.act, act, toBlock_stage, toBlock_outputPort]
      cases block.stage with
      | allocating coming => cases block.outputPort <;> rfl
      | _ => rfl
  | start react =>
      simp only [Action.view, Block.act, act, toBlock_stage]
      cases block.stage <;> rfl
  | push =>
      simp only [Action.view, Block.act, act, toBlock_stage]
      cases block.stage <;> rfl
  | setInputs address length => rfl
  | setOutputs address length => rfl
  | setState state => rfl

/-- Seen from its place, a block does what a block with its own device does. -/
theorem step_toBlock (hwired : block.Wired place) (hapart : place.Apart)
    (action : Action) :
    (block.toBlock place memory).step (action.view place block memory) =
      (block.step memory action).map fun next => next.1.toBlock place next.2 := by
  rw [Block.step, step]
  change (if block.fault = none then _ else _) = _
  by_cases hfault : block.fault = none
  · rw [if_pos hfault, if_pos hfault]
    exact act_toBlock hwired hapart action
  · rw [if_neg hfault, if_neg hfault]
    rfl

variable {next : MappedBlock × Bridge}

/-- A step of the thread leaves addresses alone, and stores only to the block's
own place. -/
theorem wired_of_work (hwired : block.Wired place)
    (h : block.work memory = some next) :
    next.1.Wired place ∧ place.Local memory next.2 := by
  obtain ⟨hcr, hinput, houtput⟩ := hwired
  unfold work at h
  split at h
  · split at h <;> cases h <;> exact ⟨⟨hcr, hinput, houtput⟩, Place.Local.refl _ _⟩
  · cases h
    exact ⟨⟨hcr, hinput, houtput⟩, Place.Local.refl _ _⟩
  · split at h
    · split at h
      · cases h
        exact ⟨⟨hcr, hinput, houtput⟩, Place.Local.refl _ _⟩
      · next port hport =>
          split at h
          · cases h
            exact ⟨⟨hcr, hinput, houtput⟩, Place.Local.refl _ _⟩
          · next item hread =>
              cases h
              refine ⟨⟨hcr, hinput, houtput⟩, Place.local_store ?_⟩
              obtain ⟨haddress, hsize⟩ := hinput port hport
              rw [Buffer.length_of_read hread, haddress, hsize]
              exact List.mem_cons_self
    · cases h
      exact ⟨⟨hcr, hinput, houtput⟩, Place.Local.refl _ _⟩
  · split at h <;> cases h <;> exact ⟨⟨hcr, hinput, houtput⟩, Place.Local.refl _ _⟩
  · split at h
    · cases h
      exact ⟨⟨hcr, hinput, houtput⟩, Place.Local.refl _ _⟩
    · split at h <;> cases h <;>
        exact ⟨⟨hcr, hinput, houtput⟩, Place.Local.refl _ _⟩
  · cases h
    exact ⟨⟨hcr, hinput, houtput⟩, Place.Local.refl _ _⟩
  · cases h

theorem wired_of_step (hwired : block.Wired place) {action : Action}
    (hkeeps : Keeps place block memory action)
    (h : block.step memory action = some next) :
    next.1.Wired place ∧ place.Local memory next.2 := by
  obtain ⟨_, hact⟩ := Option.ite_none_right_eq_some.mp h
  obtain ⟨hcr, hinput, houtput⟩ := hwired
  cases action with
  | work => exact wired_of_work ⟨hcr, hinput, houtput⟩ hact
  | pop result =>
      simp only [act] at hact
      split at hact <;> cases hact <;>
        exact ⟨⟨hcr, hinput, houtput⟩, Place.Local.refl _ _⟩
  | allocate contents =>
      simp only [act] at hact
      split at hact
      · split at hact <;> cases hact <;>
          exact ⟨⟨hcr, hinput, houtput⟩, Place.Local.refl _ _⟩
      · cases hact
  | start react =>
      simp only [act] at hact
      split at hact
      · cases hact
        refine ⟨⟨hcr, hinput, houtput⟩, Place.Local.trans (Place.local_store ?_) hkeeps⟩
        rw [hcr]
        simp [Place.regions, Place.startRegister]
      · cases hact
  | push =>
      simp only [act] at hact
      split at hact <;> cases hact
      exact ⟨⟨hcr, hinput, houtput⟩, Place.Local.refl _ _⟩
  | setInputs address length =>
      cases hact
      refine ⟨⟨hcr, ?_, houtput⟩, Place.Local.refl _ _⟩
      intro port hport
      cases hport
      exact hkeeps
  | setOutputs address length =>
      cases hact
      refine ⟨⟨hcr, hinput, ?_⟩, Place.Local.refl _ _⟩
      intro port hport
      cases hport
      exact hkeeps
  | setState state =>
      cases hact
      exact ⟨⟨hcr, hinput, houtput⟩, Place.Local.refl _ _⟩

end MappedBlock

/-- The memory, the two queues and the blocks that are constructed so far, with the
history of `System`. -/
structure MappedSystem where
  memory : Bridge
  inputQ : SafeQ DataChunk
  outputQ : SafeQ DataChunk
  blocks : List MappedBlock
  pushed : List DataChunk
  made : List DataChunk

namespace MappedSystem

def initial (memory : Bridge) : MappedSystem where
  memory := memory
  inputQ := ⟨[]⟩
  outputQ := ⟨[]⟩
  blocks := []
  pushed := []
  made := []

/-- A producer pushes, a consumer pops, a block is constructed, the device of place
`index` moves, or something happens in a block. -/
inductive Action where
  | produce (id size : UInt32) (data : List UInt8)
  | consume
  | construct (crAddr : Nat)
  | device (index : Nat) (react : Bridge → Bridge)
  | block (index : Nat) (action : MappedBlock.Action)

/-- The new chunk of a producer. -/
def chunk (system : MappedSystem) (id size : UInt32) (data : List UInt8) :
    DataChunk :=
  ⟨system.pushed.length, id, size, data⟩

/-- A step of block `index` and what it does to the memory and the queues. -/
def blockStep (system : MappedSystem) (index : Nat) (block : MappedBlock) :
    MappedBlock.Action → Option MappedSystem
  | .pop result =>
      if result = system.inputQ.pop.1 then
        (block.step system.memory (.pop result)).map fun next =>
          { system with
            memory := next.2
            inputQ := system.inputQ.pop.2
            blocks := system.blocks.set index next.1 }
      else none
  | .push =>
      match block.stage with
      | .pushing going =>
          (block.step system.memory .push).map fun next =>
            { system with
              memory := next.2
              outputQ := system.outputQ.push going
              blocks := system.blocks.set index next.1
              made := system.made ++ [going] }
      | _ => none
  | action =>
      (block.step system.memory action).map fun next =>
        { system with
          memory := next.2
          blocks := system.blocks.set index next.1 }

def step (system : MappedSystem) : Action → Option MappedSystem
  | .produce id size data =>
      some { system with
        inputQ := system.inputQ.push (system.chunk id size data)
        pushed := system.pushed ++ [system.chunk id size data] }
  | .consume => some { system with outputQ := system.outputQ.pop.2 }
  | .construct crAddr =>
      some { system with blocks := system.blocks ++ [.construct crAddr] }
  | .device index react =>
      if ∀ block ∈ system.blocks[index]?, block.fault = none then
        some { system with memory := react system.memory }
      else none
  | .block index action =>
      system.blocks[index]?.bind fun block =>
        system.blockStep index block action

/-- What is seen at place `index`: its block, or the one that will be constructed
there. -/
def seenAt (system : MappedSystem) (index : Nat) (place : Place) : Block :=
  match system.blocks[index]? with
  | none => Block.construct (place.device system.memory)
  | some block => block.toBlock place system.memory

/-- The blocks with devices of their own. -/
def view (layout : List Place) (system : MappedSystem) : System where
  inputQ := system.inputQ
  outputQ := system.outputQ
  blocks := layout.mapIdx system.seenAt
  pushed := system.pushed
  made := system.made

/-- The step that is seen; the construction of a block is not. -/
def Action.view (layout : List Place) (system : MappedSystem) :
    Action → Option System.Action
  | .produce id size data => some (.produce id size data)
  | .consume => some .consume
  | .construct _ => none
  | .device index react => layout[index]?.map fun place =>
      .block index (.device (place.device (react system.memory)))
  | .block index action => layout[index]?.bind fun place =>
      system.blocks[index]?.map fun block =>
        .block index (action.view place block system.memory)

/-- No two devices have anything in common. -/
structure Apart (layout : List Place) : Prop where
  each : ∀ place ∈ layout, place.Apart
  clear : layout.Pairwise Place.Clear

/-- Blocks are constructed at their places, and every device keeps to its own. -/
def Keeps (layout : List Place) (system : MappedSystem) : Action → Prop
  | .construct crAddr =>
      ∃ place ∈ layout[system.blocks.length]?, crAddr = place.cr
  | .device index react =>
      ∃ place ∈ layout[index]?, place.Local system.memory (react system.memory)
  | .block index action => ∀ block ∈ system.blocks[index]?,
      ∀ place ∈ layout[index]?, MappedBlock.Keeps place block system.memory action
  | _ => True

/-- Every block has its place. -/
structure Wired (layout : List Place) (system : MappedSystem) : Prop where
  length_le : system.blocks.length ≤ layout.length
  wired : ∀ (index : Nat) (block : MappedBlock) (place : Place),
    system.blocks[index]? = some block → layout[index]? = some place →
      block.Wired place

variable {layout : List Place} {system after : MappedSystem}

theorem Apart.clear_of_ne (h : Apart layout) {index other : Nat} (hne : index ≠ other)
    {place place' : Place} (hplace : layout[index]? = some place)
    (hplace' : layout[other]? = some place') : place.Clear place' := by
  obtain ⟨hlt, hget⟩ := List.getElem?_eq_some_iff.mp hplace
  obtain ⟨hlt', hget'⟩ := List.getElem?_eq_some_iff.mp hplace'
  have hpairs := List.pairwise_iff_getElem.mp h.clear
  rcases Nat.lt_or_gt_of_ne hne with hless | hmore
  · rw [← hget, ← hget']
    exact hpairs _ _ hlt hlt' hless
  · rw [← hget, ← hget']
    exact (hpairs _ _ hlt' hlt hmore).symm

theorem getElem?_view (layout : List Place) (system : MappedSystem) (index : Nat) :
    (system.view layout).blocks[index]? = layout[index]?.map (system.seenAt index) := by
  rw [view, List.getElem?_mapIdx]

theorem seenAt_of_getElem? {index : Nat} {block : MappedBlock} (place : Place)
    (h : system.blocks[index]? = some block) :
    system.seenAt index place = block.toBlock place system.memory := by
  rw [seenAt, h]

/-- Where only place `index` moves, the other blocks are seen as before. -/
theorem view_of_local (happart : Apart layout) {index : Nat} {place : Place}
    (hplace : layout[index]? = some place)
    (hlocal : place.Local system.memory after.memory)
    (hothers : ∀ other, other ≠ index → after.blocks[other]? = system.blocks[other]?) :
    (after.view layout).blocks =
      (system.view layout).blocks.set index (after.seenAt index place) := by
  apply List.ext_getElem?
  intro other
  rw [getElem?_view]
  by_cases hsame : index = other
  · subst hsame
    have hlt : index < (system.view layout).blocks.length := by
      rw [view, List.length_mapIdx]
      exact (List.getElem?_eq_some_iff.mp hplace).1
    rw [List.getElem?_set_self hlt, hplace, Option.map_some]
  · rw [List.getElem?_set_ne hsame, getElem?_view]
    cases hother : layout[other]? with
    | none => rfl
    | some place' =>
        have hdevice := (happart.clear_of_ne hsame hplace hother).device_eq hlocal
        simp only [Option.map_some, seenAt, hothers other (Ne.symm hsame), hdevice,
          MappedBlock.toBlock]

/-- What a step of block `index` does to the queues. -/
inductive BlockMove (system : MappedSystem) (index : Nat) (block : MappedBlock)
    (next : MappedBlock × Bridge) : MappedBlock.Action → MappedSystem → Prop
  | pop {result : Option DataChunk} (hresult : result = system.inputQ.pop.1) :
      BlockMove system index block next (.pop result)
        { system with
          memory := next.2
          inputQ := system.inputQ.pop.2
          blocks := system.blocks.set index next.1 }
  | push {going : DataChunk} (hstage : block.stage = .pushing going) :
      BlockMove system index block next .push
        { system with
          memory := next.2
          outputQ := system.outputQ.push going
          blocks := system.blocks.set index next.1
          made := system.made ++ [going] }
  | own {action : MappedBlock.Action} (hpop : ∀ result, action ≠ .pop result)
      (hpush : action ≠ .push) :
      BlockMove system index block next action
        { system with
          memory := next.2
          blocks := system.blocks.set index next.1 }

theorem blockMove_of_blockStep {index : Nat} {block : MappedBlock}
    {action : MappedBlock.Action}
    (h : system.blockStep index block action = some after) :
    ∃ next, block.step system.memory action = some next ∧
      system.BlockMove index block next action after := by
  unfold blockStep at h
  split at h
  · obtain ⟨hresult, hmap⟩ := Option.ite_none_right_eq_some.mp h
    obtain ⟨next, hstep, rfl⟩ := Option.map_eq_some_iff.mp hmap
    exact ⟨next, hstep, .pop hresult⟩
  · split at h
    · next going hstage =>
        obtain ⟨next, hstep, rfl⟩ := Option.map_eq_some_iff.mp h
        exact ⟨next, hstep, .push hstage⟩
    · cases h
  · next hpop hpush =>
      obtain ⟨next, hstep, rfl⟩ := Option.map_eq_some_iff.mp h
      exact ⟨next, hstep, .own hpop hpush⟩

theorem BlockMove.memory_eq {index : Nat} {block : MappedBlock}
    {next : MappedBlock × Bridge} {action : MappedBlock.Action}
    (h : system.BlockMove index block next action after) :
    after.memory = next.2 ∧ after.blocks = system.blocks.set index next.1 := by
  cases h with
  | pop | push | own => exact ⟨rfl, rfl⟩

/-- The step of one block is seen as the step of that block. -/
theorem view_of_blockMove (happart : Apart layout) (hwired : system.Wired layout)
    {index : Nat} {block : MappedBlock} {place : Place}
    (hblock : system.blocks[index]? = some block)
    (hplace : layout[index]? = some place) {action : MappedBlock.Action}
    (hkeeps : MappedBlock.Keeps place block system.memory action)
    {next : MappedBlock × Bridge}
    (hstep : block.step system.memory action = some next)
    (h : system.BlockMove index block next action after) :
    (system.view layout).step (.block index (action.view place block system.memory)) =
      some (after.view layout) := by
  have hwire := hwired.wired index block place hblock hplace
  obtain ⟨_, hlocal⟩ := MappedBlock.wired_of_step hwire hkeeps hstep
  obtain ⟨hmemory, hblocks⟩ := h.memory_eq
  have hlt := (List.getElem?_eq_some_iff.mp hblock).1
  have hseen : (system.view layout).blocks[index]? =
      some (block.toBlock place system.memory) := by
    rw [getElem?_view, hplace, Option.map_some, seenAt_of_getElem? place hblock]
  have hstep' : (block.toBlock place system.memory).step
      (action.view place block system.memory) = some (next.1.toBlock place next.2) := by
    rw [MappedBlock.step_toBlock hwire
      (happart.each place (List.mem_of_getElem? hplace)), hstep, Option.map_some]
  have hview : (after.view layout).blocks =
      (system.view layout).blocks.set index (next.1.toBlock place next.2) := by
    have hafter : after.blocks[index]? = some next.1 := by
      rw [hblocks, List.getElem?_set_self hlt]
    have hothers : ∀ other, other ≠ index →
        after.blocks[other]? = system.blocks[other]? := by
      intro other hne
      rw [hblocks, List.getElem?_set_ne (Ne.symm hne)]
    rw [← hmemory] at hlocal
    rw [view_of_local happart hplace hlocal hothers, seenAt_of_getElem? place hafter,
      hmemory]
  have hmove : (system.view layout).BlockMove index (block.toBlock place system.memory)
      (next.1.toBlock place next.2) (action.view place block system.memory)
        (after.view layout) := by
    have hafter : after.view layout = { after.view layout with
        blocks := (system.view layout).blocks.set index
          (next.1.toBlock place next.2) } := by
      rw [← hview]
    rw [hafter]
    cases h with
    | pop hresult => exact .pop hresult
    | push hstage => exact .push hstage
    | own hpop hpush =>
        apply System.BlockMove.own
        · intro result heq
          cases action with
          | pop => exact hpop _ rfl
          | _ => cases heq
        · intro heq
          cases action with
          | push => exact hpush rfl
          | _ => cases heq
  exact Option.bind_eq_some_iff.mpr
    ⟨_, hseen, System.blockStep_of_blockMove hstep' hmove⟩

theorem Wired.step (hwired : system.Wired layout) {action : Action}
    (hkeeps : system.Keeps layout action) (hstep : system.step action = some after) :
    after.Wired layout := by
  cases action with
  | produce | consume =>
      cases hstep
      exact ⟨hwired.length_le, hwired.wired⟩
  | device index react =>
      obtain ⟨_, hdevice⟩ := Option.ite_none_right_eq_some.mp hstep
      cases hdevice
      exact ⟨hwired.length_le, hwired.wired⟩
  | construct crAddr =>
      cases hstep
      obtain ⟨place, hplace, hcr⟩ := hkeeps
      have hlt := (List.getElem?_eq_some_iff.mp hplace).1
      constructor
      · rw [List.length_append]
        exact hlt
      · intro index block place' hblock hplace'
        by_cases hindex : index < system.blocks.length
        · rw [List.getElem?_append_left hindex] at hblock
          exact hwired.wired index block place' hblock hplace'
        · have hlast : index = system.blocks.length := by
            have hmax := (List.getElem?_eq_some_iff.mp hblock).1
            rw [List.length_append, List.length_singleton] at hmax
            omega
          subst hlast
          rw [List.getElem?_concat_length] at hblock
          cases hblock
          rw [hplace] at hplace'
          cases hplace'
          refine ⟨hcr, ?_, ?_⟩
          · intro port hport
            cases hport
          · intro port hport
            cases hport
  | block index action =>
      obtain ⟨block, hblock, hmove⟩ := Option.bind_eq_some_iff.mp hstep
      obtain ⟨next, hnext, hmove⟩ := blockMove_of_blockStep hmove
      obtain ⟨_, hblocks⟩ := hmove.memory_eq
      have hlt := (List.getElem?_eq_some_iff.mp hblock).1
      constructor
      · rw [hblocks, List.length_set]
        exact hwired.length_le
      · intro other block' place hblock' hplace
        rw [hblocks] at hblock'
        by_cases hsame : index = other
        · subst hsame
          rw [List.getElem?_set_self hlt] at hblock'
          cases hblock'
          exact (MappedBlock.wired_of_step
            (hwired.wired index block place hblock hplace)
            (hkeeps block hblock place hplace) hnext).1
        · rw [List.getElem?_set_ne hsame] at hblock'
          exact hwired.wired other block' place hblock' hplace

/-- A move of one device is seen as the move of that device. -/
theorem view_of_device (happart : Apart layout) {index : Nat} {place : Place}
    (hplace : layout[index]? = some place) {memory : Bridge}
    (hlocal : place.Local system.memory memory)
    (hfault : ∀ block ∈ system.blocks[index]?, block.fault = none) :
    (system.view layout).step (.block index (.device (place.device memory))) =
      some (({ system with memory := memory } : MappedSystem).view layout) := by
  let after : MappedSystem := { system with memory := memory }
  have hafter : after.seenAt index place =
      { system.seenAt index place with device := place.device memory } := by
    simp only [seenAt, after]
    cases system.blocks[index]? <;> rfl
  have hnone : (system.seenAt index place).fault = none := by
    unfold seenAt
    split
    · rfl
    · next block hblock => exact hfault block hblock
  have hmoved : (system.seenAt index place).step (.device (place.device memory)) =
      some (after.seenAt index place) := by
    rw [hafter]
    simp only [Block.step, hnone, Block.act, ↓reduceIte]
  have hseen : (system.view layout).blocks[index]? =
      some (system.seenAt index place) := by
    rw [getElem?_view, hplace, Option.map_some]
  have hview : (after.view layout).blocks =
      (system.view layout).blocks.set index (after.seenAt index place) :=
    view_of_local happart hplace hlocal fun _ _ => rfl
  have hmove : (system.view layout).BlockMove index (system.seenAt index place)
      (after.seenAt index place) (.device (place.device memory))
        (after.view layout) := by
    have heq : after.view layout = { system.view layout with
        blocks :=
          (system.view layout).blocks.set index (after.seenAt index place) } := by
      rw [← hview]
      rfl
    rw [heq]
    apply System.BlockMove.own
    · intro result h
      cases h
    · intro h
      cases h
  exact Option.bind_eq_some_iff.mpr
    ⟨_, hseen, System.blockStep_of_blockMove hmoved hmove⟩

/-- What one step is seen as. -/
theorem view_of_step (happart : Apart layout) (hwired : system.Wired layout)
    {action : Action} (hkeeps : system.Keeps layout action)
    (hstep : system.step action = some after) :
    (action.view layout system = none ∧ after.view layout = system.view layout) ∨
      ∃ seen, action.view layout system = some seen ∧
        (system.view layout).step seen = some (after.view layout) := by
  cases action with
  | produce id size data =>
      cases hstep
      exact Or.inr ⟨_, rfl, rfl⟩
  | consume =>
      cases hstep
      exact Or.inr ⟨_, rfl, rfl⟩
  | construct crAddr =>
      cases hstep
      refine Or.inl ⟨rfl, ?_⟩
      have hseen : ∀ index place,
          ({ system with blocks := system.blocks ++ [.construct crAddr] } :
            MappedSystem).seenAt index place = system.seenAt index place := by
        intro index place
        rcases Nat.lt_trichotomy index system.blocks.length with hold | hnew | hlater
        · simp only [seenAt, List.getElem?_append_left hold]
        · subst hnew
          simp only [seenAt, List.getElem?_concat_length, Nat.le_refl,
            List.getElem?_eq_none]
          rfl
        · have hnone : (system.blocks ++ [MappedBlock.construct crAddr])[index]? =
              none := by
            apply List.getElem?_eq_none
            rw [List.length_append]
            exact hlater
          simp only [seenAt, hnone, List.getElem?_eq_none (Nat.le_of_lt hlater)]
      rw [view, funext fun index => funext (hseen index)]
      rfl
  | device index react =>
      obtain ⟨hfault, hdevice⟩ := Option.ite_none_right_eq_some.mp hstep
      cases hdevice
      obtain ⟨place, hmem, hlocal⟩ := hkeeps
      have hplace : layout[index]? = some place := hmem
      refine Or.inr ⟨_, ?_, view_of_device happart hplace hlocal hfault⟩
      rw [Action.view, hplace]
      rfl
  | block index action =>
      obtain ⟨block, hblock, hmove⟩ := Option.bind_eq_some_iff.mp hstep
      obtain ⟨next, hnext, hmove⟩ := blockMove_of_blockStep hmove
      have hlt := (List.getElem?_eq_some_iff.mp hblock).1
      have hbound := Nat.lt_of_lt_of_le hlt hwired.length_le
      have hplace := List.getElem?_eq_getElem hbound
      refine Or.inr ⟨_, ?_, view_of_blockMove happart hwired hblock hplace
        (hkeeps block hblock _ hplace) hnext hmove⟩
      simp only [Action.view, hplace, hblock, Option.bind_some, Option.map_some]

theorem wired_initial (layout : List Place) (memory : Bridge) :
    (initial memory).Wired layout := by
  refine ⟨Nat.zero_le _, ?_⟩
  intro index block place hblock
  cases hblock

theorem view_initial (layout : List Place) (memory : Bridge) :
    (initial memory).view layout =
      System.initial (layout.map fun place => place.device memory) := by
  have hblocks : layout.mapIdx (initial memory).seenAt =
      (layout.map fun place => place.device memory).map Block.construct := by
    apply List.ext_getElem?
    intro index
    rw [List.getElem?_mapIdx, List.getElem?_map, List.getElem?_map, Option.map_map]
    rfl
  rw [view, hblocks]
  rfl

/-- The devices keep to their places, and what is seen of the step is allowed. -/
def Allows (layout : List Place) (guard : System → System.Action → Prop)
    (system : MappedSystem) (action : Action) : Prop :=
  system.Keeps layout action ∧
    ∀ seen ∈ action.view layout system, guard (system.view layout) seen

/-- A step of a block is allowed where it is allowed in what is seen of the block. -/
theorem allows_block {kernel : Kernel} {index : Nat} {action : MappedBlock.Action}
    (h : ∀ block place, system.blocks[index]? = some block →
      layout[index]? = some place →
        MappedBlock.Keeps place block system.memory action ∧
          kernel.Serves (block.toBlock place system.memory)
            (action.view place block system.memory)) :
    Allows layout (System.Serves kernel) system (.block index action) := by
  refine ⟨fun block hblock place hplace => (h block place hblock hplace).1, ?_⟩
  intro seen hseen
  obtain ⟨place, hplace, hmap⟩ := Option.bind_eq_some_iff.mp hseen
  obtain ⟨block, hblock, rfl⟩ := Option.map_eq_some_iff.mp hmap
  intro other hother
  have hother' : (system.view layout).blocks[index]? = some other := hother
  rw [getElem?_view, hplace, Option.map_some,
    seenAt_of_getElem? place hblock] at hother'
  cases hother'
  exact (h block place hblock hplace).2

theorem wired_of_reaches {layout : List Place} {guard : System → System.Action → Prop}
    {memory : Bridge} {system : MappedSystem}
    (h : Machine.Reaches step (Allows layout guard) (initial memory) system) :
    system.Wired layout :=
  h.invariant (wired_initial layout memory) fun _ _ _ hwired hallows hstep =>
    hwired.step hallows.1 hstep

/-- Blocks on one memory refine blocks with devices of their own. -/
theorem refines_system {layout : List Place} (happart : Apart layout)
    {guard : System → System.Action → Prop} {memory : Bridge} {system : MappedSystem}
    (h : Machine.Reaches step (Allows layout guard) (initial memory) system) :
    Machine.Reaches System.step guard
      (System.initial (layout.map fun place => place.device memory))
      (system.view layout) := by
  rw [← view_initial]
  refine h.view_of (fun _ => wired_of_reaches) (view layout) ?_
  intro before action after hbefore hallows hstep
  rcases view_of_step happart hbefore hallows.1 hstep with
    ⟨_, hsame⟩ | ⟨seen, hview, hseen⟩
  · exact Or.inl hsame
  · exact Or.inr ⟨seen, hallows.2 seen hview, hseen⟩

/-- Every block that is constructed is seen at its place. -/
theorem Wired.mem_view (hwired : system.Wired layout) {block : MappedBlock}
    (hmem : block ∈ system.blocks) :
    ∃ place, block.toBlock place system.memory ∈ (system.view layout).blocks := by
  obtain ⟨index, hblock⟩ := List.getElem?_of_mem hmem
  have hlt := (List.getElem?_eq_some_iff.mp hblock).1
  have hbound := Nat.lt_of_lt_of_le hlt hwired.length_le
  refine ⟨layout[index], List.mem_of_getElem? (i := index) ?_⟩
  rw [getElem?_view, List.getElem?_eq_getElem hbound, Option.map_some,
    seenAt_of_getElem? _ hblock]

theorem sizes_of_layout {kernel : Kernel}
    (hsizes : ∀ place ∈ layout, place.input.length = kernel.inputPort.size.toNat ∧
      place.output.length = kernel.outputPort.size.toNat) (memory : Bridge) :
    ∀ device ∈ layout.map fun place => place.device memory,
      device.input.length = kernel.inputPort.size.toNat ∧
        device.output.length = kernel.outputPort.size.toNat := by
  intro device hmem
  obtain ⟨place, hplace, rfl⟩ := List.mem_map.mp hmem
  rw [Place.length_input, Place.length_output]
  exact hsizes place hplace

/-- Blocks on one memory compute their kernel.  Where no two devices have an address
in common and each keeps to its own, in every run from before the first constructor
on, every block is seen to have its device to itself.  So what is known of blocks
with devices of their own, whose ports are set where they take a chunk, is known of
these: no copy leaves a buffer, and each chunk that was pushed is made into the chunk
of its values, waits, or is worked on. -/
theorem computes_on_memory {layout : List Place} (happart : Apart layout)
    (kernel : Kernel)
    (hsizes : ∀ place ∈ layout, place.input.length = kernel.inputPort.size.toNat ∧
      place.output.length = kernel.outputPort.size.toNat)
    (memory : Bridge) {system : MappedSystem}
    (h : Machine.Reaches step (Allows layout (System.Serves kernel)) (initial memory)
      system) :
    Machine.Reaches System.step (System.Serves kernel)
        (System.initial (layout.map fun place => place.device memory))
        (system.view layout) ∧
      (∀ block ∈ system.blocks, block.fault = none) ∧
      ∃ owed : List DataChunk, system.made ++ owed ~ system.pushed.map kernel.apply ∧
        owed.map DataChunk.key =
          (system.view layout).held ++ system.inputQ.queue.map DataChunk.key := by
  have hreach := refines_system happart h
  have hserving := System.serving_of_reaches (sizes_of_layout hsizes memory) hreach
  refine ⟨hreach, ?_, (System.inv_of_reaches hreach).owed hserving⟩
  intro block hmem
  obtain ⟨place, hseen⟩ := (wired_of_reaches h).mem_view hmem
  exact (hserving.working _ hseen).noFault

/-- Two devices side by side, with ports of one byte. -/
def twoPlaces : List Place := [⟨⟨0, 1⟩, ⟨1, 1⟩, 16⟩, ⟨⟨2, 1⟩, ⟨3, 1⟩, 64⟩]

theorem apart_twoPlaces : Apart twoPlaces := ⟨by decide, by decide⟩

/-- The device at the first place is done with its output. -/
def addsOne (memory : Bridge) : Bridge :=
  AddressSpace.store (AddressSpace.store memory 1 [11]) 40 [2]

theorem local_addsOne (memory : Bridge) :
    Place.Local ⟨⟨0, 1⟩, ⟨1, 1⟩, 16⟩ memory (addsOne memory) :=
  Place.Local.trans (Place.local_store (List.mem_cons_of_mem _ List.mem_cons_self))
    (Place.local_store (by decide))

/-- The first block is constructed and gets its ports, takes the chunk that was
pushed, has its item added one by the device, and pushes the result. -/
theorem computes_on_memory_twoPlaces :
    ∃ system : MappedSystem,
      Machine.Reaches step (Allows twoPlaces (System.Serves System.addOne))
        (initial fun _ => 0) system ∧
      system.pushed = [⟨0, 7, 1, [10]⟩] ∧ system.made = [⟨0, 7, 1, [11]⟩] ∧
      Machine.Reaches System.step (System.Serves System.addOne)
        (System.initial [⟨[0], [0], 0⟩, ⟨[0], [0], 0⟩]) (system.view twoPlaces) ∧
      (∀ block ∈ system.blocks, block.fault = none) ∧
      ∃ owed : List DataChunk,
        system.made ++ owed ~ system.pushed.map System.addOne.apply ∧
          owed.map DataChunk.key = (system.view twoPlaces).held ++
            system.inputQ.queue.map DataChunk.key := by
  have hmove : ∀ {system after : MappedSystem} (action : Action),
      Machine.Reaches step (Allows twoPlaces (System.Serves System.addOne))
        (initial fun _ => 0) system →
      Allows twoPlaces (System.Serves System.addOne) system action →
      system.step action = some after →
      Machine.Reaches step (Allows twoPlaces (System.Serves System.addOne))
        (initial fun _ => 0) after :=
    fun _ hreach hallows hstep => hreach.tail hallows hstep
  have hworks : ∀ system : MappedSystem, Allows twoPlaces
      (System.Serves System.addOne) system (.block 0 .work) :=
    fun _ => allows_block fun _ _ _ _ => ⟨True.intro, True.intro⟩
  have hpushes : ∀ system : MappedSystem, Allows twoPlaces
      (System.Serves System.addOne) system (.block 0 .push) :=
    fun _ => allows_block fun _ _ _ _ => ⟨True.intro, True.intro⟩
  have hallocates : ∀ system : MappedSystem, Allows twoPlaces
      (System.Serves System.addOne) system (.block 0 (.allocate fun _ => 0)) :=
    fun _ => allows_block fun _ _ _ _ => ⟨True.intro, True.intro⟩
  have hconstructed := hmove (.construct 16) Machine.Reaches.refl
    ⟨⟨_, rfl, rfl⟩, fun _ hseen => by cases hseen⟩ rfl
  have hinputs := hmove (.block 0 (.setInputs 0 1)) hconstructed
    (allows_block fun _ _ _ hplace => by
      cases hplace
      exact ⟨⟨rfl, rfl⟩, rfl⟩) rfl
  have houtputs := hmove (.block 0 (.setOutputs 1 1)) hinputs
    (allows_block fun _ _ _ hplace => by
      cases hplace
      exact ⟨⟨rfl, rfl⟩, rfl⟩) rfl
  have hproduced := hmove (.produce 7 1 [10]) houtputs
    ⟨True.intro, fun _ hseen => by
      cases hseen
      decide⟩ rfl
  have hpopping := hmove (.block 0 .work) (hmove (.block 0 .work) hproduced
    (hworks _) rfl) (hworks _) rfl
  have htaken := hmove (.block 0 (.pop (some ⟨0, 7, 1, [10]⟩))) hpopping
    (allows_block fun _ _ hblock hplace => by
      cases hblock
      cases hplace
      exact ⟨True.intro, rfl, rfl⟩) rfl
  have hwritten := hmove (.block 0 .work) (hmove (.block 0 (.allocate fun _ => 0))
    htaken (hallocates _) rfl) (hworks _) rfl
  have hstarted := hmove (.block 0 (.start id)) hwritten
    (allows_block fun _ _ hblock hplace => by
      cases hblock
      cases hplace
      exact ⟨Place.Local.refl _ _, by decide⟩) rfl
  have hdone := hmove (.device 0 addsOne) hstarted
    ⟨⟨_, rfl, local_addsOne _⟩, fun _ hseen => by
      cases hseen
      intro block hblock
      cases hblock
      decide⟩ rfl
  have hread := hmove (.block 0 .work) (hmove (.block 0 .work) (hmove (.block 0 .work)
    hdone (hworks _) rfl) (hworks _) rfl) (hworks _) rfl
  have hrun := hmove (.block 0 .push) hread (hpushes _) rfl
  exact ⟨_, hrun, rfl, rfl,
    computes_on_memory apart_twoPlaces System.addOne (by decide) (fun _ => 0) hrun⟩

end MappedSystem

end FpgaFramework
