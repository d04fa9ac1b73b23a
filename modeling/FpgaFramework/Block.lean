/-
The worker loop of a `Block`.  What its thread does between two accesses to
something shared: the queues, the state word that a controller writes, and the
ports and registers of the device it drives.
-/
import FpgaFramework.Buffer
import FpgaFramework.Machine

namespace FpgaFramework

/-- `utils::DataChunk`.  `ticket` is history: which push to the input queue the
chunk goes back to. -/
structure DataChunk where
  ticket : Nat
  id : UInt32
  size : UInt32
  data : List UInt8
deriving Repr, DecidableEq

/-- `Port`, less its address: every block has one region for each port. -/
structure Port where
  size : UInt32
deriving Repr, DecidableEq

/-- The regions behind the two ports and the byte at `_cr_addr + 0x18`. -/
structure Device where
  input : List UInt8
  output : List UInt8
  status : UInt8
deriving Repr, DecidableEq

/-- `Block::isDone`. -/
def Device.isDone (device : Device) : Bool :=
  (device.status &&& 0x02) >>> 1 == 1

namespace Block

/-- `Block::State`. -/
inductive State where
  | busy
  | done
  | stopped
  | ready
deriving Repr, DecidableEq

/-- Where `Block::work` is.  `coming` and `going` are its two chunks, `a` is the
counter of its inner loop; past the loop the buffer of `coming` is gone. -/
inductive Stage where
  | checking
  | marking
  | popping
  | allocating (coming : DataChunk)
  | looping (coming going : DataChunk) (a : UInt32)
  | starting (coming going : DataChunk) (a : UInt32)
  | polling (coming going : DataChunk) (a : UInt32)
  | reading (coming going : DataChunk) (a : UInt32)
  | pushing (going : DataChunk)
  | finishing
deriving Repr, DecidableEq

/-- What makes every later step meaningless: a copy that leaves one of its
buffers, and the use of a port that was not set. -/
inductive Fault where
  | outOfBounds
  | unsetPort
deriving Repr, DecidableEq

end Block

open Block in
/-- `Block`, with its thread. -/
structure Block where
  state : State
  inputPort : Option Port
  outputPort : Option Port
  device : Device
  stage : Stage
  fault : Option Fault
deriving Repr, DecidableEq

namespace Block

/-- The constructor sets no port, and starts the thread. -/
def construct (device : Device) : Block where
  state := .ready
  inputPort := none
  outputPort := none
  device := device
  stage := .checking
  fault := none

/-- Everything that can happen next.  `pop` carries what the queue gave,
`allocate` what the new buffer held, and `start` what the device makes of the
store to its start register. -/
inductive Action where
  | work
  | pop (result : Option DataChunk)
  | allocate (memory : Nat → UInt8)
  | start (device : Device)
  | push
  | device (device : Device)
  | setInputs (port : Port)
  | setOutputs (port : Port)
  | setState (state : State)

/-- `goingData` once it is allocated: `comingData.size * _output_port.size` is a
32-bit product. -/
def outgoing (coming : DataChunk) (port : Port) (memory : Nat → UInt8) :
    DataChunk :=
  { coming with
    data := (List.range (coming.size * port.size).toNat).map memory }

/-- The offset of item `a`, a 32-bit product. -/
def itemOffset (a : UInt32) (port : Port) : Nat := (a * port.size).toNat

/-- `writeRange32` from the incoming buffer to the input port. -/
def writeItem (device : Device) (port : Port) (coming : DataChunk) (a : UInt32) :
    Option (List UInt8) :=
  (Buffer.read coming.data (itemOffset a port) port.size.toNat).bind
    fun item => Buffer.write device.input 0 item

/-- `writeRange32` from the output port to the outgoing buffer. -/
def readItem (device : Device) (port : Port) (going : DataChunk) (a : UInt32) :
    Option (List UInt8) :=
  (Buffer.read device.output 0 port.size.toNat).bind
    fun item => Buffer.write going.data (itemOffset a port) item

/-- The thread's own next step, where it touches neither queue nor allocates. -/
def work (block : Block) : Option Block :=
  match block.stage with
  | .checking =>
      if block.state = .stopped then some block
      else some { block with stage := .marking }
  | .marking => some { block with state := .busy, stage := .popping }
  | .looping coming going a =>
      if a < coming.size then
        match block.inputPort with
        | none => some { block with fault := some .unsetPort }
        | some port =>
            match writeItem block.device port coming a with
            | none => some { block with fault := some .outOfBounds }
            | some input => some { block with
                device := { block.device with input := input }
                stage := .starting coming going a }
      else some { block with stage := .pushing going }
  | .polling coming going a =>
      if block.device.isDone then
        some { block with stage := .reading coming going a }
      else some block
  | .reading coming going a =>
      match block.outputPort with
      | none => some { block with fault := some .unsetPort }
      | some port =>
          match readItem block.device port going a with
          | none => some { block with fault := some .outOfBounds }
          | some data => some { block with
              stage := .looping coming { going with data := data } (a + 1) }
  | .finishing => some { block with state := .done, stage := .checking }
  | _ => none

/-- What each label does in a block that is still running. -/
def act (block : Block) : Action → Option Block
  | .work => block.work
  | .pop result =>
      match block.stage, result with
      | .popping, none => some { block with stage := .finishing }
      | .popping, some chunk => some { block with stage := .allocating chunk }
      | _, _ => none
  | .allocate memory =>
      match block.stage with
      | .allocating coming =>
          match block.outputPort with
          | none => some { block with fault := some .unsetPort }
          | some port => some { block with
              stage := .looping coming (outgoing coming port memory) 0 }
      | _ => none
  | .start device =>
      match block.stage with
      | .starting coming going a => some { block with
          device := device
          stage := .polling coming going a }
      | _ => none
  | .push =>
      match block.stage with
      | .pushing _ => some { block with stage := .finishing }
      | _ => none
  | .device device => some { block with device := device }
  | .setInputs port => some { block with inputPort := some port }
  | .setOutputs port => some { block with outputPort := some port }
  | .setState state => some { block with state := state }

def step (block : Block) (action : Action) : Option Block :=
  if block.fault = none then block.act action else none

/-- What one step can do. -/
inductive Transition (block : Block) : Action → Block → Prop
  | stopped (hstage : block.stage = .checking) (hstate : block.state = .stopped) :
      Transition block .work block
  | checked (hstage : block.stage = .checking) (hstate : block.state ≠ .stopped) :
      Transition block .work { block with stage := .marking }
  | marked (hstage : block.stage = .marking) :
      Transition block .work { block with state := .busy, stage := .popping }
  | popEmpty (hstage : block.stage = .popping) :
      Transition block (.pop none) { block with stage := .finishing }
  | popped {chunk : DataChunk} (hstage : block.stage = .popping) :
      Transition block (.pop (some chunk)) { block with stage := .allocating chunk }
  | allocateUnset {coming : DataChunk} {memory : Nat → UInt8}
      (hstage : block.stage = .allocating coming)
      (hport : block.outputPort = none) :
      Transition block (.allocate memory) { block with fault := some .unsetPort }
  | allocated {coming : DataChunk} {memory : Nat → UInt8} {port : Port}
      (hstage : block.stage = .allocating coming)
      (hport : block.outputPort = some port) :
      Transition block (.allocate memory)
        { block with stage := .looping coming (outgoing coming port memory) 0 }
  | writeUnset {coming going : DataChunk} {a : UInt32}
      (hstage : block.stage = .looping coming going a) (ha : a < coming.size)
      (hport : block.inputPort = none) :
      Transition block .work { block with fault := some .unsetPort }
  | writeOutside {coming going : DataChunk} {a : UInt32} {port : Port}
      (hstage : block.stage = .looping coming going a) (ha : a < coming.size)
      (hport : block.inputPort = some port)
      (hwrite : writeItem block.device port coming a = none) :
      Transition block .work { block with fault := some .outOfBounds }
  | wrote {coming going : DataChunk} {a : UInt32} {port : Port}
      {input : List UInt8}
      (hstage : block.stage = .looping coming going a) (ha : a < coming.size)
      (hport : block.inputPort = some port)
      (hwrite : writeItem block.device port coming a = some input) :
      Transition block .work
        { block with
          device := { block.device with input := input }
          stage := .starting coming going a }
  | left {coming going : DataChunk} {a : UInt32}
      (hstage : block.stage = .looping coming going a) (ha : ¬a < coming.size) :
      Transition block .work { block with stage := .pushing going }
  | started {coming going : DataChunk} {a : UInt32} {device : Device}
      (hstage : block.stage = .starting coming going a) :
      Transition block (.start device)
        { block with device := device, stage := .polling coming going a }
  | pollBusy {coming going : DataChunk} {a : UInt32}
      (hstage : block.stage = .polling coming going a)
      (hdone : block.device.isDone = false) :
      Transition block .work block
  | pollDone {coming going : DataChunk} {a : UInt32}
      (hstage : block.stage = .polling coming going a)
      (hdone : block.device.isDone = true) :
      Transition block .work { block with stage := .reading coming going a }
  | readUnset {coming going : DataChunk} {a : UInt32}
      (hstage : block.stage = .reading coming going a)
      (hport : block.outputPort = none) :
      Transition block .work { block with fault := some .unsetPort }
  | readOutside {coming going : DataChunk} {a : UInt32} {port : Port}
      (hstage : block.stage = .reading coming going a)
      (hport : block.outputPort = some port)
      (hread : readItem block.device port going a = none) :
      Transition block .work { block with fault := some .outOfBounds }
  | read {coming going : DataChunk} {a : UInt32} {port : Port}
      {data : List UInt8} (hstage : block.stage = .reading coming going a)
      (hport : block.outputPort = some port)
      (hread : readItem block.device port going a = some data) :
      Transition block .work
        { block with
          stage := .looping coming { going with data := data } (a + 1) }
  | pushed {going : DataChunk} (hstage : block.stage = .pushing going) :
      Transition block .push { block with stage := .finishing }
  | finished (hstage : block.stage = .finishing) :
      Transition block .work { block with state := .done, stage := .checking }
  | device {device : Device} :
      Transition block (.device device) { block with device := device }
  | setInputs {port : Port} :
      Transition block (.setInputs port) { block with inputPort := some port }
  | setOutputs {port : Port} :
      Transition block (.setOutputs port) { block with outputPort := some port }
  | setState {state : State} :
      Transition block (.setState state) { block with state := state }

variable {block after : Block}

theorem transition_of_work (h : block.work = some after) :
    Transition block .work after := by
  unfold work at h
  split at h
  · next hstage =>
      split at h
      · next hstate =>
          cases h
          exact Transition.stopped hstage hstate
      · next hstate =>
          cases h
          exact Transition.checked hstage hstate
  · next hstage =>
      cases h
      exact Transition.marked hstage
  · next coming going a hstage =>
      split at h
      · next ha =>
          split at h
          · next hport =>
              cases h
              exact Transition.writeUnset hstage ha hport
          · next port hport =>
              split at h
              · next hwrite =>
                  cases h
                  exact Transition.writeOutside hstage ha hport hwrite
              · next input hwrite =>
                  cases h
                  exact Transition.wrote hstage ha hport hwrite
      · next ha =>
          cases h
          exact Transition.left hstage ha
  · next coming going a hstage =>
      split at h
      · next hdone =>
          cases h
          exact Transition.pollDone hstage hdone
      · next hbusy =>
          cases h
          exact Transition.pollBusy hstage (eq_false_of_ne_true hbusy)
  · next coming going a hstage =>
      split at h
      · next hport =>
          cases h
          exact Transition.readUnset hstage hport
      · next port hport =>
          split at h
          · next hread =>
              cases h
              exact Transition.readOutside hstage hport hread
          · next data hread =>
              cases h
              exact Transition.read hstage hport hread
  · next hstage =>
      cases h
      exact Transition.finished hstage
  · cases h

theorem transition_of_act {action : Action} (h : block.act action = some after) :
    Transition block action after := by
  cases action with
  | work => exact transition_of_work h
  | pop result =>
      simp only [act] at h
      split at h
      · next hstage =>
          cases h
          exact Transition.popEmpty hstage
      · next hstage =>
          cases h
          exact Transition.popped hstage
      · cases h
  | allocate memory =>
      simp only [act] at h
      split at h
      · next coming hstage =>
          split at h
          · next hport =>
              cases h
              exact Transition.allocateUnset hstage hport
          · next port hport =>
              cases h
              exact Transition.allocated hstage hport
      · cases h
  | start device =>
      simp only [act] at h
      split at h
      · next hstage =>
          cases h
          exact Transition.started hstage
      · cases h
  | push =>
      simp only [act] at h
      split at h
      · next hstage =>
          cases h
          exact Transition.pushed hstage
      · cases h
  | device device =>
      cases h
      exact Transition.device
  | setInputs port =>
      cases h
      exact Transition.setInputs
  | setOutputs port =>
      cases h
      exact Transition.setOutputs
  | setState state =>
      cases h
      exact Transition.setState

/-- The inversion of `step`, which no later proof unfolds. -/
theorem transition_of_step {action : Action} (h : block.step action = some after) :
    block.fault = none ∧ Transition block action after := by
  obtain ⟨hfault, hact⟩ := Option.ite_none_right_eq_some.mp h
  exact ⟨hfault, transition_of_act hact⟩

end Block

end FpgaFramework
