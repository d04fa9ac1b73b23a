/-
The copies of a pass.  Where the offsets of the items and the size of the outgoing
buffer are 32-bit products that do not wrap, every copy stays in its buffer; where
one of them wraps, the slices overlap or the buffer is too small.
-/
import FpgaFramework.Block

namespace FpgaFramework

namespace Block

/-- What item `a` takes of a buffer, from its 32-bit offset on. -/
def slice (port : Port) (a : UInt32) : Range :=
  ⟨itemOffset a port, port.size.toNat⟩

/-- The block has just taken the chunk, with its ports set and a region of the
right size behind each of them. -/
structure Takes (coming : DataChunk) (inputPort outputPort : Port)
    (block : Block) : Prop where
  stage_eq : block.stage = .allocating coming
  noFault : block.fault = none
  inputPort_eq : block.inputPort = some inputPort
  outputPort_eq : block.outputPort = some outputPort
  length_input : block.device.input.length = inputPort.size.toNat
  length_output : block.device.output.length = outputPort.size.toNat

/-- The regions behind the ports keep their sizes and the ports stay as they are;
the pass is over where the loop starts again. -/
def Steady (block : Block) : Action → Prop
  | .work => block.stage ≠ .finishing
  | .start device =>
      device.input.length = block.device.input.length ∧
        device.output.length = block.device.output.length
  | .device device =>
      device.input.length = block.device.input.length ∧
        device.output.length = block.device.output.length
  | .setInputs _ => False
  | .setOutputs _ => False
  | _ => True

/-- The slices lie in their buffers and apart from each other, the outgoing buffer
has the exact size, and no run of the pass leaves a buffer, whatever the device
does. -/
structure CopiesInside (coming : DataChunk) (inputPort outputPort : Port) :
    Prop where
  reads_inside : ∀ a < coming.size,
    (slice inputPort a).stop ≤ coming.data.length
  allocated : ∀ memory, (outgoing coming outputPort memory).data.length =
    coming.size.toNat * outputPort.size.toNat
  writes_inside : ∀ memory, ∀ a < coming.size,
    (slice outputPort a).stop ≤ (outgoing coming outputPort memory).data.length
  reads_disjoint : ∀ a < coming.size, ∀ b < coming.size, a ≠ b →
    (slice inputPort a).Disjoint (slice inputPort b)
  writes_disjoint : ∀ a < coming.size, ∀ b < coming.size, a ≠ b →
    (slice outputPort a).Disjoint (slice outputPort b)
  noFault : ∀ block last, Takes coming inputPort outputPort block →
    Machine.Reaches step Steady block last → last.fault = none

theorem length_outgoing (coming : DataChunk) (port : Port)
    (memory : Nat → UInt8) :
    (outgoing coming port memory).data.length =
      coming.size.toNat * port.size.toNat % 2 ^ 32 := by
  rw [outgoing, List.length_map, List.length_range, UInt32.toNat_mul]

theorem offset_slice (port : Port) (a : UInt32) :
    (slice port a).offset = a.toNat * port.size.toNat % 2 ^ 32 := by
  rw [slice, itemOffset, UInt32.toNat_mul]

/-- The offset of the last item bounds all of them. -/
theorem offset_slice_of_small {port : Port} {a size : UInt32} (ha : a < size)
    (hsmall : (size.toNat - 1) * port.size.toNat < 2 ^ 32) :
    (slice port a).offset = a.toNat * port.size.toNat := by
  have hlt := UInt32.lt_iff_toNat_lt.mp ha
  have hle : a.toNat * port.size.toNat ≤ (size.toNat - 1) * port.size.toNat :=
    Nat.mul_le_mul_right _ (by omega)
  rw [offset_slice, Nat.mod_eq_of_lt (by omega)]

theorem stop_slice_le {port : Port} {a size : UInt32} (ha : a < size)
    (hsmall : (size.toNat - 1) * port.size.toNat < 2 ^ 32) :
    (slice port a).stop ≤ size.toNat * port.size.toNat := by
  have hstop := record_stop_le (UInt32.lt_iff_toNat_lt.mp ha) port.size.toNat
  rw [Range.stop, offset_slice_of_small ha hsmall]
  exact hstop

theorem disjoint_slices {port : Port} {a b size : UInt32} (ha : a < size)
    (hb : b < size) (hne : a ≠ b)
    (hsmall : (size.toNat - 1) * port.size.toNat < 2 ^ 32) :
    (slice port a).Disjoint (slice port b) := by
  simp only [Range.Disjoint, Range.stop, offset_slice_of_small ha hsmall,
    offset_slice_of_small hb hsmall]
  rcases Nat.lt_or_gt_of_ne (fun heq => hne (UInt32.toNat_inj.mp heq)) with
    hlt | hlt
  · exact Or.inl (record_stop_le hlt port.size.toNat)
  · exact Or.inr (record_stop_le hlt port.size.toNat)

/-- The first offset that wraps comes to lie in the first slice. -/
theorem exists_wrapped {count size : Nat} (hlarge : 2 ^ 32 ≤ count * size) :
    ∃ index, 0 < index ∧ index ≤ count ∧ index * size % 2 ^ 32 < size := by
  have hpos : 0 < size := by
    apply Nat.pos_of_ne_zero
    rintro rfl
    omega
  have hbelow := Nat.div_mul_le_self (2 ^ 32 - 1) size
  have habove := Nat.lt_div_mul_add (a := 2 ^ 32 - 1) hpos
  have hless : (2 ^ 32 - 1) / size < count := by
    apply Nat.lt_of_mul_lt_mul_right
    exact Nat.lt_of_le_of_lt hbelow (by omega)
  refine ⟨(2 ^ 32 - 1) / size + 1, Nat.succ_pos _, hless, ?_⟩
  rw [Nat.succ_mul]
  omega

theorem small_of_disjoint {port : Port} {size : UInt32}
    (h : ∀ a < size, ∀ b < size, a ≠ b →
      (slice port a).Disjoint (slice port b)) :
    (size.toNat - 1) * port.size.toNat < 2 ^ 32 := by
  by_contra hlarge
  obtain ⟨index, hpos, hindex, hwraps⟩ := exists_wrapped (Nat.le_of_not_lt hlarge)
  have hsize := size.toNat_lt
  have htoNat : (UInt32.ofNat index).toNat = index := by
    rw [UInt32.toNat_ofNat', Nat.mod_eq_of_lt (by omega)]
  have hfirst : (0 : UInt32) < size := by
    rw [UInt32.lt_iff_toNat_lt]
    change 0 < size.toNat
    omega
  have hlater : UInt32.ofNat index < size := by
    rw [UInt32.lt_iff_toNat_lt, htoNat]
    omega
  have hne : (0 : UInt32) ≠ UInt32.ofNat index := by
    intro heq
    rw [← UInt32.toNat_inj, htoNat] at heq
    change 0 = index at heq
    omega
  have hzero : (slice port 0).offset = 0 := by
    rw [offset_slice]
    change 0 * port.size.toNat % 2 ^ 32 = 0
    rw [Nat.zero_mul, Nat.zero_mod]
  have hapart := h 0 hfirst _ hlater hne
  rw [Range.Disjoint, Range.stop, Range.stop, hzero, offset_slice, htoNat] at hapart
  change 0 + port.size.toNat ≤ _ ∨ _ + port.size.toNat ≤ 0 at hapart
  omega

/-- A slice that lies in the incoming buffer is copied to the input port. -/
theorem writeItem_of_inside {device : Device} {port : Port} {coming : DataChunk}
    {a : UInt32} (hinside : (slice port a).stop ≤ coming.data.length)
    (hlength : device.input.length = port.size.toNat) :
    ∃ input, writeItem device port coming a = some input ∧
      input.length = device.input.length := by
  have hread : Buffer.read coming.data (itemOffset a port) port.size.toNat =
      some ((coming.data.drop (itemOffset a port)).take port.size.toNat) :=
    Buffer.read_of_le hinside
  have hitem : ((coming.data.drop (itemOffset a port)).take
      port.size.toNat).length = port.size.toNat := by
    simp only [Range.stop, slice] at hinside
    rw [List.length_take, List.length_drop]
    omega
  have hroom : 0 + ((coming.data.drop (itemOffset a port)).take
      port.size.toNat).length ≤ device.input.length := by
    omega
  refine ⟨_, ?_, Buffer.length_put hroom⟩
  rw [writeItem, hread, Option.bind_some, Buffer.write_of_le hroom]

/-- A slice that lies in the outgoing buffer is filled from the output port. -/
theorem readItem_of_inside {device : Device} {port : Port} {going : DataChunk}
    {a : UInt32} (hinside : (slice port a).stop ≤ going.data.length)
    (hlength : device.output.length = port.size.toNat) :
    ∃ data, readItem device port going a = some data ∧
      data.length = going.data.length := by
  have hread : Buffer.read device.output 0 port.size.toNat = some device.output := by
    rw [← hlength, Buffer.read_all]
  have hroom : itemOffset a port + device.output.length ≤ going.data.length := by
    rw [hlength]
    exact hinside
  refine ⟨_, ?_, Buffer.length_put hroom⟩
  rw [readItem, hread, Option.bind_some, Buffer.write_of_le hroom]

/-- What is known of the two chunks at each stage of the pass. -/
def ChunksAt (coming : DataChunk) (length : Nat) : Stage → Prop
  | .allocating chunk => chunk = coming
  | .looping chunk going _ => chunk = coming ∧ going.data.length = length
  | .starting chunk going a | .polling chunk going a | .reading chunk going a =>
      chunk = coming ∧ going.data.length = length ∧ a < coming.size
  | .pushing _ | .finishing => True
  | _ => False

/-- What holds in every state of the pass. -/
structure Copying (coming : DataChunk) (inputPort outputPort : Port)
    (block : Block) : Prop where
  noFault : block.fault = none
  inputPort_eq : block.inputPort = some inputPort
  outputPort_eq : block.outputPort = some outputPort
  length_input : block.device.input.length = inputPort.size.toNat
  length_output : block.device.output.length = outputPort.size.toNat
  chunks : ChunksAt coming (coming.size.toNat * outputPort.size.toNat) block.stage

theorem Takes.copying {coming : DataChunk} {inputPort outputPort : Port}
    {block : Block} (h : Takes coming inputPort outputPort block) :
    Copying coming inputPort outputPort block := by
  refine ⟨h.noFault, h.inputPort_eq, h.outputPort_eq, h.length_input,
    h.length_output, ?_⟩
  rw [h.stage_eq]
  rfl

theorem Copying.eq_inputPort {coming : DataChunk} {inputPort outputPort : Port}
    {block : Block} (h : Copying coming inputPort outputPort block) {port : Port}
    (hport : block.inputPort = some port) : port = inputPort :=
  Option.some.inj (hport.symm.trans h.inputPort_eq)

theorem Copying.eq_outputPort {coming : DataChunk} {inputPort outputPort : Port}
    {block : Block} (h : Copying coming inputPort outputPort block) {port : Port}
    (hport : block.outputPort = some port) : port = outputPort :=
  Option.some.inj (hport.symm.trans h.outputPort_eq)

/-- A step that moves the device, or the thread to another stage. -/
theorem Copying.move {coming : DataChunk} {inputPort outputPort : Port}
    {block : Block} (h : Copying coming inputPort outputPort block)
    {device : Device} {stage : Stage}
    (hinput : device.input.length = block.device.input.length)
    (houtput : device.output.length = block.device.output.length)
    (hchunks : ChunksAt coming (coming.size.toNat * outputPort.size.toNat) stage) :
    Copying coming inputPort outputPort
      { block with device := device, stage := stage } :=
  ⟨h.noFault, h.inputPort_eq, h.outputPort_eq, hinput.trans h.length_input,
    houtput.trans h.length_output, hchunks⟩

section Runs

variable {coming : DataChunk} {inputPort outputPort : Port}
  {block after : Block} {action : Action}

theorem Copying.transition
    (hreads : ∀ a < coming.size, (slice inputPort a).stop ≤ coming.data.length)
    (hallocated : ∀ memory, (outgoing coming outputPort memory).data.length =
      coming.size.toNat * outputPort.size.toNat)
    (hwrites : ∀ a < coming.size, (slice outputPort a).stop ≤
      coming.size.toNat * outputPort.size.toNat)
    (hinv : Copying coming inputPort outputPort block)
    (hsteady : Steady block action) (h : Transition block action after) :
    Copying coming inputPort outputPort after := by
  have hat := hinv.chunks
  cases h with
  | stopped hstage | checked hstage | marked hstage | popEmpty hstage
  | popped hstage =>
      rw [hstage] at hat
      exact absurd hat id
  | allocateUnset _ hport | readUnset _ hport =>
      rw [hinv.outputPort_eq] at hport
      cases hport
  | writeUnset _ _ hport =>
      rw [hinv.inputPort_eq] at hport
      cases hport
  | allocated hstage hport =>
      rw [hstage] at hat
      obtain rfl := hinv.eq_outputPort hport
      have heq : _ = coming := hat
      subst heq
      exact hinv.move rfl rfl ⟨rfl, hallocated _⟩
  | writeOutside hstage ha hport hwrite =>
      rw [hstage] at hat
      obtain rfl := hinv.eq_inputPort hport
      obtain ⟨rfl, _⟩ := hat
      obtain ⟨input, hsome, _⟩ :=
        writeItem_of_inside (hreads _ ha) hinv.length_input
      rw [hwrite] at hsome
      cases hsome
  | wrote hstage ha hport hwrite =>
      rw [hstage] at hat
      obtain rfl := hinv.eq_inputPort hport
      obtain ⟨rfl, hlength⟩ := hat
      obtain ⟨input, hsome, hinput⟩ :=
        writeItem_of_inside (hreads _ ha) hinv.length_input
      rw [hwrite, Option.some.injEq] at hsome
      subst hsome
      apply hinv.move hinput
      · rfl
      · exact ⟨rfl, hlength, ha⟩
  | left => exact hinv.move rfl rfl True.intro
  | started hstage =>
      rw [hstage] at hat
      exact hinv.move hsteady.1 hsteady.2 hat
  | pollBusy => exact hinv
  | pollDone hstage =>
      rw [hstage] at hat
      exact hinv.move rfl rfl hat
  | readOutside hstage hport hread =>
      rw [hstage] at hat
      obtain rfl := hinv.eq_outputPort hport
      obtain ⟨_, hlength, ha⟩ := hat
      obtain ⟨data, hsome, _⟩ :=
        readItem_of_inside (hlength ▸ hwrites _ ha) hinv.length_output
      rw [hread] at hsome
      cases hsome
  | read hstage hport hread =>
      rw [hstage] at hat
      obtain rfl := hinv.eq_outputPort hport
      obtain ⟨hchunk, hlength, ha⟩ := hat
      obtain ⟨data, hsome, hsame⟩ :=
        readItem_of_inside (hlength ▸ hwrites _ ha) hinv.length_output
      rw [hread, Option.some.injEq] at hsome
      subst hsome
      exact hinv.move rfl rfl ⟨hchunk, hsame.trans hlength⟩
  | pushed => exact hinv.move rfl rfl True.intro
  | finished hstage => exact absurd hstage hsteady
  | device =>
      exact hinv.move hsteady.1 hsteady.2 hat
  | setInputs | setOutputs => exact absurd hsteady id
  | setState =>
      exact ⟨hinv.noFault, hinv.inputPort_eq, hinv.outputPort_eq,
        hinv.length_input, hinv.length_output, hat⟩

end Runs

/-- The copies stay in their buffers exactly when neither the size of the outgoing
buffer nor the offset of the last item wraps. -/
theorem copiesInside_iff (coming : DataChunk) (inputPort outputPort : Port)
    (hdata : coming.data.length = coming.size.toNat * inputPort.size.toNat) :
    CopiesInside coming inputPort outputPort ↔
      coming.size.toNat * outputPort.size.toNat < 2 ^ 32 ∧
        (coming.size.toNat - 1) * inputPort.size.toNat < 2 ^ 32 := by
  constructor
  · intro hinside
    constructor
    · have hallocated := hinside.allocated fun _ => 0
      rw [length_outgoing] at hallocated
      rw [← hallocated]
      exact Nat.mod_lt _ (by decide)
    · exact small_of_disjoint hinside.reads_disjoint
  · rintro ⟨hsmall, hreads⟩
    have hwrites : (coming.size.toNat - 1) * outputPort.size.toNat < 2 ^ 32 :=
      Nat.lt_of_le_of_lt (Nat.mul_le_mul_right _ (Nat.sub_le _ _)) hsmall
    have hreadStop : ∀ a < coming.size,
        (slice inputPort a).stop ≤ coming.data.length := by
      intro a ha
      rw [hdata]
      exact stop_slice_le ha hreads
    have hallocated : ∀ memory, (outgoing coming outputPort memory).data.length =
        coming.size.toNat * outputPort.size.toNat := by
      intro memory
      rw [length_outgoing, Nat.mod_eq_of_lt hsmall]
    have hwriteStop : ∀ a < coming.size, (slice outputPort a).stop ≤
        coming.size.toNat * outputPort.size.toNat :=
      fun _ ha => stop_slice_le ha hwrites
    constructor
    · exact hreadStop
    · exact hallocated
    · intro memory a ha
      rw [hallocated]
      exact hwriteStop a ha
    · intro a ha b hb hne
      exact disjoint_slices ha hb hne hreads
    · intro a ha b hb hne
      exact disjoint_slices ha hb hne hwrites
    · intro block last htakes hreach
      have hcopying : Copying coming inputPort outputPort last := by
        apply hreach.invariant
        · exact htakes.copying
        · intro before action after hinv hsteady hstep
          obtain ⟨_, htransition⟩ := transition_of_step hstep
          exact hinv.transition hreadStop hallocated hwriteStop hsteady htransition
      exact hcopying.noFault

theorem copiesInside_iff_twoItems :
    CopiesInside ⟨0, 7, 2, [10, 20]⟩ ⟨1⟩ ⟨3⟩ ↔
      (2 : UInt32).toNat * (3 : UInt32).toNat < 2 ^ 32 ∧
        ((2 : UInt32).toNat - 1) * (1 : UInt32).toNat < 2 ^ 32 :=
  copiesInside_iff ⟨0, 7, 2, [10, 20]⟩ ⟨1⟩ ⟨3⟩ rfl

/-- For 2^16 items with results of 2^16 bytes a buffer of no bytes is allocated,
and the first result is written behind its end. -/
theorem copies_outside :
    (outgoing ⟨0, 7, 65536, List.replicate 65536 0⟩ ⟨65536⟩
      fun _ => 0).data.length = 0 ∧
    (slice ⟨65536⟩ 0).stop = 65536 ∧
    ¬CopiesInside ⟨0, 7, 65536, List.replicate 65536 0⟩ ⟨1⟩ ⟨65536⟩ := by
  have hnone : (outgoing ⟨0, 7, 65536, List.replicate 65536 0⟩ ⟨65536⟩
      fun _ => 0).data.length = 0 := by
    rw [length_outgoing]
    decide
  refine ⟨hnone, by decide, ?_⟩
  intro hinside
  have hwrite := hinside.writes_inside (fun _ => 0) 0 (by decide)
  rw [hnone] at hwrite
  revert hwrite
  decide

end Block

end FpgaFramework
