/-
One pass of the worker loop.  Between taking a chunk and pushing its results the
device is driven once for every item, and what is pushed is the function that the
device computes, applied item by item.
-/
import FpgaFramework.Block
import Mathlib.Data.List.Infix

namespace FpgaFramework

namespace Block

/-- A chunk that was taken, the ports that are set, and the function that the
device computes from the bytes of the one to the bytes of the other. -/
structure Pass where
  coming : DataChunk
  inputPort : Port
  outputPort : Port
  f : List UInt8 → List UInt8
  input_lt : coming.size.toNat * inputPort.size.toNat < 2 ^ 32
  output_lt : coming.size.toNat * outputPort.size.toNat < 2 ^ 32
  length_data : coming.data.length = coming.size.toNat * inputPort.size.toNat
  length_f : ∀ bytes, bytes.length = inputPort.size.toNat →
    (f bytes).length = outputPort.size.toNat

/-- What a pass does to the incoming buffer and to the output queue. -/
inductive Event where
  | read (item : Nat)
  | freed
  | pushed (chunk : DataChunk)
deriving Repr, DecidableEq

/-- The events of one step. -/
def note (block : Block) (action : Action) (_ : Block) : List Event :=
  match action, block.stage with
  | .work, .looping coming _ a =>
      if a < coming.size then [.read a.toNat] else [.freed]
  | .push, .pushing going => [.pushed going]
  | _, _ => []

namespace Pass

variable (pass : Pass)

/-- The bytes of item `a`. -/
def item (a : Nat) : List UInt8 :=
  (pass.coming.data.drop (a * pass.inputPort.size.toNat)).take
    pass.inputPort.size.toNat

/-- The results of the first `count` items, one after another. -/
def results (count : Nat) : List UInt8 :=
  (List.range count).flatMap fun a => pass.f (pass.item a)

/-- The chunk that the pass makes. -/
def result : DataChunk :=
  { pass.coming with data := pass.results pass.coming.size.toNat }

/-- The events of the whole pass. -/
def events : List Event :=
  (List.range pass.coming.size.toNat).map .read ++ [.freed, .pushed pass.result]

/-- What is assumed of a step of the pass.  The device leaves its input alone;
the store to its start register clears the done bit; it sets the bit only with
the function's value at its output, and then rests.  The ports stay as they
are, and the pass is over where the loop starts again. -/
def Serves (block : Block) : Action → Prop
  | .work => block.stage ≠ .finishing
  | .start device =>
      device.input = block.device.input ∧ device.isDone = false ∧
        device.output.length = block.device.output.length
  | .device device =>
      device.input = block.device.input ∧
        device.output.length = block.device.output.length ∧
        (block.device.isDone = true →
          device.isDone = true ∧ device.output = block.device.output) ∧
        (block.device.isDone = false → device.isDone = true →
          device.output = pass.f device.input)
  | .setInputs _ => False
  | .setOutputs _ => False
  | _ => True

instance (block : Block) (action : Action) : Decidable (pass.Serves block action) := by
  unfold Serves
  split <;> infer_instance

/-- The block has just taken the chunk, with its ports set. -/
structure Begins (block : Block) : Prop where
  stage_eq : block.stage = .allocating pass.coming
  noFault : block.fault = none
  inputPort_eq : block.inputPort = some pass.inputPort
  outputPort_eq : block.outputPort = some pass.outputPort
  length_input : block.device.input.length = pass.inputPort.size.toNat
  length_output : block.device.output.length = pass.outputPort.size.toNat

theorem results_succ (count : Nat) :
    pass.results (count + 1) = pass.results count ++ pass.f (pass.item count) := by
  rw [results, List.range_succ, List.flatMap_append, List.flatMap_singleton]
  rfl

theorem length_item {a : Nat} (ha : a < pass.coming.size.toNat) :
    (pass.item a).length = pass.inputPort.size.toNat := by
  have hle := record_stop_le ha pass.inputPort.size.toNat
  rw [item, List.length_take, List.length_drop, pass.length_data]
  omega

theorem length_results {count : Nat} (hcount : count ≤ pass.coming.size.toNat) :
    (pass.results count).length = count * pass.outputPort.size.toNat := by
  induction count with
  | zero =>
      rw [Nat.zero_mul]
      rfl
  | succ count ih =>
      rw [results_succ, List.length_append, ih (by omega),
        pass.length_f _ (pass.length_item hcount), Nat.succ_mul]

/-- Where the whole chunk fits 32 bits no offset wraps. -/
theorem itemOffset_eq {a : UInt32} {port : Port} (ha : a < pass.coming.size)
    (hsmall : pass.coming.size.toNat * port.size.toNat < 2 ^ 32) :
    itemOffset a port = a.toNat * port.size.toNat := by
  have hle := record_stop_le (UInt32.lt_iff_toNat_lt.mp ha) port.size.toNat
  rw [itemOffset, UInt32.toNat_mul, Nat.mod_eq_of_lt (by omega)]

/-- The copy to the input port puts the item there. -/
theorem writeItem_eq {device : Device} {a : UInt32} (ha : a < pass.coming.size)
    (hlength : device.input.length = pass.inputPort.size.toNat) :
    writeItem device pass.inputPort pass.coming a = some (pass.item a.toNat) := by
  have hlt := UInt32.lt_iff_toNat_lt.mp ha
  have hle := record_stop_le hlt pass.inputPort.size.toNat
  have hitem := pass.length_item hlt
  rw [writeItem, pass.itemOffset_eq ha pass.input_lt,
    Buffer.read_of_le (by rw [pass.length_data]; exact hle), Option.bind_some]
  change Buffer.write device.input 0 (pass.item a.toNat) = _
  rw [Buffer.write_of_le (by omega), Buffer.put, List.take_zero, List.nil_append,
    List.drop_eq_nil_iff.mpr (by omega), List.append_nil]

/-- The outgoing chunk with the results of the items before `a`, and the rest of
its buffer. -/
structure Filled (going : DataChunk) (a : Nat) (rest : List UInt8) : Prop where
  going_eq : going = { pass.coming with data := pass.results a ++ rest }
  length_data : going.data.length =
    pass.coming.size.toNat * pass.outputPort.size.toNat

/-- The copy from the output port puts the next result there. -/
theorem Filled.readItem {pass : Pass} {going : DataChunk} {a : UInt32}
    {rest : List UInt8} (hfilled : pass.Filled going a.toNat rest)
    (ha : a < pass.coming.size) {device : Device}
    (houtput : device.output = pass.f (pass.item a.toNat)) :
    ∃ data, readItem device pass.outputPort going a = some data ∧
      pass.Filled { going with data := data } (a.toNat + 1)
        (rest.drop pass.outputPort.size.toNat) := by
  have hlt := UInt32.lt_iff_toNat_lt.mp ha
  have hle := record_stop_le hlt pass.outputPort.size.toNat
  have hlength := pass.length_f _ (pass.length_item hlt)
  have hroom : itemOffset a pass.outputPort + device.output.length ≤
      going.data.length := by
    rw [pass.itemOffset_eq ha pass.output_lt, houtput, hlength, hfilled.length_data]
    exact hle
  have hread : Buffer.read device.output 0 pass.outputPort.size.toNat =
      some device.output := by
    rw [← hlength, ← houtput, Buffer.read_all]
  refine ⟨_, by rw [Block.readItem, hread, Option.bind_some,
    Buffer.write_of_le hroom], ?_, ?_⟩
  · have hdata : going.data = pass.results a.toNat ++ rest := by
      rw [hfilled.going_eq]
    have hoffset : itemOffset a pass.outputPort =
        (pass.results a.toNat).length := by
      rw [pass.itemOffset_eq ha pass.output_lt,
        pass.length_results (Nat.le_of_lt hlt)]
    rw [hoffset, hdata, Buffer.put_append, houtput, hlength, results_succ,
      hfilled.going_eq]
  · exact (Buffer.length_put hroom).trans hfilled.length_data

/-- The reads of the first `count` items. -/
def reads (count : Nat) : List Event := (List.range count).map .read

theorem reads_succ (count : Nat) : reads (count + 1) = reads count ++ [.read count] := by
  rw [reads, List.range_succ, List.map_append]
  rfl

/-- Inside the loop, with the results of the items before `a`. -/
structure AtItem (coming going : DataChunk) (a : Nat) : Prop where
  coming_eq : coming = pass.coming
  le : a ≤ pass.coming.size.toNat
  filled : ∃ rest, pass.Filled going a rest

/-- Item `a` was read, and its result is awaited. -/
structure InItem (coming going : DataChunk) (a : UInt32) (notes : List Event) :
    Prop where
  atItem : pass.AtItem coming going a.toNat
  lt : a < pass.coming.size
  notes_eq : notes = reads (a.toNat + 1)

/-- What is known at each stage of the pass about the device and the events. -/
def AtStage (device : Device) (notes : List Event) : Stage → Prop
  | .allocating coming => coming = pass.coming ∧ notes = []
  | .looping coming going a =>
      pass.AtItem coming going a.toNat ∧ notes = reads a.toNat
  | .starting coming going a =>
      pass.InItem coming going a notes ∧ device.input = pass.item a.toNat
  | .polling coming going a =>
      pass.InItem coming going a notes ∧ device.input = pass.item a.toNat ∧
        (device.isDone = true → device.output = pass.f (pass.item a.toNat))
  | .reading coming going a =>
      pass.InItem coming going a notes ∧ device.isDone = true ∧
        device.output = pass.f (pass.item a.toNat)
  | .pushing going =>
      going = pass.result ∧ notes = reads pass.coming.size.toNat ++ [.freed]
  | .finishing => notes = pass.events
  | _ => False

/-- What holds in every state of the pass. -/
structure Inv (block : Block) (notes : List Event) : Prop where
  noFault : block.fault = none
  inputPort_eq : block.inputPort = some pass.inputPort
  outputPort_eq : block.outputPort = some pass.outputPort
  length_input : block.device.input.length = pass.inputPort.size.toNat
  length_output : block.device.output.length = pass.outputPort.size.toNat
  atStage : pass.AtStage block.device notes block.stage

theorem Begins.inv {pass : Pass} {block : Block} (h : pass.Begins block) :
    pass.Inv block [] := by
  refine ⟨h.noFault, h.inputPort_eq, h.outputPort_eq, h.length_input,
    h.length_output, ?_⟩
  rw [h.stage_eq]
  exact ⟨rfl, rfl⟩

theorem atItem_outgoing (memory : Nat → UInt8) :
    pass.AtItem pass.coming (outgoing pass.coming pass.outputPort memory) 0 := by
  refine ⟨rfl, Nat.zero_le _, ⟨_, rfl, ?_⟩⟩
  rw [outgoing, List.length_map, List.length_range, UInt32.toNat_mul,
    Nat.mod_eq_of_lt pass.output_lt]

/-- When the loop ends, the outgoing chunk is filled. -/
theorem AtItem.left {pass : Pass} {coming going : DataChunk} {a : Nat}
    (h : pass.AtItem coming going a) (ha : ¬a < coming.size.toNat) :
    a = pass.coming.size.toNat ∧ going = pass.result := by
  rw [h.coming_eq] at ha
  have heq : a = pass.coming.size.toNat := Nat.le_antisymm h.le (Nat.le_of_not_lt ha)
  subst heq
  obtain ⟨rest, hgoing, hlength⟩ := h.filled
  have hnil : rest = [] := by
    rw [hgoing, List.length_append, pass.length_results h.le] at hlength
    apply List.length_eq_zero_iff.mp
    omega
  refine ⟨rfl, ?_⟩
  rw [hgoing, hnil, List.append_nil]
  rfl

theorem toNat_succ {a : UInt32} (ha : a < pass.coming.size) :
    (a + 1).toNat = a.toNat + 1 := by
  have hlt := UInt32.lt_iff_toNat_lt.mp ha
  have hsize := pass.coming.size.toNat_lt
  rw [UInt32.toNat_add]
  exact Nat.mod_eq_of_lt (by change a.toNat + 1 < 2 ^ 32; omega)

/-- After the copy of a result the loop is at the next item. -/
theorem InItem.next {pass : Pass} {coming going : DataChunk} {a : UInt32}
    {notes : List Event} {device : Device} {data : List UInt8}
    (h : pass.InItem coming going a notes)
    (houtput : device.output = pass.f (pass.item a.toNat))
    (hread : Block.readItem device pass.outputPort going a = some data) :
    pass.AtItem coming { going with data := data } (a + 1).toNat ∧
      notes = reads (a + 1).toNat := by
  obtain ⟨rest, hfilled⟩ := h.atItem.filled
  obtain ⟨filled, hsome, hnext⟩ := hfilled.readItem h.lt houtput
  rw [hread, Option.some.injEq] at hsome
  have hlt := UInt32.lt_iff_toNat_lt.mp h.lt
  rw [pass.toNat_succ h.lt]
  exact ⟨⟨h.atItem.coming_eq, hlt, ⟨_, hsome ▸ hnext⟩⟩, h.notes_eq⟩

theorem Inv.eq_inputPort {pass : Pass} {block : Block} {notes : List Event}
    (hinv : pass.Inv block notes) {port : Port}
    (hport : block.inputPort = some port) : port = pass.inputPort :=
  Option.some.inj (hport.symm.trans hinv.inputPort_eq)

theorem Inv.eq_outputPort {pass : Pass} {block : Block} {notes : List Event}
    (hinv : pass.Inv block notes) {port : Port}
    (hport : block.outputPort = some port) : port = pass.outputPort :=
  Option.some.inj (hport.symm.trans hinv.outputPort_eq)

/-- A step that moves the device, or the thread to another stage. -/
theorem Inv.move {pass : Pass} {block : Block} {notes : List Event}
    (hinv : pass.Inv block notes) {device : Device} {stage : Stage}
    {more : List Event}
    (hinput : device.input.length = block.device.input.length)
    (houtput : device.output.length = block.device.output.length)
    (h : pass.AtStage device (notes ++ more) stage) :
    pass.Inv { block with device := device, stage := stage } (notes ++ more) :=
  ⟨hinv.noFault, hinv.inputPort_eq, hinv.outputPort_eq,
    hinput.trans hinv.length_input, houtput.trans hinv.length_output, h⟩

/-- What is known of a resting or working device stays true when it moves. -/
theorem AtStage.device {pass : Pass} {before after : Device}
    {notes : List Event} {stage : Stage}
    (h : pass.AtStage before notes stage) (hinput : after.input = before.input)
    (hrests : before.isDone = true →
      after.isDone = true ∧ after.output = before.output)
    (hanswers : before.isDone = false → after.isDone = true →
      after.output = pass.f after.input) : pass.AtStage after notes stage := by
  cases stage with
  | starting coming going a =>
      obtain ⟨hitem, hin⟩ := h
      exact ⟨hitem, hinput.trans hin⟩
  | polling coming going a =>
      obtain ⟨hitem, hin, hout⟩ := h
      refine ⟨hitem, hinput.trans hin, fun hdone => ?_⟩
      cases hbefore : before.isDone with
      | false => rw [hanswers hbefore hdone, hinput, hin]
      | true => rw [(hrests hbefore).2, hout hbefore]
  | reading coming going a =>
      obtain ⟨hitem, hdone, hout⟩ := h
      exact ⟨hitem, (hrests hdone).1, (hrests hdone).2.trans hout⟩
  | _ => exact h

theorem Inv.transition {pass : Pass} {block after : Block} {action : Action}
    {notes : List Event} (hinv : pass.Inv block notes)
    (hserves : pass.Serves block action) (h : Transition block action after) :
    pass.Inv after (notes ++ note block action after) := by
  have hat := hinv.atStage
  cases h with
  | stopped hstage | checked hstage | marked hstage | popEmpty hstage
  | popped hstage =>
      rw [hstage] at hat
      exact absurd hat id
  | allocateUnset _ hport | readUnset _ hport =>
      rw [hinv.outputPort_eq] at hport
      cases hport
  | writeUnset _ _ hport =>
      rw [hinv.inputPort_eq] at hport
      cases hport
  | allocated hstage hport =>
      rw [hstage] at hat
      obtain ⟨rfl, rfl⟩ := hat
      obtain rfl := hinv.eq_outputPort hport
      simp only [note]
      exact hinv.move rfl rfl ⟨pass.atItem_outgoing _, rfl⟩
  | writeOutside hstage ha hport hwrite =>
      rw [hstage] at hat
      obtain rfl := hinv.eq_inputPort hport
      rw [hat.1.coming_eq] at ha hwrite
      rw [pass.writeItem_eq ha hinv.length_input] at hwrite
      cases hwrite
  | wrote hstage ha hport hwrite =>
      rw [hstage] at hat
      obtain rfl := hinv.eq_inputPort hport
      obtain ⟨hitem, hnotes⟩ := hat
      simp only [note, hstage, if_pos ha]
      rw [hitem.coming_eq] at ha hwrite
      rw [pass.writeItem_eq ha hinv.length_input, Option.some.injEq] at hwrite
      subst hwrite
      apply hinv.move
      · rw [hinv.length_input]
        exact pass.length_item (UInt32.lt_iff_toNat_lt.mp ha)
      · rfl
      · exact ⟨⟨hitem, ha, by rw [hnotes, reads_succ]⟩, rfl⟩
  | left hstage ha =>
      rw [hstage] at hat
      obtain ⟨hitem, hnotes⟩ := hat
      obtain ⟨hlast, hgoing⟩ :=
        hitem.left (fun hlt => ha (UInt32.lt_iff_toNat_lt.mpr hlt))
      simp only [note, hstage, if_neg ha]
      apply hinv.move rfl rfl
      exact ⟨hgoing, by rw [hnotes, hlast]⟩
  | started hstage =>
      rw [hstage] at hat
      obtain ⟨hitem, hin⟩ := hat
      obtain ⟨hinput, hclear, houtput⟩ := hserves
      simp only [note]
      apply hinv.move (congrArg List.length hinput) houtput
      rw [List.append_nil]
      refine ⟨hitem, hinput.trans hin, fun hdone => ?_⟩
      rw [hclear] at hdone
      cases hdone
  | pollBusy hstage =>
      simp only [note, hstage, List.append_nil]
      exact hinv
  | pollDone hstage hdone =>
      rw [hstage] at hat
      obtain ⟨hitem, _, hout⟩ := hat
      simp only [note, hstage]
      rw [← List.append_nil notes] at hitem
      exact hinv.move rfl rfl ⟨hitem, hdone, hout hdone⟩
  | readOutside hstage hport hread =>
      rw [hstage] at hat
      obtain ⟨hitem, _, hout⟩ := hat
      obtain rfl := hinv.eq_outputPort hport
      obtain ⟨rest, hfilled⟩ := hitem.atItem.filled
      obtain ⟨data, hsome, _⟩ := hfilled.readItem hitem.lt hout
      rw [hread] at hsome
      cases hsome
  | read hstage hport hread =>
      rw [hstage] at hat
      obtain ⟨hitem, _, hout⟩ := hat
      obtain rfl := hinv.eq_outputPort hport
      simp only [note, hstage]
      rw [← List.append_nil notes] at hitem
      exact hinv.move rfl rfl (hitem.next hout hread)
  | pushed hstage =>
      rw [hstage] at hat
      obtain ⟨hgoing, hnotes⟩ := hat
      simp only [note, hstage]
      apply hinv.move rfl rfl
      change notes ++ _ = pass.events
      rw [hnotes, hgoing, List.append_assoc]
      rfl
  | finished hstage => exact absurd hstage hserves
  | device =>
      obtain ⟨hinput, houtput, hrests, hanswers⟩ := hserves
      simp only [note]
      apply hinv.move (congrArg List.length hinput) houtput
      rw [List.append_nil]
      exact hat.device hinput hrests hanswers
  | setInputs | setOutputs => exact absurd hserves id
  | setState =>
      simp only [note, List.append_nil]
      exact ⟨hinv.noFault, hinv.inputPort_eq, hinv.outputPort_eq,
        hinv.length_input, hinv.length_output, hat⟩

theorem reads_isPrefix {count total : Nat} (h : count ≤ total) :
    reads count <+: reads total := by
  have hrange : List.range count <+: List.range total := by
    rw [← Nat.add_sub_cancel' h, List.range_add]
    exact List.prefix_append _ _
  exact hrange.map Event.read

/-- At every stage the events so far begin the events of the whole pass. -/
theorem AtStage.events_isPrefix {pass : Pass} {device : Device}
    {notes : List Event} {stage : Stage} (h : pass.AtStage device notes stage) :
    notes <+: pass.events := by
  have hreads : ∀ count ≤ pass.coming.size.toNat, reads count <+: pass.events := by
    intro count hle
    exact (reads_isPrefix hle).trans (List.prefix_append _ _)
  cases stage with
  | allocating coming =>
      rw [h.2]
      exact List.nil_prefix
  | looping coming going a =>
      rw [h.2]
      exact hreads _ h.1.le
  | starting coming going a | polling coming going a | reading coming going a =>
      rw [h.1.notes_eq]
      exact hreads _ (UInt32.lt_iff_toNat_lt.mp h.1.lt)
  | pushing going =>
      rw [h.2, events]
      exact (List.prefix_append_right_inj _).mpr (List.prefix_append [Event.freed] _)
  | finishing =>
      have heq : notes = pass.events := h
      rw [heq]
  | checking | marking | popping => exact absurd h id

/-- How much of the pass is left: five steps for every item. -/
def remaining (block : Block) : Nat :=
  match block.stage with
  | .allocating coming => 5 * coming.size.toNat + 4
  | .looping coming _ a => 5 * (coming.size.toNat - a.toNat) + 3
  | .starting coming _ a => 5 * (coming.size.toNat - a.toNat) + 2
  | .polling coming _ a =>
      5 * (coming.size.toNat - a.toNat) + if block.device.isDone then 0 else 1
  | .reading coming _ a => 5 * (coming.size.toNat - a.toNat) - 1
  | .pushing _ => 1
  | _ => 0

/-- The device sets its done bit. -/
def answer (pass : Pass) (device : Device) : Device :=
  { device with output := pass.f device.input, status := 2 }

theorem isDone_answer (device : Device) : (pass.answer device).isDone = true := by
  change (((2 : UInt8) &&& 0x02) >>> 1 == 1) = true
  decide

/-- The device clears its done bit. -/
def clear (device : Device) : Device := { device with status := 0 }

theorem isDone_clear (device : Device) : (clear device).isDone = false := by
  change (((0 : UInt8) &&& 0x02) >>> 1 == 1) = false
  decide

theorem Inv.progress {pass : Pass} {block : Block} {notes : List Event}
    (hinv : pass.Inv block notes) (hgoal : block.stage ≠ .finishing) :
    ∃ action after, pass.Serves block action ∧ block.step action = some after ∧
      remaining after < remaining block := by
  have hat := hinv.atStage
  have hfault := hinv.noFault
  cases hstage : block.stage with
  | checking | marking | popping =>
      rw [hstage] at hat
      exact absurd hat id
  | allocating coming =>
      rw [hstage] at hat
      refine ⟨.allocate fun _ => 0, { block with
        stage := .looping coming (outgoing coming pass.outputPort fun _ => 0) 0 },
        True.intro, ?_, ?_⟩
      · simp only [step, hfault, act, hstage, hinv.outputPort_eq, ↓reduceIte]
      · simp [remaining, hstage]
  | looping coming going a =>
      rw [hstage] at hat
      by_cases ha : a < coming.size
      · have hwrite := pass.writeItem_eq (hat.1.coming_eq ▸ ha) hinv.length_input
        rw [← hat.1.coming_eq] at hwrite
        refine ⟨.work, { block with
          device := { block.device with input := pass.item a.toNat }
          stage := .starting coming going a }, hgoal, ?_, ?_⟩
        · simp only [step, hfault, act, work, hstage, if_pos ha,
            hinv.inputPort_eq, hwrite, ↓reduceIte]
        · simp [remaining, hstage]
      · refine ⟨.work, { block with stage := .pushing going }, hgoal, ?_, ?_⟩
        · simp only [step, hfault, act, work, hstage, if_neg ha, ↓reduceIte]
        · simp [remaining, hstage]
  | starting coming going a =>
      refine ⟨.start (clear block.device), { block with
        device := clear block.device
        stage := .polling coming going a },
        ⟨rfl, isDone_clear block.device, rfl⟩, ?_, ?_⟩
      · simp only [step, hfault, act, hstage, ↓reduceIte]
      · simp [remaining, hstage, isDone_clear]
  | polling coming going a =>
      cases hdone : block.device.isDone with
      | false =>
          refine ⟨.device (pass.answer block.device), { block with
            device := pass.answer block.device }, ⟨rfl, ?_, ?_, ?_⟩, ?_, ?_⟩
          · rw [hinv.length_output]
            exact pass.length_f _ hinv.length_input
          · intro hother
            rw [hdone] at hother
            cases hother
          · intro _ _
            rfl
          · simp only [step, hfault, act, ↓reduceIte]
          · simp [remaining, hstage, hdone, isDone_answer]
      | true =>
          rw [hstage] at hat
          have hlt := UInt32.lt_iff_toNat_lt.mp hat.1.lt
          rw [← hat.1.atItem.coming_eq] at hlt
          refine ⟨.work, { block with stage := .reading coming going a },
            hgoal, ?_, ?_⟩
          · simp only [step, hfault, act, work, hstage, hdone, ↓reduceIte]
          · simp only [remaining, hstage, hdone, ↓reduceIte]
            omega
  | reading coming going a =>
      rw [hstage] at hat
      obtain ⟨hitem, _, hout⟩ := hat
      obtain ⟨rest, hfilled⟩ := hitem.atItem.filled
      obtain ⟨data, hread, _⟩ := hfilled.readItem hitem.lt hout
      have hlt := UInt32.lt_iff_toNat_lt.mp hitem.lt
      refine ⟨.work, { block with
        stage := .looping coming { going with data := data } (a + 1) },
        hgoal, ?_, ?_⟩
      · simp only [step, hfault, act, work, hstage, hinv.outputPort_eq, hread,
          ↓reduceIte]
      · rw [← hitem.atItem.coming_eq] at hlt
        simp only [remaining, hstage, pass.toNat_succ hitem.lt]
        omega
  | pushing going =>
      refine ⟨.push, { block with stage := .finishing }, True.intro, ?_, ?_⟩
      · simp only [step, hfault, act, hstage, ↓reduceIte]
      · simp [remaining, hstage]
  | finishing => exact absurd hstage hgoal

theorem inv_of_records {pass : Pass} {block last : Block} {notes : List Event}
    (hbegins : pass.Begins block)
    (h : Machine.Records step note pass.Serves block last notes) :
    pass.Inv last notes := by
  refine h.invariant hbegins.inv ?_
  intro before action after notes _ hinv hserves hstep
  obtain ⟨_, htransition⟩ := transition_of_step hstep
  exact hinv.transition hserves htransition

/-- From every state of the pass its end can be reached. -/
theorem Inv.finishes {pass : Pass} {block : Block} {notes : List Event}
    (hinv : pass.Inv block notes) :
    ∃ last, Machine.Reaches step pass.Serves block last ∧
      last.stage = .finishing := by
  have hprogress : ∀ block : Block, (∃ notes, pass.Inv block notes) →
      ¬block.stage = .finishing → ∃ action after, pass.Serves block action ∧
        block.step action = some after ∧ (∃ notes, pass.Inv after notes) ∧
          remaining after < remaining block := by
    rintro block ⟨notes, hinv⟩ hgoal
    obtain ⟨action, after, hserves, hstep, hless⟩ := hinv.progress hgoal
    obtain ⟨_, htransition⟩ := transition_of_step hstep
    exact ⟨action, after, hserves, hstep,
      ⟨_, hinv.transition hserves htransition⟩, hless⟩
  exact Machine.reaches_of_measure remaining hprogress ⟨notes, hinv⟩

end Pass

/-- A block computes its function item by item.  In every run of a pass, with
any device that computes `f` in any number of polls, the thread reads the items
one after another, then frees the incoming buffer, then pushes the one chunk that
holds their results; no copy leaves its buffer, and the pass can always end. -/
theorem work_maps (pass : Pass) {block last : Block} {notes : List Event}
    (hbegins : pass.Begins block)
    (h : Machine.Records step note pass.Serves block last notes) :
    last.fault = none ∧ notes <+: pass.events ∧
      (last.stage = .finishing → notes = pass.events) ∧
      ∃ final, Machine.Reaches step pass.Serves last final ∧
        final.stage = .finishing := by
  have hinv := Pass.inv_of_records hbegins h
  refine ⟨hinv.noFault, hinv.atStage.events_isPrefix, ?_, hinv.finishes⟩
  intro hstage
  have hat := hinv.atStage
  rw [hstage] at hat
  exact hat

/-- Two items of one byte each, and a device that adds one. -/
def twoItems : Pass where
  coming := ⟨0, 7, 2, [10, 20]⟩
  inputPort := ⟨1⟩
  outputPort := ⟨1⟩
  f := List.map (· + 1)
  input_lt := by decide
  output_lt := by decide
  length_data := rfl
  length_f bytes h := by rw [List.length_map, h]

/-- A block that has taken the two items. -/
def taken : Block where
  state := .busy
  inputPort := some ⟨1⟩
  outputPort := some ⟨1⟩
  device := ⟨[0], [0], 2⟩
  stage := .allocating ⟨0, 7, 2, [10, 20]⟩
  fault := none

theorem work_maps_twoItems :
    ∃ last : Block,
      Machine.Records step note twoItems.Serves taken last
        [.read 0, .read 1, .freed, .pushed ⟨0, 7, 2, [11, 21]⟩] ∧
      last.fault = none ∧
      [.read 0, .read 1, .freed, .pushed ⟨0, 7, 2, [11, 21]⟩] <+:
        twoItems.events ∧
      (last.stage = .finishing →
        [.read 0, .read 1, .freed, .pushed ⟨0, 7, 2, [11, 21]⟩] =
          twoItems.events) ∧
      ∃ final, Machine.Reaches step twoItems.Serves last final ∧
        final.stage = .finishing := by
  have hrun : Machine.Records step note twoItems.Serves taken
      { taken with device := ⟨[20], [21], 2⟩, stage := .finishing }
      [.read 0, .read 1, .freed, .pushed ⟨0, 7, 2, [11, 21]⟩] :=
    Machine.records_of_run
      [.allocate fun _ => 0, .work, .start ⟨[10], [0], 0⟩, .work,
        .device ⟨[10], [11], 2⟩, .work, .work, .work, .start ⟨[20], [11], 0⟩,
        .device ⟨[20], [21], 2⟩, .work, .work, .work, .push] (by rfl)
  exact ⟨_, hrun, work_maps twoItems ⟨rfl, rfl, rfl, rfl, rfl, rfl⟩ hrun⟩

end Block

end FpgaFramework
