/-
The block benchmark.  One thread constructs the blocks and then pushes the chunks of
ten rounds, another one readies a block a round and pops as many results as a round
pushes; every way their steps and those of the blocks interleave.
-/
import FpgaFramework.BlockMemory

namespace FpgaFramework

open scoped List

/-- `main`, with `initEveryting` and `receivingThread`, which it calls. -/
inductive BlockBench.Main where
  | constructing (i : Nat)
  | settingInputs (i : Nat)
  | settingOutputs (i : Nat)
  | stopping (i : Nat)
  | starting
  | pushing (k i : Nat)
  | joining
  | returned
deriving Repr, DecidableEq

/-- `sendingT`, from before its thread is started. -/
inductive BlockBench.Sender where
  | waiting
  | readying (i : Nat)
  | popping (i count : Nat)
  | stopping (i : Nat)
  | returned
deriving Repr, DecidableEq

/-- The two threads and the blocks.  `received` is history: what `sendingT` popped. -/
structure BlockBench where
  system : MappedSystem
  main : BlockBench.Main
  sender : BlockBench.Sender
  received : List DataChunk

namespace BlockBench

def inputSize : UInt32 := 64 * 64 * 2 * 4

def outputSize : UInt32 := 64 * 64 * 4

def inSize : Nat := 1000

def dSize : UInt32 := 4

def hh : UInt32 := inputSize

/-- The addresses that `initEveryting` gives to block `i`, for the bridge at `base`. -/
def controlAddress (base i : Nat) : Nat := base + 0x84140 - i * 0x20

def inputAddress (base i : Nat) : Nat := base + i * 0xc000

def outputAddress (base i : Nat) : Nat := base + i * 0xc000 + 0x8000

/-- Before `main`, with the bridge's memory as it is. -/
def initial (memory : Bridge) : BlockBench where
  system := .initial memory
  main := .constructing 0
  sender := .waiting
  received := []

/-- The buffer of a new chunk: `data.size * hh` is a 32-bit product. -/
def newData (contents : Nat → UInt8) : List UInt8 :=
  (List.range (dSize * hh).toNat).map contents

/-- `receivingThread` after push `i` of round `k`. -/
def Main.pushed (k i : Nat) : Main :=
  if i + 1 < inSize then .pushing k (i + 1)
  else if k + 1 < 10 then .pushing (k + 1) 0 else .joining

/-- `sendingT` where it compares `count2` to `inSize`. -/
def Sender.counted (i count : Nat) : Sender :=
  if count = inSize then if i + 1 < 10 then .readying (i + 1) else .stopping 0
  else .popping i count

/-- A step of `main` that does `action` to the blocks. -/
def mainDoes (bench : BlockBench) (action : MappedSystem.Action) (main : Main) :
    Option BlockBench :=
  (bench.system.step action).map fun system =>
    { bench with system := system, main := main }

/-- A step of `sendingT` that does `action` to the blocks. -/
def senderDoes (bench : BlockBench) (action : MappedSystem.Action) (sender : Sender) :
    Option BlockBench :=
  (bench.system.step action).map fun system =>
    { bench with system := system, sender := sender }

def mainStep (base : Nat) (bench : BlockBench) (contents : Nat → UInt8) :
    Option BlockBench :=
  match bench.main with
  | .constructing i =>
      bench.mainDoes (.construct (controlAddress base i)) (.settingInputs i)
  | .settingInputs i =>
      bench.mainDoes (.block i (.setInputs (inputAddress base i) inputSize))
        (.settingOutputs i)
  | .settingOutputs i =>
      bench.mainDoes (.block i (.setOutputs (outputAddress base i) outputSize))
        (.stopping i)
  | .stopping i =>
      bench.mainDoes (.block i (.setState .stopped))
        (if i + 1 < 11 then .constructing (i + 1) else .starting)
  | .starting => some { bench with main := .pushing 0 0, sender := .readying 0 }
  | .pushing k i =>
      bench.mainDoes (.produce (UInt32.ofNat i) dSize (newData contents))
        (.pushed k i)
  | .joining =>
      if bench.sender = .returned then some { bench with main := .returned } else none
  | .returned => none

def senderStep (bench : BlockBench) : Option BlockBench :=
  match bench.sender with
  | .waiting => none
  | .readying i =>
      bench.senderDoes (.block i (.setState .ready)) (.popping i 0)
  | .popping i count =>
      match bench.system.outputQ.pop.1 with
      | none => some { bench with sender := .counted i count }
      | some chunk =>
          (bench.senderDoes .consume (.counted i (count + 1))).map fun after =>
            { after with received := bench.received ++ [chunk] }
  | .stopping i =>
      bench.senderDoes (.block i (.setState .stopped))
        (if i + 1 < 10 then .stopping (i + 1) else .returned)
  | .returned => none

/-- A step of one of the two threads, of a block's thread, or of a device. -/
inductive Action where
  | main (contents : Nat → UInt8)
  | sender
  | work (index : Nat)
  | pop (index : Nat) (result : Option DataChunk)
  | allocate (index : Nat) (contents : Nat → UInt8)
  | start (index : Nat) (react : Bridge → Bridge)
  | push (index : Nat)
  | device (index : Nat) (react : Bridge → Bridge)

/-- What a block or its device does. -/
def Action.own : Action → Option MappedSystem.Action
  | .main _ => none
  | .sender => none
  | .work index => some (.block index .work)
  | .pop index result => some (.block index (.pop result))
  | .allocate index contents => some (.block index (.allocate contents))
  | .start index react => some (.block index (.start react))
  | .push index => some (.block index .push)
  | .device index react => some (.device index react)

def step (base : Nat) (bench : BlockBench) : Action → Option BlockBench
  | .main contents => bench.mainStep base contents
  | .sender => bench.senderStep
  | action => action.own.bind fun own =>
      (bench.system.step own).map fun system => { bench with system := system }

/-- Where the design puts the device of block `i`. -/
def place (base i : Nat) : Place where
  input := ⟨inputAddress base i, inputSize.toNat⟩
  output := ⟨outputAddress base i, outputSize.toNat⟩
  cr := controlAddress base i

def layout (base : Nat) : List Place := (List.range 11).map (place base)

/-- The eleven devices have no address in common. -/
theorem apart_layout (base : Nat) : MappedSystem.Apart (layout base) := by
  have hin : inputSize.toNat = 0x8000 := rfl
  have hout : outputSize.toNat = 0x4000 := rfl
  constructor
  · intro other hmem
    obtain ⟨i, hi, rfl⟩ := List.mem_map.mp hmem
    have hlt := List.mem_range.mp hi
    simp only [Place.Apart, Place.regions, place, Place.startRegister,
      Place.statusRegister, List.pairwise_cons, List.mem_cons, List.not_mem_nil,
      or_false, forall_eq_or_imp, forall_eq, Range.Disjoint, Range.stop,
      controlAddress, inputAddress, outputAddress, hin, hout, List.Pairwise.nil,
      and_true, false_imp_iff, implies_true]
    omega
  · rw [layout, List.pairwise_map, List.pairwise_iff_getElem]
    intro i j hi hj hless
    simp only [List.length_range] at hi hj
    simp only [List.getElem_range, Place.Clear, Place.regions, place,
      Place.startRegister, Place.statusRegister, List.mem_cons, List.not_mem_nil,
      or_false, forall_eq_or_imp, forall_eq, Range.Disjoint, Range.stop,
      controlAddress, inputAddress, outputAddress, hin, hout]
    omega

/-- What a block's two calls have set. -/
def portsOf (block : MappedBlock) : Option MappedPort × Option MappedPort :=
  (block.inputPort, block.outputPort)

/-- Both ports of block `i`. -/
def ports (base i : Nat) : Option MappedPort × Option MappedPort :=
  (some ⟨inputAddress base i, inputSize⟩, some ⟨outputAddress base i, outputSize⟩)

/-- The ports of the blocks, by where `main` is. -/
def portsAt (base : Nat) : Main → List (Option MappedPort × Option MappedPort)
  | .constructing i => (List.range i).map (ports base)
  | .settingInputs i => (List.range i).map (ports base) ++ [(none, none)]
  | .settingOutputs i => (List.range i).map (ports base) ++ [((ports base i).1, none)]
  | .stopping i => (List.range (i + 1)).map (ports base)
  | _ => (List.range 11).map (ports base)

/-- How many chunks `receivingThread` has pushed. -/
def Main.count : Main → Nat
  | .pushing k i => k * inSize + i
  | .joining => 10 * inSize
  | .returned => 10 * inSize
  | _ => 0

/-- How many results `sendingT` has popped. -/
def Sender.count : Sender → Nat
  | .waiting => 0
  | .readying i => i * inSize
  | .popping i count => i * inSize + count
  | .stopping _ => 10 * inSize
  | .returned => 10 * inSize

/-- The second thread is not started yet. -/
def Main.isSetup : Main → Bool
  | .pushing _ _ => false
  | .joining => false
  | .returned => false
  | _ => true

/-- The loop counters are in their ranges. -/
def Main.InRange : Main → Prop
  | .constructing i => i < 11
  | .settingInputs i => i < 11
  | .settingOutputs i => i < 11
  | .stopping i => i < 11
  | .pushing k i => k < 10 ∧ i < inSize
  | _ => True

def Sender.InRange : Sender → Prop
  | .readying i => i < 10
  | .popping i count => i < 10 ∧ count < inSize
  | .stopping i => i < 10
  | _ => True

/-- What holds in every state of the benchmark. -/
structure Inv (base : Nat) (bench : BlockBench) : Prop where
  ports_eq : bench.system.blocks.map portsOf = portsAt base bench.main
  mainInRange : bench.main.InRange
  senderInRange : bench.sender.InRange
  length_pushed : bench.system.pushed.length = bench.main.count
  length_received : bench.received.length = bench.sender.count
  received_append : bench.received ++ bench.system.outputQ.queue = bench.system.made
  early : bench.system.pushed = [] → bench.system.inputQ.queue = []
  waits : bench.main.isSetup = true → bench.sender = .waiting
  joined : bench.main = .returned → bench.sender = .returned

theorem inSize_pos : 0 < inSize := by decide

theorem inv_initial (base : Nat) (memory : Bridge) : Inv base (initial memory) := by
  refine ⟨rfl, ?_, True.intro, rfl, rfl, rfl, fun _ => rfl, fun _ => rfl, ?_⟩
  · change 0 < 11
    decide
  · intro h
    cases h

/-- Where `receivingThread` is after a push. -/
theorem main_pushed {k i : Nat} (hk : k < 10) (hi : i < inSize) :
    (Main.pushed k i).InRange ∧ (Main.pushed k i).count = k * inSize + i + 1 ∧
      (∀ base, portsAt base (Main.pushed k i) = (List.range 11).map (ports base)) ∧
        (Main.pushed k i).isSetup = false ∧ Main.pushed k i ≠ .returned := by
  unfold Main.pushed
  split
  · next hless =>
      exact ⟨⟨hk, hless⟩, (Nat.add_assoc _ _ _).symm, fun _ => rfl, rfl, by simp⟩
  · have hlast : i + 1 = inSize := by omega
    split
    · next hmore =>
        refine ⟨⟨hmore, inSize_pos⟩, ?_, fun _ => rfl, rfl, by simp⟩
        simp only [Main.count, Nat.succ_mul]
        omega
    · next hdone =>
        obtain rfl : k = 9 := by omega
        refine ⟨True.intro, ?_, fun _ => rfl, rfl, by simp⟩
        simp only [Main.count]
        omega

/-- Where `sendingT` is after a look at the queue. -/
theorem sender_counted {i count : Nat} (hi : i < 10) (hcount : count ≤ inSize) :
    (Sender.counted i count).InRange ∧
      (Sender.counted i count).count = i * inSize + count := by
  unfold Sender.counted
  split
  · next hfull =>
      split
      · next hmore =>
          refine ⟨hmore, ?_⟩
          rw [Sender.count, hfull, Nat.succ_mul]
      · next hdone =>
          obtain rfl : i = 9 := by omega
          refine ⟨Nat.zero_lt_succ _, ?_⟩
          rw [Sender.count, hfull]
          omega
  · exact ⟨⟨hi, by omega⟩, rfl⟩

variable {base : Nat} {block : MappedBlock} {memory : Bridge}
  {next : MappedBlock × Bridge}

theorem portsOf_of_work (h : block.work memory = some next) :
    portsOf next.1 = portsOf block := by
  unfold MappedBlock.work at h
  split at h
  · split at h <;> cases h <;> rfl
  · cases h
    rfl
  · split at h
    · split at h
      · cases h
        rfl
      · split at h <;> cases h <;> rfl
    · cases h
      rfl
  · split at h <;> cases h <;> rfl
  · split at h
    · cases h
      rfl
    · split at h <;> cases h <;> rfl
  · cases h
    rfl
  · cases h

/-- What a step makes of the ports. -/
def portsAfter (found : Option MappedPort × Option MappedPort) :
    MappedBlock.Action → Option MappedPort × Option MappedPort
  | .setInputs address length => (some ⟨address, length⟩, found.2)
  | .setOutputs address length => (found.1, some ⟨address, length⟩)
  | _ => found

/-- Only the two calls set ports. -/
theorem portsOf_of_step {action : MappedBlock.Action}
    (h : block.step memory action = some next) :
    portsOf next.1 = portsAfter (portsOf block) action := by
  obtain ⟨_, hact⟩ := Option.ite_none_right_eq_some.mp h
  cases action with
  | work => exact portsOf_of_work hact
  | pop result =>
      simp only [MappedBlock.act] at hact
      split at hact <;> cases hact <;> rfl
  | allocate contents =>
      simp only [MappedBlock.act] at hact
      split at hact
      · split at hact <;> cases hact <;> rfl
      · cases hact
  | start react =>
      simp only [MappedBlock.act] at hact
      split at hact <;> cases hact
      rfl
  | push =>
      simp only [MappedBlock.act] at hact
      split at hact <;> cases hact
      rfl
  | setInputs | setOutputs | setState =>
      cases hact
      rfl

/-- What steps other than a push of `receivingThread` and a pop of `sendingT` leave
as it is. -/
structure Quiet (system after : MappedSystem) : Prop where
  pushed_eq : after.pushed = system.pushed
  made_eq : ∀ received : List DataChunk,
    received ++ system.outputQ.queue = system.made →
      received ++ after.outputQ.queue = after.made
  empty : system.inputQ.queue = [] → after.inputQ.queue = []

variable {system after : MappedSystem}

theorem quiet_of_block {index : Nat} {action : MappedBlock.Action}
    (h : system.step (.block index action) = some after) :
    Quiet system after ∧ ∃ block next, system.blocks[index]? = some block ∧
      block.step system.memory action = some next ∧
        after.blocks = system.blocks.set index next.1 := by
  obtain ⟨block, hblock, hmove⟩ := Option.bind_eq_some_iff.mp h
  obtain ⟨next, hstep, hmove⟩ := MappedSystem.blockMove_of_blockStep hmove
  refine ⟨?_, block, next, hblock, hstep, hmove.memory_eq.2⟩
  cases hmove with
  | pop =>
      refine ⟨rfl, fun _ hmade => hmade, fun hnil => ?_⟩
      have hsuffix := SafeQ.pop_suffix system.inputQ
      rw [hnil] at hsuffix
      exact List.suffix_nil.mp hsuffix
  | push =>
      refine ⟨rfl, fun received hmade => ?_, id⟩
      change received ++ (system.outputQ.queue ++ _) = system.made ++ _
      rw [← hmade, List.append_assoc]
  | own => exact ⟨rfl, fun _ hmade => hmade, id⟩

/-- The ports after a step of one block. -/
theorem ports_of_block {index : Nat} {action : MappedBlock.Action}
    (h : system.step (.block index action) = some after) :
    ∃ found, (system.blocks.map portsOf)[index]? = some found ∧
      after.blocks.map portsOf = (system.blocks.map portsOf).set index
        (portsAfter found action) := by
  obtain ⟨_, block, next, hblock, hstep, hblocks⟩ := quiet_of_block h
  refine ⟨portsOf block, ?_, ?_⟩
  · rw [List.getElem?_map, hblock, Option.map_some]
  · rw [hblocks, List.map_set, portsOf_of_step hstep]

/-- A step that is none of the two calls leaves the ports as they are. -/
theorem ports_of_own {index : Nat} {action : MappedBlock.Action}
    (hinputs : ∀ address length, action ≠ .setInputs address length)
    (houtputs : ∀ address length, action ≠ .setOutputs address length)
    (h : system.step (.block index action) = some after) :
    after.blocks.map portsOf = system.blocks.map portsOf := by
  obtain ⟨found, hfound, hports⟩ := ports_of_block h
  obtain ⟨hlt, hget⟩ := List.getElem?_eq_some_iff.mp hfound
  rw [hports]
  cases action with
  | setInputs => exact absurd rfl (hinputs _ _)
  | setOutputs => exact absurd rfl (houtputs _ _)
  | _ =>
      rw [← hget]
      exact List.set_getElem_self hlt

/-- A call on the block that was constructed last. -/
theorem ports_of_call {front : List (Option MappedPort × Option MappedPort)}
    {found : Option MappedPort × Option MappedPort} {action : MappedBlock.Action}
    (hports : system.blocks.map portsOf = front ++ [found]) {index : Nat}
    (hindex : front.length = index)
    (h : system.step (.block index action) = some after) :
    after.blocks.map portsOf = front ++ [portsAfter found action] := by
  subst hindex
  obtain ⟨last, hlast, hset⟩ := ports_of_block h
  rw [hports, List.getElem?_concat_length] at hlast
  cases hlast
  rw [hset, hports]
  simp

variable {bench after' : BlockBench}

theorem length_front (base i : Nat) : ((List.range i).map (ports base)).length = i := by
  rw [List.length_map, List.length_range]

/-- What a step of `main` keeps before the second thread is started. -/
theorem Inv.setting (h : Inv base bench) {action : MappedSystem.Action} {main : Main}
    (hstep : bench.mainDoes action main = some after')
    (hsetup : bench.main.isSetup = true) (hsetup' : main.isSetup = true)
    (hrange : main.InRange)
    (hquiet : ∀ system, bench.system.step action = some system →
      Quiet bench.system system ∧ system.blocks.map portsOf = portsAt base main) :
    Inv base after' := by
  have hzero : ∀ {main : Main}, main.isSetup = true → main.count = 0 := by
    intro main hmain
    cases main with
    | pushing | joining | returned => cases hmain
    | _ => rfl
  obtain ⟨system, hsystem, rfl⟩ := Option.map_eq_some_iff.mp hstep
  obtain ⟨hsame, hports⟩ := hquiet system hsystem
  refine ⟨hports, hrange, h.senderInRange, ?_, h.length_received,
    hsame.made_eq _ h.received_append, ?_, fun _ => h.waits hsetup, ?_⟩
  · rw [hsame.pushed_eq, h.length_pushed, hzero hsetup, hzero hsetup']
  · intro hnone
    rw [hsame.pushed_eq] at hnone
    exact hsame.empty (h.early hnone)
  · intro hreturned
    change main = .returned at hreturned
    rw [hreturned] at hsetup'
    cases hsetup'

theorem Inv.mainStep (h : Inv base bench) {contents : Nat → UInt8}
    (hstep : bench.mainStep base contents = some after') : Inv base after' := by
  have hports := h.ports_eq
  have hrange := h.mainInRange
  unfold BlockBench.mainStep at hstep
  split at hstep
  · next i hmain =>
      rw [hmain] at hports hrange
      refine h.setting hstep (by rw [hmain]; rfl) rfl hrange ?_
      intro system hsystem
      cases hsystem
      refine ⟨⟨rfl, fun _ => id, id⟩, ?_⟩
      rw [List.map_append, hports]
      rfl
  · next i hmain =>
      rw [hmain] at hports hrange
      refine h.setting hstep (by rw [hmain]; rfl) rfl hrange ?_
      intro system hsystem
      refine ⟨(quiet_of_block hsystem).1, ?_⟩
      exact ports_of_call hports (length_front base i) hsystem
  · next i hmain =>
      rw [hmain] at hports hrange
      refine h.setting hstep (by rw [hmain]; rfl) rfl hrange ?_
      intro system hsystem
      refine ⟨(quiet_of_block hsystem).1, ?_⟩
      rw [ports_of_call hports (length_front base i) hsystem, portsAt,
        List.range_succ, List.map_append]
      rfl
  · next i hmain =>
      rw [hmain] at hports hrange
      refine h.setting hstep (by rw [hmain]; rfl) ?_ ?_ ?_
      · split <;> rfl
      · split
        · next hmore => exact hmore
        · exact True.intro
      intro system hsystem
      refine ⟨(quiet_of_block hsystem).1, ?_⟩
      rw [ports_of_own (by simp) (by simp) hsystem, hports]
      split
      · rfl
      · next hlast =>
          obtain rfl : i = 10 := by
            have hlt : i < 11 := hrange
            omega
          rfl
  · next hmain =>
      cases hstep
      rw [hmain] at hports
      have hcount := h.length_pushed
      have hreceived := h.length_received
      rw [hmain] at hcount
      rw [h.waits (by rw [hmain]; rfl)] at hreceived
      refine ⟨hports, ⟨by decide, inSize_pos⟩, Nat.zero_lt_succ 9, hcount, ?_,
        h.received_append, h.early, ?_, ?_⟩
      · rw [hreceived]
        exact (Nat.zero_mul _).symm
      · intro hsetup
        cases hsetup
      · intro hreturned
        cases hreturned
  · next k i hmain =>
      rw [hmain] at hports hrange
      obtain ⟨hin, hcount, hsame, hnot, hback⟩ := main_pushed hrange.1 hrange.2
      obtain ⟨system, hsystem, rfl⟩ := Option.map_eq_some_iff.mp hstep
      cases hsystem
      have hlength := h.length_pushed
      rw [hmain] at hlength
      refine ⟨hports.trans (hsame base).symm, hin, h.senderInRange, ?_,
        h.length_received, h.received_append, ?_, ?_,
        fun hreturned => absurd hreturned hback⟩
      · rw [hcount, List.length_append, hlength]
        rfl
      · intro hnil
        exact absurd hnil (by simp)
      · intro hsetup
        rw [hnot] at hsetup
        cases hsetup
  · next hmain =>
      obtain ⟨hsender, hsome⟩ := Option.ite_none_right_eq_some.mp hstep
      cases hsome
      rw [hmain] at hports
      have hlength := h.length_pushed
      rw [hmain] at hlength
      refine ⟨hports, True.intro, h.senderInRange, hlength, h.length_received,
        h.received_append, h.early, ?_, fun _ => hsender⟩
      intro hsetup
      cases hsetup
  · cases hstep

/-- What a step of `sendingT` keeps that pops nothing. -/
theorem Inv.sending (h : Inv base bench) (hstarted : bench.sender ≠ .waiting)
    (hrunning : bench.sender ≠ .returned) {system : MappedSystem} {sender : Sender}
    (hquiet : Quiet bench.system system)
    (hports : system.blocks.map portsOf = bench.system.blocks.map portsOf)
    (hrange : sender.InRange) (hcount : sender.count = bench.sender.count) :
    Inv base { bench with system := system, sender := sender } := by
  refine ⟨hports.trans h.ports_eq, h.mainInRange, hrange, ?_, ?_,
    hquiet.made_eq _ h.received_append, ?_,
    fun hsetup => absurd (h.waits hsetup) hstarted,
    fun hreturned => absurd (h.joined hreturned) hrunning⟩
  · rw [hquiet.pushed_eq]
    exact h.length_pushed
  · rw [hcount]
    exact h.length_received
  · intro hnil
    rw [hquiet.pushed_eq] at hnil
    exact hquiet.empty (h.early hnil)

theorem Inv.senderStep (h : Inv base bench)
    (hstep : bench.senderStep = some after') : Inv base after' := by
  have hrange := h.senderInRange
  unfold BlockBench.senderStep at hstep
  split at hstep
  · cases hstep
  · next i hsender =>
      rw [hsender] at hrange
      obtain ⟨system, hsystem, rfl⟩ := Option.map_eq_some_iff.mp hstep
      refine h.sending (by simp [hsender]) (by simp [hsender])
        (quiet_of_block hsystem).1 (ports_of_own (by simp) (by simp) hsystem)
        ⟨hrange, inSize_pos⟩ ?_
      rw [hsender]
      exact Nat.add_zero _
  · next i count hsender =>
      rw [hsender] at hrange
      obtain ⟨hi, hcount⟩ := hrange
      split at hstep
      · cases hstep
        obtain ⟨hin, hsame⟩ := sender_counted hi (Nat.le_of_lt hcount)
        refine h.sending (by simp [hsender]) (by simp [hsender])
          ⟨rfl, fun _ => id, id⟩ rfl hin ?_
        rw [hsame, hsender]
        rfl
      · next chunk hpop =>
          obtain ⟨consumed, hconsume, rfl⟩ := Option.map_eq_some_iff.mp hstep
          obtain ⟨system, hsystem, rfl⟩ := Option.map_eq_some_iff.mp hconsume
          cases hsystem
          obtain ⟨hin, hsame⟩ := sender_counted hi (Nat.succ_le_of_lt hcount)
          have hlength := h.length_received
          rw [hsender] at hlength
          have hmade := h.received_append
          rw [SafeQ.pop_some hpop] at hmade
          refine ⟨h.ports_eq, h.mainInRange, hin, h.length_pushed, ?_, ?_, h.early,
            ?_, ?_⟩
          · rw [hsame, List.length_append, hlength, Sender.count,
              List.length_singleton, Nat.add_assoc]
          · rw [← hmade, List.append_assoc]
            rfl
          · intro hsetup
            have hwaiting := h.waits hsetup
            rw [hsender] at hwaiting
            cases hwaiting
          · intro hreturned
            have hback := h.joined hreturned
            rw [hsender] at hback
            cases hback
  · next i hsender =>
      rw [hsender] at hrange
      obtain ⟨system, hsystem, rfl⟩ := Option.map_eq_some_iff.mp hstep
      refine h.sending (by simp [hsender]) (by simp [hsender])
        (quiet_of_block hsystem).1 (ports_of_own (by simp) (by simp) hsystem) ?_ ?_
      · split
        · next hmore => exact hmore
        · exact True.intro
      · rw [hsender]
        split <;> rfl
  · cases hstep

/-- What a step of a block or a device keeps. -/
theorem Inv.ownStep (h : Inv base bench) {action : Action} {own : MappedSystem.Action}
    (hown : action.own = some own) {system : MappedSystem}
    (hsystem : bench.system.step own = some system) :
    Inv base { bench with system := system } := by
  have hquiet : Quiet bench.system system ∧
      system.blocks.map portsOf = bench.system.blocks.map portsOf := by
    cases action with
    | main | sender => cases hown
    | device index react =>
        cases hown
        obtain ⟨_, hsome⟩ := Option.ite_none_right_eq_some.mp hsystem
        cases hsome
        exact ⟨⟨rfl, fun _ => id, id⟩, rfl⟩
    | work | pop | allocate | start | push =>
        cases hown
        exact ⟨(quiet_of_block hsystem).1, ports_of_own (by simp) (by simp) hsystem⟩
  obtain ⟨hsame, hports⟩ := hquiet
  refine ⟨hports.trans h.ports_eq, h.mainInRange, h.senderInRange, ?_,
    h.length_received, hsame.made_eq _ h.received_append, ?_, h.waits, h.joined⟩
  · rw [hsame.pushed_eq]
    exact h.length_pushed
  · intro hnil
    rw [hsame.pushed_eq] at hnil
    exact hsame.empty (h.early hnil)

theorem step_of_own {action : Action} {own : MappedSystem.Action}
    (hown : action.own = some own) : step base bench action =
      (bench.system.step own).map fun system => { bench with system := system } := by
  cases action with
  | main | sender => cases hown
  | _ =>
      cases hown
      rfl

theorem Inv.step (h : Inv base bench) {action : Action}
    (hstep : bench.step base action = some after') : Inv base after' := by
  cases hown : action.own with
  | none =>
      cases action with
      | main contents => exact h.mainStep hstep
      | sender => exact h.senderStep hstep
      | _ => cases hown
  | some own =>
      rw [step_of_own hown] at hstep
      obtain ⟨system, hsystem, rfl⟩ := Option.map_eq_some_iff.mp hstep
      exact h.ownStep hown hsystem

/-- What is assumed of the devices: each keeps to its place and computes `f`. -/
def Serves (kernel : Kernel) (base : Nat) (bench : BlockBench) : Action → Prop
  | .start index react => MappedSystem.Allows (layout base) (System.Serves kernel)
      bench.system (.block index (.start react))
  | .device index react => MappedSystem.Allows (layout base) (System.Serves kernel)
      bench.system (.device index react)
  | _ => True

/-- The devices are made for the sizes of the benchmark. -/
structure Fits (kernel : Kernel) : Prop where
  inputPort_eq : kernel.inputPort = ⟨inputSize⟩
  outputPort_eq : kernel.outputPort = ⟨outputSize⟩

variable {kernel : Kernel}

theorem getElem?_layout {index : Nat} {found : Place}
    (h : (layout base)[index]? = some found) : found = place base index := by
  rw [layout, List.getElem?_map] at h
  obtain ⟨i, hi, rfl⟩ := Option.map_eq_some_iff.mp h
  obtain ⟨hlt, hget⟩ := List.getElem?_eq_some_iff.mp hi
  rw [List.getElem_range] at hget
  rw [hget]

theorem layout_of_lt {index : Nat} (h : index < 11) :
    (layout base)[index]? = some (place base index) := by
  rw [layout, List.getElem?_map, List.getElem?_range h]
  rfl

/-- The chunks of `receivingThread` are whole items. -/
theorem fits_newData (hkernel : Fits kernel) (ticket : Nat) (id : UInt32)
    (contents : Nat → UInt8) : kernel.Fits ⟨ticket, id, dSize, newData contents⟩ := by
  rw [Kernel.fits_iff, hkernel.inputPort_eq, hkernel.outputPort_eq]
  have hin : dSize.toNat * inputSize.toNat < 2 ^ 32 := by decide
  have hout : dSize.toNat * outputSize.toNat < 2 ^ 32 := by decide
  have hlength : (dSize * hh).toNat = dSize.toNat * inputSize.toNat := by decide
  refine ⟨hin, hout, ?_⟩
  rw [newData, List.length_map, List.length_range, hlength]

/-- Chunks are taken when all ports are set. -/
theorem Inv.ports_of_pop (h : Inv base bench) {index : Nat} {chunk : DataChunk}
    {system : MappedSystem}
    (hstep : bench.system.step (.block index (.pop (some chunk))) = some system)
    {block : MappedBlock} (hblock : bench.system.blocks[index]? = some block) :
    portsOf block = ports base index := by
  obtain ⟨other, hother, hmove⟩ := Option.bind_eq_some_iff.mp hstep
  obtain ⟨hresult, _⟩ := Option.ite_none_right_eq_some.mp hmove
  have hqueue := SafeQ.pop_some hresult.symm
  have hpushed : bench.system.pushed ≠ [] := by
    intro hnil
    rw [h.early hnil] at hqueue
    cases hqueue
  have hcount : bench.main.count ≠ 0 := by
    rw [← h.length_pushed]
    exact fun hzero => hpushed (List.length_eq_zero_iff.mp hzero)
  have hall : portsAt base bench.main = (List.range 11).map (ports base) := by
    cases hmain : bench.main with
    | pushing | joining | returned => rfl
    | _ =>
        rw [hmain] at hcount
        exact absurd rfl hcount
  have hports := h.ports_eq.trans hall
  have hget : (bench.system.blocks.map portsOf)[index]? = some (portsOf block) := by
    rw [List.getElem?_map, hblock, Option.map_some]
  rw [hports, List.getElem?_map] at hget
  obtain ⟨i, hi, heq⟩ := Option.map_eq_some_iff.mp hget
  obtain ⟨hlt, hi'⟩ := List.getElem?_eq_some_iff.mp hi
  rw [List.getElem_range] at hi'
  rw [← heq, hi']

theorem Inv.allows_own (h : Inv base bench) (hkernel : Fits kernel) {action : Action}
    (hserves : Serves kernel base bench action) {own : MappedSystem.Action}
    (hown : action.own = some own) {system : MappedSystem}
    (hsystem : bench.system.step own = some system) :
    MappedSystem.Allows (layout base) (System.Serves kernel) bench.system own := by
  cases action with
  | main | sender => cases hown
  | start index react =>
      cases hown
      exact hserves
  | device index react =>
      cases hown
      exact hserves
  | pop index result =>
      cases hown
      apply MappedSystem.allows_block
      intro block place hblock hplace
      refine ⟨True.intro, ?_⟩
      cases result with
      | none => exact True.intro
      | some chunk =>
          have hports := h.ports_of_pop hsystem hblock
          have hin : block.inputPort = _ := congrArg Prod.fst hports
          have hout : block.outputPort = _ := congrArg Prod.snd hports
          refine ⟨?_, ?_⟩
          · change block.inputPort.map MappedPort.port = _
            rw [hin, hkernel.inputPort_eq]
            rfl
          · change block.outputPort.map MappedPort.port = _
            rw [hout, hkernel.outputPort_eq]
            rfl
  | work | allocate | push =>
      cases hown
      apply MappedSystem.allows_block
      intro block place hblock hplace
      exact ⟨True.intro, True.intro⟩

/-- What `main` does to the blocks is allowed. -/
theorem Inv.allows_main (h : Inv base bench) (hkernel : Fits kernel)
    {contents : Nat → UInt8} (hstep : bench.mainStep base contents = some after') :
    after'.system = bench.system ∨ ∃ action,
      MappedSystem.Allows (layout base) (System.Serves kernel) bench.system action ∧
        bench.system.step action = some after'.system := by
  have hports := congrArg List.length h.ports_eq
  have hrange := h.mainInRange
  have hdone : ∀ {action main}, bench.mainDoes action main = some after' →
      MappedSystem.Allows (layout base) (System.Serves kernel) bench.system action →
        after'.system = bench.system ∨ ∃ action,
          MappedSystem.Allows (layout base) (System.Serves kernel) bench.system action ∧
            bench.system.step action = some after'.system := by
    intro action main hdoes hallows
    obtain ⟨system, hsystem, rfl⟩ := Option.map_eq_some_iff.mp hdoes
    exact Or.inr ⟨action, hallows, hsystem⟩
  unfold BlockBench.mainStep at hstep
  split at hstep
  · next i hmain =>
      rw [hmain] at hports hrange
      rw [List.length_map, portsAt, length_front] at hports
      refine hdone hstep ⟨⟨place base i, ?_, rfl⟩, ?_⟩
      · rw [hports]
        exact layout_of_lt hrange
      · intro seen hseen
        cases hseen
  · next i hmain =>
      apply hdone hstep
      apply MappedSystem.allows_block
      intro block found hblock hplace
      rw [getElem?_layout hplace]
      exact ⟨⟨rfl, rfl⟩, hkernel.inputPort_eq.symm⟩
  · next i hmain =>
      apply hdone hstep
      apply MappedSystem.allows_block
      intro block found hblock hplace
      rw [getElem?_layout hplace]
      exact ⟨⟨rfl, rfl⟩, hkernel.outputPort_eq.symm⟩
  · next i hmain =>
      apply hdone hstep
      apply MappedSystem.allows_block
      intro block found hblock hplace
      exact ⟨True.intro, True.intro⟩
  · next hmain =>
      cases hstep
      exact Or.inl rfl
  · next k i hmain =>
      refine hdone hstep ⟨True.intro, ?_⟩
      intro seen hseen
      cases hseen
      exact fits_newData hkernel _ _ _
  · next hmain =>
      obtain ⟨_, hsome⟩ := Option.ite_none_right_eq_some.mp hstep
      cases hsome
      exact Or.inl rfl
  · cases hstep

/-- What `sendingT` does to the blocks is allowed. -/
theorem allows_sender (hstep : bench.senderStep = some after') :
    after'.system = bench.system ∨ ∃ action,
      MappedSystem.Allows (layout base) (System.Serves kernel) bench.system action ∧
        bench.system.step action = some after'.system := by
  have hset : ∀ index state, MappedSystem.Allows (layout base) (System.Serves kernel)
      bench.system (.block index (.setState state)) := by
    intro index state
    apply MappedSystem.allows_block
    intro block found hblock hplace
    exact ⟨True.intro, True.intro⟩
  unfold BlockBench.senderStep at hstep
  split at hstep
  · cases hstep
  · obtain ⟨system, hsystem, rfl⟩ := Option.map_eq_some_iff.mp hstep
    exact Or.inr ⟨_, hset _ _, hsystem⟩
  · split at hstep
    · cases hstep
      exact Or.inl rfl
    · obtain ⟨consumed, hconsume, rfl⟩ := Option.map_eq_some_iff.mp hstep
      obtain ⟨system, hsystem, rfl⟩ := Option.map_eq_some_iff.mp hconsume
      refine Or.inr ⟨.consume, ⟨True.intro, ?_⟩, hsystem⟩
      intro seen hseen
      cases hseen
      exact True.intro
  · obtain ⟨system, hsystem, rfl⟩ := Option.map_eq_some_iff.mp hstep
    exact Or.inr ⟨_, hset _ _, hsystem⟩
  · cases hstep

theorem inv_of_reaches {memory : Bridge}
    (h : Machine.Reaches (step base) (Serves kernel base) (initial memory) bench) :
    Inv base bench :=
  h.invariant (inv_initial base memory) fun _ _ _ hbefore _ hstep => hbefore.step hstep

/-- The benchmark is a run of the blocks on one memory. -/
theorem reaches_mapped (hkernel : Fits kernel) {memory : Bridge}
    (h : Machine.Reaches (step base) (Serves kernel base) (initial memory) bench) :
    Machine.Reaches MappedSystem.step
      (MappedSystem.Allows (layout base) (System.Serves kernel)) (.initial memory)
      bench.system := by
  refine h.view_of (fun _ => inv_of_reaches) system ?_
  intro before action after hbefore hserves hstep
  cases hown : action.own with
  | none =>
      cases action with
      | main contents => exact hbefore.allows_main hkernel hstep
      | sender => exact allows_sender hstep
      | _ => cases hown
  | some own =>
      rw [step_of_own hown] at hstep
      obtain ⟨system, hsystem, rfl⟩ := Option.map_eq_some_iff.mp hstep
      exact Or.inr ⟨own, hbefore.allows_own hkernel hserves hown hsystem, hsystem⟩

/-- And so of blocks with devices of their own. -/
theorem reaches_system (hkernel : Fits kernel) {memory : Bridge}
    (h : Machine.Reaches (step base) (Serves kernel base) (initial memory) bench) :
    Machine.Reaches System.step (System.Serves kernel)
      (System.initial ((layout base).map fun place => place.device memory))
      (bench.system.view (layout base)) :=
  MappedSystem.refines_system (apart_layout base) (reaches_mapped hkernel h)

theorem sizes_layout (hkernel : Fits kernel) (base : Nat) :
    ∀ place ∈ layout base, place.input.length = kernel.inputPort.size.toNat ∧
      place.output.length = kernel.outputPort.size.toNat := by
  intro found hfound
  obtain ⟨i, _, rfl⟩ := List.mem_map.mp hfound
  rw [hkernel.inputPort_eq, hkernel.outputPort_eq]
  simp only [place, and_self]

theorem serving_of_reaches (hkernel : Fits kernel) {memory : Bridge}
    (h : Machine.Reaches (step base) (Serves kernel base) (initial memory) bench) :
    (bench.system.view (layout base)).Serving kernel :=
  System.serving_of_reaches
    (MappedSystem.sizes_of_layout (sizes_layout hkernel base) memory)
    (reaches_system hkernel h)

end BlockBench

end FpgaFramework
