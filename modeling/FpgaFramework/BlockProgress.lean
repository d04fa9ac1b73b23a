/-
The block benchmark comes to its end.  What a block with a device of its own can do,
a block on the memory can do too; so from every reachable state the two threads, the
workers and devices that answer can finish all rounds, and what was collected then
are the results of all that was pushed.
-/
import FpgaFramework.BlockBench

namespace FpgaFramework

open scoped List

namespace Place

/-- The memory in which the place holds `device`. -/
def write (place : Place) (device : Device) (memory : Bridge) : Bridge :=
  ((memory.store place.input.offset device.input).store place.output.offset
    device.output).store place.statusRegister.offset [device.status]

variable {place : Place} {device : Device}

theorem local_write (hinput : device.input.length = place.input.length)
    (houtput : device.output.length = place.output.length) (memory : Bridge) :
    place.Local memory (place.write device memory) := by
  refine Local.trans (Local.trans (local_store ?_) (local_store ?_)) (local_store ?_)
  · rw [hinput]
    simp [regions]
  · rw [houtput]
    simp [regions]
  · simp [regions, statusRegister]

/-- What is written is what the place holds. -/
theorem Apart.device_write (h : place.Apart)
    (hinput : device.input.length = place.input.length)
    (houtput : device.output.length = place.output.length) (memory : Bridge) :
    place.device (place.write device memory) = device := by
  obtain ⟨hfirst, hrest⟩ := List.pairwise_cons.mp h
  obtain ⟨hsecond, _⟩ := List.pairwise_cons.mp hrest
  have hin : (⟨place.input.offset, device.input.length⟩ : Range) = place.input := by
    rw [hinput]
  have hout : (⟨place.output.offset, device.output.length⟩ : Range) = place.output := by
    rw [houtput]
  have hstatus : (⟨place.statusRegister.offset, [device.status].length⟩ : Range) =
      place.statusRegister := rfl
  have hinOut : Range.Disjoint ⟨place.output.offset, device.output.length⟩
      place.input := by
    rw [hout]
    exact (hfirst place.output (by simp)).symm
  have hinStatus : Range.Disjoint ⟨place.statusRegister.offset, [device.status].length⟩
      place.input := by
    rw [hstatus]
    exact (hfirst place.statusRegister (by simp)).symm
  have houtStatus : Range.Disjoint ⟨place.statusRegister.offset, [device.status].length⟩
      place.output := by
    rw [hstatus]
    exact (hsecond place.statusRegister (by simp)).symm
  have hload : AddressSpace.load (place.write device memory) place.input.offset
      place.input.length = device.input := by
    rw [write, AddressSpace.load_store_of_disjoint _ hinStatus,
      AddressSpace.load_store_of_disjoint _ hinOut, ← hinput, AddressSpace.load_store]
  have hload' : AddressSpace.load (place.write device memory) place.output.offset
      place.output.length = device.output := by
    rw [write, AddressSpace.load_store_of_disjoint _ houtStatus, ← houtput,
      AddressSpace.load_store]
  have hbyte :
      place.write device memory place.statusRegister.offset = device.status := by
    have hone := AddressSpace.load_store
      ((memory.store place.input.offset device.input).store place.output.offset
        device.output) place.statusRegister.offset [device.status]
    exact List.head_eq_of_cons_eq hone
  rw [Place.device, hload, hload', hbyte]

end Place

/-- The three calls that a controller makes. -/
def Block.Action.IsCall : Block.Action → Prop
  | .setInputs _ => True
  | .setOutputs _ => True
  | .setState _ => True
  | _ => False

theorem System.left_of_call {system after : System} {index : Nat}
    {action : Block.Action} (hcall : action.IsCall)
    (hstep : system.step (.block index action) = some after) :
    after.left = system.left := by
  obtain ⟨block, hblock, hmove⟩ := Option.bind_eq_some_iff.mp hstep
  obtain ⟨next, hnext, hmove⟩ := blockMove_of_blockStep hmove
  obtain ⟨_, htransition⟩ := Block.transition_of_step hnext
  have hset := total_set Kernel.rank hblock next
  have hrank : Kernel.rank next = Kernel.rank block := by
    cases htransition with
    | setInputs | setOutputs | setState => rfl
    | _ => exact absurd hcall id
  cases hmove with
  | pop | push => exact absurd hcall id
  | own =>
      simp only [left]
      omega

namespace MappedSystem

variable {layout : List Place} {system : MappedSystem}

theorem blockStep_of_blockMove {after : MappedSystem} {index : Nat}
    {block : MappedBlock} {action : MappedBlock.Action} {next : MappedBlock × Bridge}
    (hstep : block.step system.memory action = some next)
    (h : system.BlockMove index block next action after) :
    system.blockStep index block action = some after := by
  cases h with
  | pop hresult => simp only [blockStep, if_pos hresult, hstep, Option.map_some]
  | push hstage => simp only [blockStep, hstage, hstep, Option.map_some]
  | own hpop hpush =>
      cases action with
      | pop result => exact absurd rfl (hpop result)
      | push => exact absurd rfl hpush
      | _ => simp only [blockStep, hstep, Option.map_some]

/-- Where a step is seen to be possible it is possible. -/
theorem lift_block (happart : Apart layout) (hwired : system.Wired layout)
    {index : Nat} {block : MappedBlock} {place : Place}
    (hblock : system.blocks[index]? = some block)
    (hplace : layout[index]? = some place) {own : MappedBlock.Action}
    (hkeeps : MappedBlock.Keeps place block system.memory own) {seen : System}
    (hstep : (system.view layout).step
      (.block index (own.view place block system.memory)) = some seen) :
    ∃ after, system.step (.block index own) = some after ∧
      after.view layout = seen := by
  have hwire := hwired.wired index block place hblock hplace
  have hseen : (system.view layout).blocks[index]? =
      some (block.toBlock place system.memory) := by
    rw [getElem?_view, hplace, Option.map_some, seenAt_of_getElem? place hblock]
  obtain ⟨other, hother, hblockStep⟩ := Option.bind_eq_some_iff.mp hstep
  rw [hseen] at hother
  cases hother
  obtain ⟨next, hnext, hmove⟩ := System.blockMove_of_blockStep hblockStep
  rw [MappedBlock.step_toBlock hwire (happart.each place (List.mem_of_getElem? hplace))]
    at hnext
  obtain ⟨mapped, hmapped, _⟩ := Option.map_eq_some_iff.mp hnext
  have hafter : ∃ after, system.BlockMove index block mapped own after := by
    cases own with
    | pop result =>
        cases hmove with
        | pop hresult => exact ⟨_, .pop hresult⟩
        | own hpop => exact absurd rfl (hpop _)
    | push =>
        cases hmove with
        | push hstage => exact ⟨_, .push hstage⟩
        | own _ hpush => exact absurd rfl hpush
    | _ => exact ⟨_, .own (by simp) (by simp)⟩
  obtain ⟨after, hafter⟩ := hafter
  refine ⟨after, Option.bind_eq_some_iff.mpr
    ⟨block, hblock, blockStep_of_blockMove hmapped hafter⟩, ?_⟩
  have hview := view_of_blockMove happart hwired hblock hplace hkeeps hmapped hafter
  rw [hstep] at hview
  exact (Option.some.inj hview).symm

/-- A call of the controller leaves the work as it is. -/
theorem left_of_call (happart : Apart layout) (hwired : system.Wired layout)
    {index : Nat} {action : MappedBlock.Action} {after : MappedSystem}
    (hstep : system.step (.block index action) = some after)
    (hcall : ∀ place block memory, (action.view place block memory).IsCall)
    (hkeeps : system.Keeps layout (.block index action)) :
    (after.view layout).left = (system.view layout).left := by
  rcases view_of_step happart hwired hkeeps hstep with ⟨_, hsame⟩ | ⟨seen, hview, hseen⟩
  · rw [hsame]
  · obtain ⟨place, _, hmap⟩ := Option.bind_eq_some_iff.mp hview
    obtain ⟨block, _, rfl⟩ := Option.map_eq_some_iff.mp hmap
    exact System.left_of_call (hcall place block system.memory) hseen

end MappedSystem

namespace BlockBench

/-- What matters to the end: the second thread is started, and the block of its
round does not wait for a controller. -/
structure Live (bench : BlockBench) : Prop where
  started : bench.main.isSetup = false → bench.sender ≠ .waiting
  ready : ∀ i count, bench.sender = .popping i count →
    ∀ block ∈ bench.system.blocks[i]?, block.state ≠ .stopped

/-- A worker never stops its block. -/
theorem state_of_step {block : MappedBlock} {memory : Bridge}
    {next : MappedBlock × Bridge} {action : MappedBlock.Action}
    (hstate : ∀ state, action ≠ .setState state)
    (h : block.step memory action = some next) :
    next.1.state = block.state ∨ next.1.state ≠ .stopped := by
  obtain ⟨_, hact⟩ := Option.ite_none_right_eq_some.mp h
  cases action with
  | work =>
      simp only [MappedBlock.act] at hact
      unfold MappedBlock.work at hact
      split at hact
      · split at hact <;> cases hact <;> exact Or.inl rfl
      · cases hact
        exact Or.inr (by simp)
      · split at hact
        · split at hact
          · cases hact
            exact Or.inl rfl
          · split at hact <;> cases hact <;> exact Or.inl rfl
        · cases hact
          exact Or.inl rfl
      · split at hact <;> cases hact <;> exact Or.inl rfl
      · split at hact
        · cases hact
          exact Or.inl rfl
        · split at hact <;> cases hact <;> exact Or.inl rfl
      · cases hact
        exact Or.inr (by simp)
      · cases hact
  | pop result =>
      simp only [MappedBlock.act] at hact
      split at hact <;> cases hact <;> exact Or.inl rfl
  | allocate contents =>
      simp only [MappedBlock.act] at hact
      split at hact
      · split at hact <;> cases hact <;> exact Or.inl rfl
      · cases hact
  | start react =>
      simp only [MappedBlock.act] at hact
      split at hact <;> cases hact
      exact Or.inl rfl
  | push =>
      simp only [MappedBlock.act] at hact
      split at hact <;> cases hact
      exact Or.inl rfl
  | setInputs | setOutputs =>
      cases hact
      exact Or.inl rfl
  | setState state => exact absurd rfl (hstate state)

variable {base : Nat} {bench after : BlockBench}

theorem live_initial (memory : Bridge) : Live (initial memory) := by
  constructor
  · intro hsetup
    cases hsetup
  · intro i count hsender
    cases hsender

theorem Live.mainStep (hlive : Live bench) (hinv : Inv base bench)
    {contents : Nat → UInt8} (hstep : bench.mainStep base contents = some after) :
    Live after := by
  -- before the start of the second thread nothing is popped
  have hsetting : bench.main.isSetup = true → ∀ {action main},
      bench.mainDoes action main = some after → main.isSetup = true → Live after := by
    intro hsetup action main hdoes hsetup'
    obtain ⟨system, _, rfl⟩ := Option.map_eq_some_iff.mp hdoes
    refine ⟨fun hnot => absurd hnot (by simp [hsetup']), ?_⟩
    intro i count hsender
    rw [hinv.waits hsetup] at hsender
    cases hsender
  unfold BlockBench.mainStep at hstep
  split at hstep
  · next hmain => exact hsetting (by rw [hmain]; rfl) hstep rfl
  · next hmain => exact hsetting (by rw [hmain]; rfl) hstep rfl
  · next hmain => exact hsetting (by rw [hmain]; rfl) hstep rfl
  · next hmain => exact hsetting (by rw [hmain]; rfl) hstep (by split <;> rfl)
  · cases hstep
    refine ⟨fun _ => by simp, ?_⟩
    intro i count hsender
    cases hsender
  · next k i hmain =>
      obtain ⟨system, hsystem, rfl⟩ := Option.map_eq_some_iff.mp hstep
      cases hsystem
      exact ⟨fun _ => hlive.started (by rw [hmain]; rfl), hlive.ready⟩
  · next hmain =>
      obtain ⟨hsender, hsome⟩ := Option.ite_none_right_eq_some.mp hstep
      cases hsome
      exact ⟨fun _ => hlive.started (by rw [hmain]; rfl), hlive.ready⟩
  · cases hstep

theorem Live.senderStep (hlive : Live bench) (hstep : bench.senderStep = some after) :
    Live after := by
  have hcounted : ∀ i count, Sender.counted i count ≠ .waiting ∧
      ∀ i' count', Sender.counted i count = .popping i' count' → i' = i := by
    intro i count
    unfold Sender.counted
    split
    · split <;> exact ⟨by simp, fun _ _ h => by cases h⟩
    · refine ⟨by simp, ?_⟩
      intro i' count' h
      cases h
      rfl
  unfold BlockBench.senderStep at hstep
  split at hstep
  · cases hstep
  · next i hsender =>
      obtain ⟨system, hsystem, rfl⟩ := Option.map_eq_some_iff.mp hstep
      refine ⟨fun _ => by simp, ?_⟩
      intro i' count hpopping block hblock
      cases hpopping
      obtain ⟨_, found, next, hfound, hnext, hblocks⟩ := quiet_of_block hsystem
      have hlt := (List.getElem?_eq_some_iff.mp hfound).1
      have hget : system.blocks[i]? = some block := hblock
      rw [hblocks, List.getElem?_set_self hlt] at hget
      cases hget
      obtain ⟨_, hset⟩ := Option.ite_none_right_eq_some.mp hnext
      cases hset
      simp
  · next i count hsender =>
      obtain ⟨hnot, hsame⟩ := hcounted i count
      obtain ⟨hnot', hsame'⟩ := hcounted i (count + 1)
      split at hstep
      · cases hstep
        refine ⟨fun _ => hnot, ?_⟩
        intro i' count' hpopping
        rw [hsame i' count' hpopping]
        exact hlive.ready i count hsender
      · obtain ⟨consumed, hconsume, rfl⟩ := Option.map_eq_some_iff.mp hstep
        obtain ⟨system, hsystem, rfl⟩ := Option.map_eq_some_iff.mp hconsume
        cases hsystem
        refine ⟨fun _ => hnot', ?_⟩
        intro i' count' hpopping
        rw [hsame' i' count' hpopping]
        exact hlive.ready i count hsender
  · obtain ⟨system, _, rfl⟩ := Option.map_eq_some_iff.mp hstep
    constructor
    · intro _
      change (if _ then _ else _) ≠ Sender.waiting
      split <;> simp
    · intro i' count hpopping
      change (if _ then _ else _) = Sender.popping i' count at hpopping
      split at hpopping <;> cases hpopping
  · cases hstep

theorem Live.ownStep (hlive : Live bench) {action : Action} {own : MappedSystem.Action}
    (hown : action.own = some own) {system : MappedSystem}
    (hsystem : bench.system.step own = some system) :
    Live { bench with system := system } := by
  refine ⟨hlive.started, ?_⟩
  intro i count hsender block hblock
  have hold := hlive.ready i count hsender
  have hblocks : ∀ {index action}, (∀ state, action ≠ .setState state) →
      bench.system.step (.block index action) = some system →
        block.state ≠ .stopped := by
    intro index action hstate hstep
    obtain ⟨_, found, next, hfound, hnext, hset⟩ := quiet_of_block hstep
    have hget : system.blocks[i]? = some block := hblock
    rw [hset] at hget
    by_cases hsame : index = i
    · subst hsame
      rw [List.getElem?_set_self (List.getElem?_eq_some_iff.mp hfound).1] at hget
      cases hget
      rcases state_of_step hstate hnext with hkept | hnot
      · rw [hkept]
        exact hold found hfound
      · exact hnot
    · rw [List.getElem?_set_ne hsame] at hget
      exact hold block hget
  cases action with
  | main | sender => cases hown
  | device index react =>
      cases hown
      obtain ⟨_, hsome⟩ := Option.ite_none_right_eq_some.mp hsystem
      cases hsome
      exact hold block hblock
  | work | pop | allocate | start | push =>
      cases hown
      exact hblocks (by simp) hsystem

theorem live_of_reaches {kernel : Kernel} {memory : Bridge}
    (h : Machine.Reaches (step base) (Serves kernel base) (initial memory) bench) :
    Live bench := by
  refine h.invariant_of (fun _ => inv_of_reaches) (live_initial memory) ?_
  intro before action after hinv hlive _ hstep
  cases hown : action.own with
  | none =>
      cases action with
      | main contents => exact hlive.mainStep hinv hstep
      | sender => exact hlive.senderStep hstep
      | _ => cases hown
  | some own =>
      rw [step_of_own hown] at hstep
      obtain ⟨system, hsystem, rfl⟩ := Option.map_eq_some_iff.mp hstep
      exact hlive.ownStep hown hsystem

/-- How many steps `main` has left. -/
def Main.left : Main → Nat
  | .constructing i => 4 * (11 - i) + (10 * inSize + 3)
  | .settingInputs i => 4 * (11 - i) + (10 * inSize + 2)
  | .settingOutputs i => 4 * (11 - i) + (10 * inSize + 1)
  | .stopping i => 4 * (11 - i) + 10 * inSize
  | .starting => 10 * inSize + 3
  | .pushing k i => 10 * inSize - (k * inSize + i) + 2
  | .joining => 1
  | .returned => 0

/-- How many steps `sendingT` has left, each with a result where it waits for one. -/
def Sender.left : Sender → Nat
  | .waiting => 10 * inSize + 22
  | .readying i => 10 * inSize - i * inSize + (10 - i) + 11
  | .popping i count => 10 * inSize - (i * inSize + count) + (9 - i) + 11
  | .stopping i => 10 - i
  | .returned => 0

theorem left_pushed {k i : Nat} (hk : k < 10) (hi : i < inSize) :
    (Main.pushed k i).left < (Main.pushing k i).left := by
  have hround : k * inSize ≤ 9 * inSize := Nat.mul_le_mul_right _ (by omega)
  unfold Main.pushed
  split
  · simp only [Main.left]
    omega
  · split
    · simp only [Main.left, Nat.succ_mul]
      omega
    · simp only [Main.left]
      omega

theorem left_counted {i count : Nat} (hi : i < 10) (hcount : count < inSize) :
    (Sender.counted i (count + 1)).left < (Sender.popping i count).left := by
  have hround : i * inSize ≤ 9 * inSize := Nat.mul_le_mul_right _ (by omega)
  unfold Sender.counted
  split
  · split
    · simp only [Sender.left, Nat.succ_mul]
      omega
    · simp only [Sender.left]
      omega
  · simp only [Sender.left]
    omega

/-- What is left to do, with a chunk's work counted before it is pushed. -/
def left (base : Nat) (bench : BlockBench) : Nat :=
  30 * bench.main.left + bench.sender.left + (bench.system.view (layout base)).left

theorem left_of_produce (layout : List Place) {system after : MappedSystem}
    {id size : UInt32} {data : List UInt8}
    (h : system.step (.produce id size data) = some after) :
    (after.view layout).left =
      (system.view layout).left + (5 * size.toNat + 9) := by
  cases h
  have happend : ∀ queue : List DataChunk, total ((queue ++
      [system.chunk id size data]).map Kernel.weight) =
        total (queue.map Kernel.weight) + (5 * size.toNat + 9) := by
    intro queue
    induction queue with
    | nil =>
        change 5 * size.toNat + 9 + 0 = 0 + (5 * size.toNat + 9)
        omega
    | cons chunk queue ih =>
        simp only [List.cons_append, List.map_cons, total] at ih ⊢
        omega
  change total ((layout.mapIdx system.seenAt).map Kernel.rank) +
    total ((system.inputQ.queue ++ [system.chunk id size data]).map Kernel.weight) = _
  rw [happend]
  simp only [System.left, MappedSystem.view]
  omega

/-- A call on a block that has not faulted returns. -/
theorem call_of_block {system : MappedSystem} {index : Nat} {block : MappedBlock}
    (hblock : system.blocks[index]? = some block) (hfault : block.fault = none) :
    (∀ address length, ∃ after,
        system.step (.block index (.setInputs address length)) = some after) ∧
      (∀ address length, ∃ after,
        system.step (.block index (.setOutputs address length)) = some after) ∧
      ∀ state, ∃ after, system.step (.block index (.setState state)) = some after := by
  have hstep : ∀ {action next}, block.act system.memory action = some next →
      (∀ result, action ≠ .pop result) → action ≠ .push →
        ∃ after, system.step (.block index action) = some after := by
    intro action next hact hpop hpush
    have hnext : block.step system.memory action = some next := by
      rw [MappedBlock.step, if_pos hfault, hact]
    exact ⟨_, Option.bind_eq_some_iff.mpr ⟨block, hblock,
      MappedSystem.blockStep_of_blockMove hnext (.own hpop hpush)⟩⟩
  exact ⟨fun _ _ => hstep rfl (by simp) (by simp),
    fun _ _ => hstep rfl (by simp) (by simp), fun _ => hstep rfl (by simp) (by simp)⟩

/-- What is known of a reachable state. -/
structure Known (kernel : Kernel) (base : Nat) (bench : BlockBench) : Prop where
  inv : Inv base bench
  live : Live bench
  wired : bench.system.Wired (layout base)
  serving : (bench.system.view (layout base)).Serving kernel
  conserved : (bench.system.view (layout base)).Inv

theorem known_of_reaches {kernel : Kernel} (hkernel : Fits kernel) {memory : Bridge}
    (h : Machine.Reaches (step base) (Serves kernel base) (initial memory) bench) :
    Known kernel base bench :=
  ⟨inv_of_reaches h, live_of_reaches h,
    MappedSystem.wired_of_reaches (reaches_mapped hkernel h),
    serving_of_reaches hkernel h, System.inv_of_reaches (reaches_system hkernel h)⟩

variable {kernel : Kernel}

theorem Known.noFault (h : Known kernel base bench) {index : Nat} {block : MappedBlock}
    (hblock : bench.system.blocks[index]? = some block) : block.fault = none := by
  obtain ⟨found, hseen⟩ := h.wired.mem_view (List.mem_of_getElem? hblock)
  exact (h.serving.working _ hseen).noFault

/-- The blocks that are constructed. -/
theorem Known.block_of_lt (h : Known kernel base bench) (index : Nat)
    (hlt : index < (portsAt base bench.main).length) :
    ∃ block, bench.system.blocks[index]? = some block := by
  rw [← h.inv.ports_eq, List.length_map] at hlt
  exact ⟨_, List.getElem?_eq_getElem hlt⟩

theorem Known.left_setState (h : Known kernel base bench) {index : Nat}
    {state : Block.State} {system : MappedSystem}
    (hstep : bench.system.step (.block index (.setState state)) = some system) :
    (system.view (layout base)).left = (bench.system.view (layout base)).left :=
  MappedSystem.left_of_call (apart_layout base) h.wired hstep
    (fun _ _ _ => True.intro) fun _ _ _ _ => True.intro

/-- While `main` is not at the join it goes on. -/
theorem Known.progress_main (h : Known kernel base bench)
    (hjoining : bench.main ≠ .joining) (hreturned : bench.main ≠ .returned) :
    ∃ after, bench.mainStep base (fun _ => 0) = some after ∧
      after.left base < bench.left base := by
  have hrange := h.inv.mainInRange
  have hdone : ∀ action {main system}, bench.system.step action = some system →
      (system.view (layout base)).left + 30 * main.left <
        (bench.system.view (layout base)).left + 30 * bench.main.left →
          ∃ after, bench.mainDoes action main = some after ∧
            after.left base < bench.left base := by
    intro action main system hstep hless
    refine ⟨{ bench with system := system, main := main }, ?_, ?_⟩
    · rw [mainDoes, hstep, Option.map_some]
    · simp only [left]
      omega
  unfold BlockBench.mainStep
  cases hmain : bench.main with
  | constructing i =>
      rw [hmain] at hrange hdone
      have hi : i < 11 := hrange
      have hlength := congrArg List.length h.inv.ports_eq
      rw [hmain, List.length_map, portsAt, length_front] at hlength
      refine hdone (.construct (controlAddress base i)) rfl ?_
      have hkeeps : bench.system.Keeps (layout base)
          (.construct (controlAddress base i)) := by
        refine ⟨place base i, ?_, rfl⟩
        rw [hlength]
        exact layout_of_lt hi
      rcases MappedSystem.view_of_step (apart_layout base) h.wired hkeeps rfl with
        ⟨_, hsame⟩ | ⟨seen, hview, _⟩
      · rw [hsame]
        apply Nat.add_lt_add_left
        simp only [Main.left]
        omega
      · cases hview
  | settingInputs i =>
      rw [hmain] at hrange hdone
      have hi : i < 11 := hrange
      obtain ⟨block, hblock⟩ := h.block_of_lt i (by
        rw [hmain, portsAt, List.length_append, length_front]
        exact Nat.lt_succ_self i)
      obtain ⟨hset, _, _⟩ := call_of_block hblock (h.noFault hblock)
      obtain ⟨system, hsystem⟩ := hset (inputAddress base i) inputSize
      apply hdone _ hsystem
      rw [MappedSystem.left_of_call (apart_layout base) h.wired hsystem
        fun _ _ _ => True.intro]
      · apply Nat.add_lt_add_left
        simp only [Main.left]
        omega
      · intro block _ found hfound
        rw [getElem?_layout hfound]
        exact ⟨rfl, rfl⟩
  | settingOutputs i =>
      rw [hmain] at hrange hdone
      have hi : i < 11 := hrange
      obtain ⟨block, hblock⟩ := h.block_of_lt i (by
        rw [hmain, portsAt, List.length_append, length_front]
        exact Nat.lt_succ_self i)
      obtain ⟨_, hset, _⟩ := call_of_block hblock (h.noFault hblock)
      obtain ⟨system, hsystem⟩ := hset (outputAddress base i) outputSize
      apply hdone _ hsystem
      rw [MappedSystem.left_of_call (apart_layout base) h.wired hsystem
        fun _ _ _ => True.intro]
      · apply Nat.add_lt_add_left
        simp only [Main.left]
        omega
      · intro block _ found hfound
        rw [getElem?_layout hfound]
        exact ⟨rfl, rfl⟩
  | stopping i =>
      rw [hmain] at hrange hdone
      have hi : i < 11 := hrange
      obtain ⟨block, hblock⟩ := h.block_of_lt i (by
        rw [hmain, portsAt, length_front]
        exact Nat.lt_succ_self i)
      obtain ⟨_, _, hset⟩ := call_of_block hblock (h.noFault hblock)
      obtain ⟨system, hsystem⟩ := hset .stopped
      apply hdone _ hsystem
      rw [h.left_setState hsystem]
      apply Nat.add_lt_add_left
      split
      · simp only [Main.left]
        omega
      · simp only [Main.left]
        omega
  | starting =>
      refine ⟨_, rfl, ?_⟩
      have hwaiting := h.inv.waits (by rw [hmain]; rfl)
      simp only [left, hmain, hwaiting, Main.left, Sender.left]
      apply Nat.add_lt_add_right
      omega
  | pushing k i =>
      rw [hmain] at hrange hdone
      refine hdone (.produce (UInt32.ofNat i) dSize (newData fun _ => 0)) rfl ?_
      rw [left_of_produce (layout base) rfl]
      have hless := left_pushed hrange.1 hrange.2
      have hsize : 5 * dSize.toNat + 9 = 29 := rfl
      rw [hsize, Nat.add_assoc]
      apply Nat.add_lt_add_left
      omega
  | joining => exact absurd hmain hjoining
  | returned => exact absurd hmain hreturned

/-- Where all blocks are constructed, what workers and devices are seen to be able to
do they can do. -/
theorem Known.lift_own (h : Known kernel base bench)
    (hall : bench.system.blocks.length = 11) {action : System.Action} {seen : System}
    (hown : (bench.system.view (layout base)).Own kernel action)
    (hstep : (bench.system.view (layout base)).step action = some seen) :
    ∃ mine own system, mine.own = some own ∧ Serves kernel base bench mine ∧
      bench.system.step own = some system ∧ system.view (layout base) = seen := by
  cases action with
  | produce | consume => exact absurd hown id
  | block index action =>
  obtain ⟨other, hother, hblockStep⟩ := Option.bind_eq_some_iff.mp hstep
  have hindex : index < 11 := by
    have hlt := (List.getElem?_eq_some_iff.mp hother).1
    rw [MappedSystem.view, List.length_mapIdx, layout, List.length_map,
      List.length_range] at hlt
    exact hlt
  have hplace : (layout base)[index]? = some (place base index) := layout_of_lt hindex
  have happart := (apart_layout base).each _ (List.mem_of_getElem? hplace)
  obtain ⟨block, hblock⟩ : ∃ block, bench.system.blocks[index]? = some block :=
    ⟨_, List.getElem?_eq_getElem (by omega)⟩
  rw [MappedSystem.getElem?_view, hplace, Option.map_some,
    MappedSystem.seenAt_of_getElem? _ hblock] at hother
  cases hother
  have hserves : kernel.Serves (block.toBlock (place base index) bench.system.memory)
      action := by
    apply System.serves_of_own hown
    rw [MappedSystem.getElem?_view, hplace, Option.map_some,
      MappedSystem.seenAt_of_getElem? _ hblock]
    rfl
  have hlift : ∀ own : MappedBlock.Action,
      MappedBlock.Keeps (place base index) block bench.system.memory own →
        own.view (place base index) block bench.system.memory = action →
          ∃ system, bench.system.step (.block index own) = some system ∧
            system.view (layout base) = seen := by
    rintro own hkeeps rfl
    exact MappedSystem.lift_block (apart_layout base) h.wired hblock hplace hkeeps hstep
  have hwritten : ∀ {device : Device},
      device.input =
          (block.toBlock (place base index) bench.system.memory).device.input →
        device.output.length =
          (block.toBlock (place base index) bench.system.memory).device.output.length →
          ∀ memory,
            (place base index).Local memory
              ((place base index).write device memory) ∧
            (place base index).device
              ((place base index).write device memory) = device := by
    intro device hinput houtput memory
    have hin := (congrArg List.length hinput).trans (Place.length_input _ _)
    have hout := houtput.trans (Place.length_output _ _)
    exact ⟨Place.local_write hin hout memory, happart.device_write hin hout memory⟩
  cases action with
  | setInputs | setOutputs | setState => exact absurd hown id
  | work =>
      obtain ⟨system, hsystem, hview⟩ := hlift .work True.intro rfl
      exact ⟨.work index, _, system, rfl, True.intro, hsystem, hview⟩
  | pop result =>
      obtain ⟨system, hsystem, hview⟩ := hlift (.pop result) True.intro rfl
      exact ⟨.pop index result, _, system, rfl, True.intro, hsystem, hview⟩
  | allocate contents =>
      obtain ⟨system, hsystem, hview⟩ := hlift (.allocate contents) True.intro rfl
      exact ⟨.allocate index contents, _, system, rfl, True.intro, hsystem, hview⟩
  | push =>
      obtain ⟨system, hsystem, hview⟩ := hlift .push True.intro rfl
      exact ⟨.push index, _, system, rfl, True.intro, hsystem, hview⟩
  | start device =>
      obtain ⟨hlocal, hdevice⟩ := hwritten hserves.1 hserves.2.2
        (block.start bench.system.memory)
      obtain ⟨system, hsystem, hview⟩ := hlift
        (.start ((place base index).write device)) hlocal
        (congrArg Block.Action.start hdevice)
      refine ⟨.start index ((place base index).write device), _, system, rfl, ?_,
        hsystem, hview⟩
      apply MappedSystem.allows_block
      intro block' found hblock' hfound
      rw [hblock] at hblock'
      cases hblock'
      rw [getElem?_layout hfound]
      refine ⟨hlocal, ?_⟩
      rw [MappedBlock.Action.view, hdevice]
      exact hserves
  | device device =>
      obtain ⟨hlocal, hdevice⟩ := hwritten hserves.1 hserves.2.1 bench.system.memory
      have hfault : ∀ block ∈ bench.system.blocks[index]?, block.fault = none :=
        fun _ hmem => h.noFault hmem
      have hview := MappedSystem.view_of_device (apart_layout base) hplace hlocal hfault
      rw [hdevice, hstep] at hview
      refine ⟨.device index ((place base index).write device), _, _, rfl, ?_,
        if_pos hfault, (Option.some.inj hview).symm⟩
      refine ⟨⟨_, hplace, hlocal⟩, ?_⟩
      intro seen' hseen'
      rw [MappedSystem.Action.view, hplace, Option.map_some, hdevice] at hseen'
      cases hseen'
      exact System.serves_of_own hown

/-- A worker or a device goes on where a result is awaited and none is there. -/
theorem Known.progress_own (h : Known kernel base bench) (hkernel : Fits kernel)
    {i count : Nat} (hmain : bench.main = .joining)
    (hsender : bench.sender = .popping i count)
    (hempty : bench.system.outputQ.queue = []) :
    ∃ action after, Serves kernel base bench action ∧
      bench.step base action = some after ∧ after.left base < bench.left base := by
  have hports := h.inv.ports_eq
  rw [hmain] at hports
  have hall : bench.system.blocks.length = 11 := by
    have hlength := congrArg List.length hports
    rw [List.length_map, portsAt, length_front] at hlength
    · exact hlength
    all_goals simp
  have hrange := h.inv.senderInRange
  rw [hsender] at hrange
  have hi : i < 11 := Nat.lt_succ_of_lt hrange.1
  -- the block of this round runs
  obtain ⟨block, hblock⟩ : ∃ block, bench.system.blocks[i]? = some block :=
    ⟨_, List.getElem?_eq_getElem (by omega)⟩
  have hset : portsOf block = ports base i := by
    have hget : (bench.system.blocks.map portsOf)[i]? = some (portsOf block) := by
      rw [List.getElem?_map, hblock, Option.map_some]
    rw [hports] at hget
    change ((List.range 11).map (ports base))[i]? = _ at hget
    rw [List.getElem?_map, List.getElem?_range hi] at hget
    exact (Option.some.inj hget).symm
  have hin : block.inputPort = _ := congrArg Prod.fst hset
  have hout : block.outputPort = _ := congrArg Prod.snd hset
  have hruns : kernel.Runs (block.toBlock (place base i) bench.system.memory) := by
    refine ⟨?_, ?_, fun _ => h.live.ready i count hsender block hblock⟩
    · change block.inputPort.map MappedPort.port = _
      rw [hin, hkernel.inputPort_eq]
      rfl
    · change block.outputPort.map MappedPort.port = _
      rw [hout, hkernel.outputPort_eq]
      rfl
  have hdraining : System.Draining kernel bench.system.pushed
      (bench.system.view (layout base)) := by
    refine ⟨h.serving, ⟨i, _, ?_, hruns⟩, rfl⟩
    rw [MappedSystem.getElem?_view, layout_of_lt hi, Option.map_some,
      MappedSystem.seenAt_of_getElem? _ hblock]
  -- and some chunk is not made yet
  have hleft : ¬((bench.system.view (layout base)).held = [] ∧
      (bench.system.view (layout base)).waiting = []) := by
    rintro ⟨hheld, hwaiting⟩
    obtain ⟨owed, hperm, hkeys⟩ := h.conserved.owed h.serving
    rw [hheld, hwaiting] at hkeys
    rw [List.map_eq_nil_iff.mp hkeys, List.append_nil] at hperm
    have hlength := hperm.length_eq
    have hmade := h.inv.received_append
    rw [hempty, List.append_nil] at hmade
    have hpushed := h.inv.length_pushed
    have hreceived := h.inv.length_received
    rw [hmain] at hpushed
    rw [hsender] at hreceived
    rw [List.length_map] at hlength
    change bench.system.made.length = bench.system.pushed.length at hlength
    rw [← hmade, hreceived, hpushed] at hlength
    simp only [Sender.count, Main.count] at hlength
    have hround : i * inSize ≤ 9 * inSize :=
      Nat.mul_le_mul_right _ (Nat.le_of_lt_succ hrange.1)
    have hcount := hrange.2
    omega
  obtain ⟨action, seen, hown, hstep, _, hless⟩ := hdraining.progress hleft
  obtain ⟨mine, own, system, hmine, hserves, hsystem, rfl⟩ :=
    h.lift_own hall hown hstep
  refine ⟨mine, { bench with system := system }, hserves, ?_, ?_⟩
  · rw [step_of_own hmine, hsystem, Option.map_some]
  · simp only [left]
    omega

/-- Until `main` returns some thread, worker or device can go on. -/
theorem Known.progress (h : Known kernel base bench) (hkernel : Fits kernel)
    (hreturned : bench.main ≠ .returned) :
    ∃ action after, Serves kernel base bench action ∧
      bench.step base action = some after ∧ after.left base < bench.left base := by
  by_cases hjoining : bench.main = .joining
  · have hrange := h.inv.senderInRange
    have hall : ∀ {i}, i < 11 → ∃ block, bench.system.blocks[i]? = some block := by
      intro i hi
      apply h.block_of_lt _
      rw [hjoining, portsAt, length_front]
      · exact hi
      all_goals simp
    have hdone : ∀ i state sender, i < 11 → Sender.left sender < bench.sender.left →
        ∃ after, bench.senderDoes (.block i (.setState state)) sender = some after ∧
          after.left base < bench.left base := by
      intro i state sender hi hless
      obtain ⟨block, hblock⟩ := hall hi
      obtain ⟨_, _, hset⟩ := call_of_block hblock (h.noFault hblock)
      obtain ⟨system, hsystem⟩ := hset state
      refine ⟨{ bench with system := system, sender := sender }, ?_, ?_⟩
      · rw [senderDoes, hsystem, Option.map_some]
      · have hsame := h.left_setState hsystem
        simp only [left]
        omega
    cases hsender : bench.sender with
    | waiting => exact absurd hsender (h.live.started (by rw [hjoining]; rfl))
    | readying i =>
        rw [hsender] at hrange hdone
        obtain ⟨after, hstep, hless⟩ := hdone i .ready (.popping i 0)
          (Nat.lt_succ_of_lt hrange) (by
            have hi : i < 10 := hrange
            simp only [Sender.left]
            omega)
        exact ⟨.sender, after, True.intro,
          by rw [step, senderStep, hsender]; exact hstep, hless⟩
    | popping i count =>
        rw [hsender] at hrange
        cases hpop : bench.system.outputQ.pop.1 with
        | none =>
            apply h.progress_own hkernel hjoining hsender
            cases hqueue : bench.system.outputQ.queue with
            | nil => rfl
            | cons chunk rest =>
                rw [SafeQ.pop, hqueue] at hpop
                cases hpop
        | some chunk =>
            have hless := left_counted hrange.1 hrange.2
            refine ⟨.sender, { bench with
              system := { bench.system with outputQ := bench.system.outputQ.pop.2 }
              sender := .counted i (count + 1)
              received := bench.received ++ [chunk] }, True.intro, ?_, ?_⟩
            · simp only [step, senderStep, hsender, hpop]
              rfl
            · have hsame : (MappedSystem.view (layout base) { bench.system with
                  outputQ := bench.system.outputQ.pop.2 }).left =
                    (bench.system.view (layout base)).left := rfl
              simp only [left, hsender, hsame]
              omega
    | stopping i =>
        rw [hsender] at hrange hdone
        have hi : i < 10 := hrange
        obtain ⟨after, hstep, hless⟩ := hdone i .stopped
          (if i + 1 < 10 then .stopping (i + 1) else .returned)
          (Nat.lt_succ_of_lt hi) (by
            split
            · simp only [Sender.left]
              omega
            · simp only [Sender.left]
              omega)
        exact ⟨.sender, after, True.intro,
          by rw [step, senderStep, hsender]; exact hstep, hless⟩
    | returned =>
        refine ⟨.main fun _ => 0, { bench with main := .returned }, True.intro, ?_, ?_⟩
        · simp only [step, mainStep, hjoining, hsender, ↓reduceIte]
        · simp only [left, hjoining, Main.left]
          omega
  · obtain ⟨after, hstep, hless⟩ := h.progress_main hjoining hreturned
    exact ⟨.main fun _ => 0, after, True.intro, hstep, hless⟩

/-- Until a goal is met that holds at the latest when `main` returns, the benchmark
goes on to it, in states that keep to a bound. -/
theorem exists_goal (hkernel : Fits kernel) {memory : Bridge}
    (Bounded Goal : BlockBench → Prop)
    (hreturned : ∀ bench, Inv base bench → Bounded bench → bench.main = .returned →
      Goal bench)
    (hbounded : ∀ bench action after, Bounded bench → ¬Goal bench →
      bench.step base action = some after → Bounded after)
    (h : Machine.Reaches (step base) (Serves kernel base) (initial memory) bench)
    (hstart : Bounded bench) :
    ∃ last, Machine.Reaches (step base) (Serves kernel base) bench last ∧
      Goal last := by
  have hprogress : ∀ bench,
      Machine.Reaches (step base) (Serves kernel base) (initial memory) bench ∧
          Bounded bench →
        ¬Goal bench → ∃ action after, Serves kernel base bench action ∧
          bench.step base action = some after ∧
            (Machine.Reaches (step base) (Serves kernel base) (initial memory) after ∧
              Bounded after) ∧ after.left base < bench.left base := by
    rintro bench ⟨hreach, hbefore⟩ hgoal
    have hruns : bench.main ≠ .returned := fun hmain =>
      hgoal (hreturned bench (inv_of_reaches hreach) hbefore hmain)
    obtain ⟨action, after, hserves, hstep, hless⟩ :=
      (known_of_reaches hkernel hreach).progress hkernel hruns
    exact ⟨action, after, hserves, hstep, ⟨hreach.tail hserves hstep,
      hbounded _ _ _ hbefore hgoal hstep⟩, hless⟩
  exact Machine.reaches_of_measure (left base) hprogress ⟨h, hstart⟩

/-- A run to the end of the benchmark. -/
theorem exists_returned (hkernel : Fits kernel) {memory : Bridge}
    (h : Machine.Reaches (step base) (Serves kernel base) (initial memory) bench) :
    ∃ last, Machine.Reaches (step base) (Serves kernel base) bench last ∧
      last.main = .returned :=
  exists_goal hkernel (fun _ => True) (fun bench => bench.main = .returned)
    (fun _ _ _ => id) (fun _ _ _ _ _ _ => True.intro) h True.intro

/-- Results are received one by one. -/
theorem length_received_of_step {action : Action} {after : BlockBench}
    (hstep : bench.step base action = some after) :
    after.received.length ≤ bench.received.length + 1 := by
  have hsame : after.received = bench.received →
      after.received.length ≤ bench.received.length + 1 := by
    intro h
    rw [h]
    exact Nat.le_succ _
  cases hown : action.own with
  | some own =>
      rw [step_of_own hown] at hstep
      obtain ⟨system, _, rfl⟩ := Option.map_eq_some_iff.mp hstep
      exact Nat.le_succ _
  | none =>
      cases action with
      | main contents =>
          apply hsame
          have hdoes : ∀ {action main}, bench.mainDoes action main = some after →
              after.received = bench.received := by
            intro action main h
            obtain ⟨system, _, rfl⟩ := Option.map_eq_some_iff.mp h
            rfl
          rw [step, mainStep] at hstep
          split at hstep
          · exact hdoes hstep
          · exact hdoes hstep
          · exact hdoes hstep
          · exact hdoes hstep
          · cases hstep
            rfl
          · exact hdoes hstep
          · obtain ⟨_, hsome⟩ := Option.ite_none_right_eq_some.mp hstep
            cases hsome
            rfl
          · cases hstep
      | sender =>
          have hdoes : ∀ {action sender after},
              bench.senderDoes action sender = some after →
                after.received = bench.received := by
            intro action sender after h
            obtain ⟨system, _, rfl⟩ := Option.map_eq_some_iff.mp h
            rfl
          rw [step, senderStep] at hstep
          split at hstep
          · cases hstep
          · exact hsame (hdoes hstep)
          · split at hstep
            · cases hstep
              exact Nat.le_succ _
            · obtain ⟨consumed, _, rfl⟩ := Option.map_eq_some_iff.mp hstep
              exact Nat.le_of_eq List.length_append
          · exact hsame (hdoes hstep)
          · cases hstep
      | _ => cases hown

/-- Every number of results is the number received at some time. -/
theorem exists_received (hkernel : Fits kernel) {memory : Bridge} (count : Nat)
    (hcount : count ≤ 10 * inSize)
    (h : Machine.Reaches (step base) (Serves kernel base) (initial memory) bench)
    (hstart : bench.received.length ≤ count) :
    ∃ last, Machine.Reaches (step base) (Serves kernel base) bench last ∧
      last.received.length = count := by
  refine exists_goal hkernel (fun bench => bench.received.length ≤ count)
    (fun bench => bench.received.length = count) ?_ ?_ h hstart
  · intro bench hinv hle hreturned
    have hlength := hinv.length_received
    rw [hinv.joined hreturned, Sender.count] at hlength
    omega
  · intro bench action after hle hgoal hstep
    have hnext := length_received_of_step hstep
    omega

/-- `sendingT` is past its rounds. -/
def Sender.isDone : Sender → Bool
  | .stopping _ => true
  | .returned => true
  | _ => false

theorem Main.count_le {main : Main} (h : main.InRange) : main.count ≤ 10 * inSize := by
  cases main with
  | pushing k i =>
      obtain ⟨hk, hi⟩ := h
      have hround : (k + 1) * inSize ≤ 10 * inSize := Nat.mul_le_mul_right _ hk
      rw [Nat.succ_mul] at hround
      simp only [Main.count]
      omega
  | joining | returned => exact Nat.le_refl _
  | _ => exact Nat.zero_le _

theorem Sender.count_of_isDone {sender : Sender} (h : sender.isDone = true) :
    sender.count = 10 * inSize := by
  cases sender with
  | stopping | returned => rw [Sender.count]
  | _ => cases h

/-- The benchmark collects the results of what it pushes.  In every run, with every
function that the devices compute, no block faults, and what `sendingT` has popped
are, with what is still on its way, the values of what `receivingThread` has pushed;
past its rounds `sendingT` has popped the values of all chunks, each once, and
nothing is left in a queue or in a block. -/
theorem collects_all_results (kernel : Kernel) (hkernel : Fits kernel) (base : Nat)
    (memory : Bridge) {bench : BlockBench}
    (h : Machine.Reaches (step base) (Serves kernel base) (initial memory) bench) :
    (∀ block ∈ bench.system.blocks, block.fault = none) ∧
      (∃ coming : List DataChunk,
        bench.received ++ coming ~ bench.system.pushed.map kernel.apply) ∧
      (bench.sender.isDone = true →
        bench.system.pushed.length = 10 * inSize ∧
          bench.received ~ bench.system.pushed.map kernel.apply ∧
          bench.system.inputQ.queue = [] ∧ bench.system.outputQ.queue = [] ∧
            ∀ block ∈ bench.system.blocks, block.stage.chunk = none) := by
  have hinv := inv_of_reaches h
  have hserving := serving_of_reaches hkernel h
  have hwired := MappedSystem.wired_of_reaches (reaches_mapped hkernel h)
  obtain ⟨owed, hperm, hkeys⟩ :=
    (System.inv_of_reaches (reaches_system hkernel h)).owed hserving
  have hcoming : bench.received ++ (bench.system.outputQ.queue ++ owed) ~
      bench.system.pushed.map kernel.apply := by
    rw [← List.append_assoc, hinv.received_append]
    exact hperm
  refine ⟨?_, ⟨_, hcoming⟩, ?_⟩
  · intro block hmem
    obtain ⟨found, hseen⟩ := hwired.mem_view hmem
    exact (hserving.working _ hseen).noFault
  · intro hdone
    have hlength := hcoming.length_eq
    have hreceived := hinv.length_received
    have hpushed := hinv.length_pushed
    have hmax := Main.count_le hinv.mainInRange
    rw [Sender.count_of_isDone hdone] at hreceived
    rw [List.length_append, List.length_map] at hlength
    have hnone : (bench.system.outputQ.queue ++ owed).length = 0 := by omega
    obtain ⟨hqueue, howed⟩ :=
      List.append_eq_nil_iff.mp (List.length_eq_zero_iff.mp hnone)
    rw [howed] at hkeys
    obtain ⟨hheld, hwaiting⟩ := List.append_eq_nil_iff.mp hkeys.symm
    rw [hqueue, howed, List.append_nil, List.append_nil] at hcoming
    refine ⟨by omega, hcoming, List.map_eq_nil_iff.mp hwaiting, hqueue, ?_⟩
    intro block hmem
    obtain ⟨found, hseen⟩ := hwired.mem_view hmem
    have hblock := List.flatMap_eq_nil_iff.mp hheld _ hseen
    have hchunk : block.stage.chunk.map DataChunk.key = none :=
      Option.toList_eq_nil_iff.mp hblock
    exact Option.map_eq_none_iff.mp hchunk

/-- Devices that return the first half of their input. -/
def firstHalf : Kernel where
  inputPort := ⟨inputSize⟩
  outputPort := ⟨outputSize⟩
  f bytes := bytes.take outputSize.toNat
  length_f bytes h := by
    rw [List.length_take, h]
    decide

theorem reaches_firstHalf : Machine.Reaches (step 0) (Serves firstHalf 0)
    (initial fun _ => 0) (initial fun _ => 0) :=
  Machine.Reaches.refl

/-- The benchmark has come to its end. -/
theorem collects_all_results_returned :
    ∃ bench : BlockBench,
      Machine.Reaches (step 0) (Serves firstHalf 0) (initial fun _ => 0) bench ∧
      bench.main = .returned ∧ bench.received.length = 10 * inSize ∧
      (∀ block ∈ bench.system.blocks, block.fault = none) ∧
      bench.received ~ bench.system.pushed.map firstHalf.apply ∧
      bench.system.inputQ.queue = [] ∧ bench.system.outputQ.queue = [] ∧
        ∀ block ∈ bench.system.blocks, block.stage.chunk = none := by
  have hfits : Fits firstHalf := ⟨rfl, rfl⟩
  obtain ⟨bench, hrun, hreturned⟩ := exists_returned hfits reaches_firstHalf
  have hsender : bench.sender = .returned := (inv_of_reaches hrun).joined hreturned
  obtain ⟨hfault, _, hdone⟩ :=
    collects_all_results firstHalf hfits 0 (fun _ => 0) hrun
  obtain ⟨hpushed, hreceived, hrest⟩ := hdone (by rw [hsender]; rfl)
  have hlength : bench.received.length = 10 * inSize := by
    rw [hreceived.length_eq, List.length_map, hpushed]
  exact ⟨bench, hrun, hreturned, hlength, hfault, hreceived, hrest⟩

/-- The benchmark can always come to its end: from every reachable state there is a
run in which the devices answer, `sendingT` gets all results and `main` returns. -/
theorem can_return (kernel : Kernel) (hkernel : Fits kernel) (base : Nat)
    (memory : Bridge) {bench : BlockBench}
    (h : Machine.Reaches (step base) (Serves kernel base) (initial memory) bench) :
    ∃ last, Machine.Reaches (step base) (Serves kernel base) bench last ∧
      last.main = .returned ∧ last.received.length = 10 * inSize := by
  obtain ⟨last, hlast, hreturned⟩ := exists_returned hkernel h
  refine ⟨last, hlast, hreturned, ?_⟩
  have hinv := inv_of_reaches (h.trans hlast)
  rw [hinv.length_received, hinv.joined hreturned, Sender.count]

/-- From the middle of the first round to the last result. -/
theorem can_return_halfRound :
    ∃ middle last : BlockBench,
      Machine.Reaches (step 0) (Serves firstHalf 0) (initial fun _ => 0) middle ∧
      middle.received.length = 500 ∧
      Machine.Reaches (step 0) (Serves firstHalf 0) middle last ∧
      last.main = .returned ∧ last.received.length = 10 * inSize := by
  have hfits : Fits firstHalf := ⟨rfl, rfl⟩
  obtain ⟨middle, hmiddle, hreceived⟩ :=
    exists_received hfits 500 (by decide) reaches_firstHalf (Nat.zero_le _)
  obtain ⟨last, hlast⟩ := can_return firstHalf hfits 0 (fun _ => 0) hmiddle
  exact ⟨middle, last, hmiddle, hreceived, hlast⟩

end BlockBench

end FpgaFramework
