/-
Stop requests to a block.  A controller and the worker loop write the same state
word; a request sticks when it is written while the loop is at its check.
-/
import FpgaFramework.Block

namespace FpgaFramework

namespace Block

/-- What became of the controller's latest request, until it writes `ready`: no
request, one that came in during a pass, or one with no pass in progress any
more. -/
inductive Request where
  | none
  | passing
  | settled
deriving Repr, DecidableEq

/-- A pass is in progress from its check on. -/
def inPass (block : Block) : Bool := decide (block.stage ≠ .checking)

/-- A block under the eyes of its controller.  The request is history. -/
structure Watched where
  block : Block
  request : Request
deriving Repr, DecidableEq

namespace Watched

/-- The request after a step of the block. -/
def next (watched : Watched) : Action → Request
  | .setState .stopped =>
      if watched.request = .none then
        if watched.block.inPass then .passing else .settled
      else watched.request
  | .setState .ready => .none
  | .work =>
      if watched.request = .passing ∧ watched.block.stage = .finishing then .settled
      else watched.request
  | _ => watched.request

def step (watched : Watched) (action : Action) : Option Watched :=
  (watched.block.step action).map fun after => ⟨after, watched.next action⟩

/-- The controller writes nothing but `stopped` and `ready`. -/
def Controls (_ : Watched) : Action → Prop
  | .setState state => state = .stopped ∨ state = .ready
  | _ => True

instance (watched : Watched) (action : Action) :
    Decidable (Controls watched action) := by
  unfold Controls
  split <;> infer_instance

/-- And it writes `stopped` only while the worker loop is at its check. -/
def StopsAtCheck (watched : Watched) : Action → Prop
  | .setState state =>
      state = .stopped ∧ watched.block.stage = .checking ∨ state = .ready
  | _ => True

instance (watched : Watched) (action : Action) :
    Decidable (StopsAtCheck watched action) := by
  unfold StopsAtCheck
  split <;> infer_instance

/-- Once the pass that was in progress is over, the state stays `stopped` and the
worker takes no chunk. -/
structure Sticks (watched : Watched) : Prop where
  state_eq : watched.request = .settled → watched.block.state = .stopped
  no_pop : watched.request = .settled →
    ∀ chunk, watched.step (.pop (some chunk)) = none

/-- A request finds no pass in progress, and holds the loop at its check. -/
structure Held (watched : Watched) : Prop where
  not_passing : watched.request ≠ .passing
  state_eq : watched.request = .settled → watched.block.state = .stopped
  stage_eq : watched.request = .settled → watched.block.stage = .checking

theorem Held.sticks {watched : Watched} (h : watched.Held) : watched.Sticks := by
  constructor
  · exact h.state_eq
  · intro hsettled chunk
    rw [step, Option.map_eq_none_iff, Option.eq_none_iff_forall_not_mem]
    intro after hstep
    obtain ⟨_, htransition⟩ := transition_of_step hstep
    cases htransition with
    | popped hstage =>
        rw [h.stage_eq hsettled] at hstage
        cases hstage

/-- While a request holds, the thread can only look at the state again. -/
theorem Held.request_eq_none {watched : Watched} (h : watched.Held)
    (haway : watched.block.stage ≠ .checking ∨ watched.block.state ≠ .stopped) :
    watched.request = .none := by
  cases hrequest : watched.request with
  | none => rfl
  | passing => exact absurd hrequest h.not_passing
  | settled =>
      rcases haway with hstage | hstate
      · exact absurd (h.stage_eq hrequest) hstage
      · exact absurd (h.state_eq hrequest) hstate

/-- A step that leaves the request, the state and the stage as they are. -/
theorem Held.of_same {watched after : Watched} (h : watched.Held)
    (hrequest : after.request = watched.request)
    (hstate : after.block.state = watched.block.state)
    (hstage : after.block.stage = watched.block.stage) : after.Held := by
  constructor
  · rw [hrequest]
    exact h.not_passing
  · rw [hrequest, hstate]
    exact h.state_eq
  · rw [hrequest, hstage]
    exact h.stage_eq

/-- Without a request there is nothing to hold. -/
theorem held_of_none {watched : Watched} (h : watched.request = .none) :
    watched.Held := by
  constructor
  · rw [h]
    decide
  · intro hsettled
    rw [h] at hsettled
    cases hsettled
  · intro hsettled
    rw [h] at hsettled
    cases hsettled

/-- Only the controller moves the request of a block that holds it. -/
theorem Held.next_eq {watched : Watched} (h : watched.Held) {action : Action}
    (haction : ∀ state, action ≠ .setState state) :
    watched.next action = watched.request := by
  unfold next
  split
  · exact absurd rfl (haction _)
  · exact absurd rfl (haction _)
  · apply if_neg
    intro hpassing
    exact h.not_passing hpassing.1
  · rfl

/-- A store of the controller. -/
theorem Held.setState {watched : Watched} {state : State} (h : watched.Held)
    (hguard : StopsAtCheck watched (.setState state)) :
    Held ⟨{ watched.block with state := state },
      watched.next (.setState state)⟩ := by
  rcases hguard with ⟨rfl, hstage⟩ | rfl
  · have hnot : watched.block.inPass = false := by
      simp only [inPass, hstage, ne_eq, not_true_eq_false, decide_false]
    constructor
    · change (if watched.request = .none then
        if watched.block.inPass then Request.passing else .settled
          else watched.request) ≠ .passing
      split
      · rw [hnot]
        decide
      · exact h.not_passing
    · intro _
      rfl
    · intro _
      exact hstage
  · exact held_of_none rfl

theorem Held.transition {watched : Watched} {after : Block} {action : Action}
    (h : watched.Held) (hguard : StopsAtCheck watched action)
    (htransition : Transition watched.block action after) :
    Held ⟨after, watched.next action⟩ := by
  -- A step that is not the controller's keeps the request.
  have hnext : (∀ state, action ≠ .setState state) →
      watched.next action = watched.request := h.next_eq
  cases htransition with
  | setState => exact h.setState hguard
  | checked _ hstate =>
      apply held_of_none
      exact (hnext (by simp)).trans (h.request_eq_none (Or.inr hstate))
  | marked hstage | popEmpty hstage | popped hstage | allocated hstage
  | wrote hstage | left hstage | started hstage | pollDone hstage | read hstage
  | pushed hstage | finished hstage =>
      apply held_of_none
      refine (hnext (by simp)).trans (h.request_eq_none (Or.inl ?_))
      rw [hstage]
      simp
  | _ => exact h.of_same (hnext (by simp)) rfl rfl

/-- A stop request sticks in every run whose controller writes it while the worker
loop is at its check. -/
theorem sticks_of_stopsAtCheck (block : Block) {watched : Watched}
    (h : Machine.Reaches step StopsAtCheck ⟨block, .none⟩ watched) :
    watched.Sticks := by
  have hheld : watched.Held := by
    apply h.invariant
    · exact held_of_none rfl
    · intro before action after hheld hguard hstep
      obtain ⟨next, hmove, rfl⟩ := Option.map_eq_some_iff.mp hstep
      obtain ⟨_, htransition⟩ := transition_of_step hmove
      exact hheld.transition hguard htransition
  exact hheld.sticks

/-- A device without regions, whose done bit is not set. -/
def idleDevice : Device := ⟨[], [], 0⟩

/-- The request comes between two checks of an idle block. -/
theorem sticks_of_stopsAtCheck_idle :
    ∃ watched : Watched,
      Machine.run step StopsAtCheck ⟨construct idleDevice, .none⟩
        [.work, .work, .pop none, .work, .setState .stopped, .work] =
          some watched ∧
      watched.request = .settled ∧ watched.Sticks :=
  ⟨_, rfl, rfl,
    sticks_of_stopsAtCheck (construct idleDevice)
      (Machine.reaches_of_run
        [.work, .work, .pop none, .work, .setState .stopped, .work] rfl)⟩

/-- The request comes right behind the check.  The pass writes `busy` and `done`
over it, and the next pass takes a chunk. -/
theorem stop_not_sticks :
    ∃ watched : Watched,
      Machine.Reaches step Controls ⟨construct idleDevice, .none⟩ watched ∧
        watched.request = .settled ∧ watched.block.state = .busy ∧
        (watched.step (.pop (some ⟨0, 7, 1, [5]⟩))).isSome ∧
        ¬watched.Sticks := by
  refine ⟨⟨{ construct idleDevice with state := .busy, stage := .popping }, .settled⟩,
    ?_, rfl, rfl, rfl, ?_⟩
  · exact Machine.reaches_of_run
      [.work, .setState .stopped, .work, .pop none, .work, .work, .work] rfl
  · intro hsticks
    cases hsticks.state_eq rfl

end Watched

end Block

end FpgaFramework
