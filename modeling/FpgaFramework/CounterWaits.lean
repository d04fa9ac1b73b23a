/-
Waits for zero.  Any number of coroutines wait on the timer of a counter while
others count; every change of the value ends all the waits under way, and whoever
is resumed looks at the value again.
-/
import FpgaFramework.Counter
import FpgaFramework.Machine
import Mathlib.Data.List.Perm.Basic

namespace FpgaFramework

open scoped List

universe u

/-- `asio::deadline_timer` at infinity: it never expires, so a wait ends only when
the timer is cancelled.  The woken are still to be resumed, in any order. -/
structure Timer (W : Type u) where
  suspended : List W
  woken : List W
deriving Repr, DecidableEq

namespace Timer

variable {W : Type u}

def asyncWait (timer : Timer W) (waiter : W) : Timer W :=
  { timer with suspended := timer.suspended ++ [waiter] }

/-- `cancel`: every wait under way completes with `operation_aborted`. -/
def cancel (timer : Timer W) : Timer W :=
  ⟨[], timer.woken ++ timer.suspended⟩

end Timer

/-- A counter and its timer.  History: the calls of `async_wait_zero`, and those
that have returned success. -/
structure CounterWaits (W : Type u) where
  counter : Counter
  timer : Timer W
  begun : List W
  returned : List W
deriving Repr, DecidableEq

namespace CounterWaits

variable {W : Type u}

inductive Action (W : Type u) where
  | incr
  | decr
  | wait (waiter : W)
  | resume (waiter : W)
deriving Repr, DecidableEq

/-- A counter over any memory that nobody has waited for yet. -/
def initial (counter : Counter) : CounterWaits W := ⟨counter, ⟨[], []⟩, [], []⟩

def incr (waits : CounterWaits W) : CounterWaits W :=
  { waits with counter := waits.counter.incr, timer := waits.timer.cancel }

/-- `decr` returns at zero before it reaches the timer. -/
def decr (waits : CounterWaits W) : CounterWaits W :=
  if waits.counter.val = 0 then waits
  else { waits with counter := waits.counter.decr, timer := waits.timer.cancel }

/-- One turn of the loop of `async_wait_zero`, up to the wait. -/
def turn (waits : CounterWaits W) (waiter : W) : CounterWaits W :=
  if waits.counter.val = 0 then
    { waits with returned := waits.returned ++ [waiter] }
  else { waits with timer := waits.timer.asyncWait waiter }

/-- The waiter is no longer among those to be resumed. -/
def wake [DecidableEq W] (waits : CounterWaits W) (waiter : W) : CounterWaits W :=
  { waits with
    timer := { waits.timer with woken := waits.timer.woken.erase waiter } }

/-- What a coroutine does between two suspensions.  A resumed wait was aborted,
and `continue`s. -/
def step [DecidableEq W] (waits : CounterWaits W) :
    Action W → Option (CounterWaits W)
  | .incr => some waits.incr
  | .decr => some waits.decr
  | .wait waiter =>
      some ({ waits with begun := waits.begun ++ [waiter] }.turn waiter)
  | .resume waiter =>
      if waiter ∈ waits.timer.woken then
        some ((waits.wake waiter).turn waiter)
      else none

/-- A wait returns where the value is zero and nowhere else; at zero nobody is left
suspended, and whoever was woken returns when it is resumed; and no wait gets
lost. -/
structure NoLostWakeup [DecidableEq W] (waits : CounterWaits W) : Prop where
  returns_at_zero : ∀ action after, waits.step action = some after →
    after.returned ≠ waits.returned →
      waits.counter.val = 0 ∧ after.counter.val = 0
  nobody_left : waits.counter.val = 0 → waits.timer.suspended = []
  can_return : waits.counter.val = 0 → ∀ waiter ∈ waits.timer.woken,
    ∃ after, waits.step (.resume waiter) = some after ∧
      after.returned = waits.returned ++ [waiter]
  kept : waits.begun ~
    waits.timer.suspended ++ waits.timer.woken ++ waits.returned

/-- What is kept by every step. -/
structure Inv (waits : CounterWaits W) : Prop where
  nobody_left : waits.counter.val = 0 → waits.timer.suspended = []
  kept : waits.begun ~
    waits.timer.suspended ++ waits.timer.woken ++ waits.returned

theorem turn_of_zero {waits : CounterWaits W} (waiter : W)
    (h : waits.counter.val = 0) :
    waits.turn waiter =
      { waits with returned := waits.returned ++ [waiter] } :=
  if_pos h

theorem turn_of_ne_zero {waits : CounterWaits W} (waiter : W)
    (h : waits.counter.val ≠ 0) :
    waits.turn waiter = { waits with timer := waits.timer.asyncWait waiter } :=
  if_neg h

@[simp] theorem counter_turn (waits : CounterWaits W) (waiter : W) :
    (waits.turn waiter).counter = waits.counter := by
  unfold turn
  split
  · rfl
  · rfl

theorem Inv.initial (counter : Counter) :
    (initial counter : CounterWaits W).Inv := by
  constructor
  · intro _
    rfl
  · exact List.Perm.refl _

/-- Whoever changes the value leaves nobody suspended. -/
theorem Inv.cancel {waits : CounterWaits W} (hinv : waits.Inv)
    (counter : Counter) :
    Inv { waits with counter := counter, timer := waits.timer.cancel } := by
  constructor
  · intro _
    rfl
  · apply hinv.kept.trans
    apply List.Perm.append_right
    exact List.perm_append_comm

/-- A turn of the loop, of a waiter that has just begun or was taken from the
woken. -/
theorem Inv.turn {waits : CounterWaits W} {waiter : W}
    (hleft : waits.counter.val = 0 → waits.timer.suspended = [])
    (hkept : waits.begun ~ waiter ::
      (waits.timer.suspended ++ waits.timer.woken ++ waits.returned)) :
    (waits.turn waiter).Inv := by
  by_cases hzero : waits.counter.val = 0
  · rw [turn_of_zero waiter hzero]
    constructor
    · exact hleft
    · apply hkept.trans
      rw [← List.append_assoc]
      exact (List.perm_append_singleton _ _).symm
  · rw [turn_of_ne_zero waiter hzero]
    constructor
    · intro h
      exact absurd h hzero
    · apply hkept.trans
      simp only [Timer.asyncWait, List.append_assoc, List.singleton_append]
      exact List.perm_middle.symm

variable [DecidableEq W]

theorem Inv.step {waits after : CounterWaits W} {action : Action W}
    (hinv : waits.Inv) (h : waits.step action = some after) : after.Inv := by
  cases action with
  | incr =>
      cases h
      exact hinv.cancel _
  | decr =>
      cases h
      unfold decr
      split
      · exact hinv
      · exact hinv.cancel _
  | wait waiter =>
      cases h
      apply Inv.turn
      · exact hinv.nobody_left
      · exact (List.perm_append_singleton waiter waits.begun).trans
          (hinv.kept.cons waiter)
  | resume waiter =>
      obtain ⟨hmem, heq⟩ := Option.ite_none_right_eq_some.mp h
      cases heq
      apply Inv.turn
      · exact hinv.nobody_left
      · apply hinv.kept.trans
        have hwoken := List.perm_cons_erase hmem
        have hmoved := (hwoken.append_left waits.timer.suspended).append_right
          waits.returned
        apply hmoved.trans
        simp only [List.append_assoc, List.cons_append]
        exact List.perm_middle

/-- Only a turn at zero returns. -/
theorem returns_at_zero {waits after : CounterWaits W} {action : Action W}
    (h : waits.step action = some after)
    (hreturned : after.returned ≠ waits.returned) :
    waits.counter.val = 0 ∧ after.counter.val = 0 := by
  have hturn : ∀ (before : CounterWaits W) (waiter : W),
      (before.turn waiter).returned ≠ before.returned →
        before.counter.val = 0 ∧ (before.turn waiter).counter.val = 0 := by
    intro before waiter hne
    rw [counter_turn]
    by_cases hzero : before.counter.val = 0
    · exact ⟨hzero, hzero⟩
    · rw [turn_of_ne_zero waiter hzero] at hne
      exact absurd rfl hne
  cases action with
  | incr =>
      cases h
      exact absurd rfl hreturned
  | decr =>
      cases h
      unfold decr at hreturned
      split at hreturned
      · exact absurd rfl hreturned
      · exact absurd rfl hreturned
  | wait waiter =>
      cases h
      exact hturn _ waiter hreturned
  | resume waiter =>
      obtain ⟨_, heq⟩ := Option.ite_none_right_eq_some.mp h
      cases heq
      exact hturn _ waiter hreturned

theorem Inv.noLostWakeup {waits : CounterWaits W} (hinv : waits.Inv) :
    waits.NoLostWakeup := by
  constructor
  · intro action after h hreturned
    exact returns_at_zero h hreturned
  · exact hinv.nobody_left
  · intro hzero waiter hmem
    have hsame : (waits.wake waiter).counter.val = 0 := hzero
    exact ⟨_, if_pos hmem, congrArg returned (turn_of_zero waiter hsame)⟩
  · exact hinv.kept

/-- No wake-up is lost, whatever the counter held at first and in whatever order
the calls and the resumptions come. -/
theorem noLostWakeup_of_reachable (counter : Counter) {waits : CounterWaits W}
    (h : Machine.Reachable step (initial counter) waits) :
    waits.NoLostWakeup := by
  have hinv : waits.Inv := by
    apply h.invariant
    · exact Inv.initial counter
    · intro before action after hinv _ hstep
      exact hinv.step hstep
  exact hinv.noLostWakeup

/-- The value goes to zero and up again before the first waiter is resumed; it
waits again, and is woken again. -/
theorem noLostWakeup_of_reachable_raced :
    ∃ waits : CounterWaits Nat,
      Machine.run step (fun _ _ => True) (initial ⟨1⟩)
        [.wait 0, .decr, .incr, .resume 0, .wait 1, .decr, .resume 1] =
          some waits ∧
      waits.timer.woken = [0] ∧ waits.returned = [1] ∧ waits.NoLostWakeup :=
  ⟨_, rfl, rfl, rfl,
    noLostWakeup_of_reachable ⟨1⟩
      (Machine.reaches_of_run
        [.wait 0, .decr, .incr, .resume 0, .wait 1, .decr, .resume 1] rfl)⟩

end CounterWaits

end FpgaFramework
