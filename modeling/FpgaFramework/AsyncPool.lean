/-
The containers of ready nodes.  `Queue` and `Stack` differ in the end that
`push` adds to; both wake the oldest waiter on a push and take the front item
when the waiter resumes, without looking at the container again.
-/
import FpgaFramework.Machine
import Mathlib.Data.List.Perm.Basic

namespace FpgaFramework

universe u v

open scoped List

/-- Where `push` puts an item; `front` and `top` are the head of the list. -/
inductive Discipline where
  | queue
  | stack
deriving Repr, DecidableEq

def Discipline.put {T : Type u} : Discipline → T → List T → List T
  | .queue, item, items => items ++ [item]
  | .stack, item, items => item :: items

/-- The container and its timer.  A coroutine waits in `suspended`, oldest
first, until a push cancels its wait; it is then `woken` and resumes at some
later step. -/
structure AsyncPool (T : Type u) (W : Type v) where
  items : List T
  suspended : List W
  woken : List W
deriving Repr, DecidableEq

namespace AsyncPool

variable {T : Type u} {W : Type v}

def empty : AsyncPool T W := ⟨[], [], []⟩

/-- `_timer_pop.cancel_one()`. -/
def cancelOne (pool : AsyncPool T W) : AsyncPool T W :=
  match pool.suspended with
  | [] => pool
  | waiter :: rest =>
      { pool with suspended := rest, woken := pool.woken ++ [waiter] }

def push (discipline : Discipline) (pool : AsyncPool T W) (item : T) :
    AsyncPool T W :=
  cancelOne { pool with items := discipline.put item pool.items }

/-- `pop`; `none` is `front()` or `top()` of an empty container. -/
def pop (pool : AsyncPool T W) : Option (T × AsyncPool T W) :=
  match pool.items with
  | [] => none
  | item :: rest => some (item, { pool with items := rest })

/-- `async_pop` up to its first suspension: `none` is the wait. -/
def asyncPop (pool : AsyncPool T W) (waiter : W) :
    Option T × AsyncPool T W :=
  match pool.items with
  | [] => (none, { pool with suspended := pool.suspended ++ [waiter] })
  | item :: rest => (some item, { pool with items := rest })

/-- `async_pop` after its wait. -/
def resume [DecidableEq W] (pool : AsyncPool T W) (waiter : W) :
    Option (T × AsyncPool T W) :=
  pop { pool with woken := pool.woken.erase waiter }

/-- `push` of each item of a list. -/
def pushAll (discipline : Discipline) (pool : AsyncPool T W) (items : List T) :
    AsyncPool T W :=
  items.foldl (push discipline) pool

/-- `while (!empty()) pop()`: the items in the order in which they are popped. -/
def popAll (pool : AsyncPool T W) : List T × AsyncPool T W :=
  (pool.items, { pool with items := [] })

/-- The coroutines that wait for an item, whether woken or not. -/
def waiters (pool : AsyncPool T W) : List W :=
  pool.woken ++ pool.suspended

theorem put_perm (discipline : Discipline) (item : T) (items : List T) :
    discipline.put item items ~ item :: items := by
  cases discipline with
  | queue => exact List.perm_append_singleton item items
  | stack => exact List.Perm.refl _

theorem count_put [DecidableEq T] (discipline : Discipline) (item : T)
    (items : List T) (x : T) :
    (discipline.put item items).count x = (item :: items).count x :=
  (put_perm discipline item items).count_eq x

@[simp] theorem items_cancelOne (pool : AsyncPool T W) :
    pool.cancelOne.items = pool.items := by
  unfold cancelOne
  split <;> rfl

@[simp] theorem items_push (discipline : Discipline) (pool : AsyncPool T W)
    (item : T) :
    (pool.push discipline item).items = discipline.put item pool.items :=
  items_cancelOne _

@[simp] theorem waiters_push (discipline : Discipline) (pool : AsyncPool T W)
    (item : T) : (pool.push discipline item).waiters = pool.waiters := by
  unfold push cancelOne waiters
  split
  · rfl
  · next waiter rest h =>
      simp only at h
      simp [h]

theorem items_pushAll_perm (discipline : Discipline) (pool : AsyncPool T W)
    (items : List T) :
    (pool.pushAll discipline items).items ~ pool.items ++ items := by
  induction items generalizing pool with
  | nil => rw [pushAll, List.foldl_nil, List.append_nil]
  | cons item rest ih =>
      have hput := put_perm discipline item pool.items
      calc ((pool.push discipline item).pushAll discipline rest).items
          ~ (pool.push discipline item).items ++ rest := ih _
        _ ~ (item :: pool.items) ++ rest := by
            rw [items_push]
            exact hput.append_right rest
        _ ~ pool.items ++ item :: rest := List.perm_middle.symm

@[simp] theorem waiters_pushAll (discipline : Discipline)
    (pool : AsyncPool T W) (items : List T) :
    (pool.pushAll discipline items).waiters = pool.waiters := by
  induction items generalizing pool with
  | nil => rfl
  | cons item rest ih => exact (ih _).trans (waiters_push discipline pool item)

@[simp] theorem waiters_popAll (pool : AsyncPool T W) :
    pool.popAll.2.waiters = pool.waiters := rfl

/-- Popping one item and then all the others is popping all. -/
theorem popAll_of_pop {pool rest : AsyncPool T W} {item : T}
    (h : pool.pop = some (item, rest)) :
    pool.popAll = (item :: rest.popAll.1, rest.popAll.2) := by
  unfold pop at h
  split at h
  · cases h
  · next hitems =>
      cases h
      simp [popAll, hitems]

/-- A push moves the oldest waiter, if there is one, and no other. -/
theorem cancelOne_waiters (pool : AsyncPool T W) :
    (pool.suspended = [] ∧ pool.cancelOne = pool) ∨
      ∃ waiter, pool.suspended = waiter :: pool.cancelOne.suspended ∧
        pool.cancelOne.woken = pool.woken ++ [waiter] := by
  unfold cancelOne
  cases h : pool.suspended with
  | nil => exact Or.inl ⟨rfl, rfl⟩
  | cons waiter rest => exact Or.inr ⟨waiter, rfl, rfl⟩

/-- The pools differ in the order of their items only. -/
structure Reordered (pool other : AsyncPool T W) : Prop where
  items : other.items ~ pool.items
  suspended : other.suspended = pool.suspended
  woken : other.woken = pool.woken

theorem Reordered.refl (pool : AsyncPool T W) : pool.Reordered pool :=
  ⟨List.Perm.refl _, rfl, rfl⟩

theorem Reordered.push {pool other : AsyncPool T W} (h : pool.Reordered other)
    (first second : Discipline) (item : T) :
    (pool.push first item).Reordered (other.push second item) := by
  obtain ⟨hitems, hsuspended, hwoken⟩ := h
  constructor
  · rw [items_push, items_push]
    calc second.put item other.items
        ~ item :: other.items := put_perm second item other.items
      _ ~ item :: pool.items := hitems.cons item
      _ ~ first.put item pool.items := (put_perm first item pool.items).symm
  · unfold AsyncPool.push cancelOne
    simp only [hsuspended]
    split <;> rfl
  · unfold AsyncPool.push cancelOne
    simp only [hsuspended]
    split
    · exact hwoken
    · simp only [hwoken]

theorem Reordered.pushAll {pool other : AsyncPool T W} (h : pool.Reordered other)
    (first second : Discipline) (items : List T) :
    (pool.pushAll first items).Reordered (other.pushAll second items) := by
  induction items generalizing pool other with
  | nil => exact h
  | cons item rest ih => exact ih (h.push first second item)

/-- While a coroutine waits unwoken, every item has been announced to another. -/
def Announced (pool : AsyncPool T W) : Prop :=
  pool.suspended ≠ [] → pool.items.length ≤ pool.woken.length

theorem Announced.push {pool : AsyncPool T W} (h : pool.Announced)
    (discipline : Discipline) (item : T) :
    (pool.push discipline item).Announced := by
  intro hsome
  have hlength := (put_perm discipline item pool.items).length_eq
  rcases cancelOne_waiters
    { pool with items := discipline.put item pool.items } with
    ⟨hnone, heq⟩ | ⟨waiter, hold, hwoken⟩
  · rw [AsyncPool.push, heq] at hsome
    exact absurd hnone hsome
  · have hless := h fun hnone => List.cons_ne_nil _ _ (hold.symm.trans hnone)
    have hmore : (pool.push discipline item).woken = pool.woken ++ [waiter] :=
      hwoken
    rw [items_push, hlength, hmore, List.length_append, List.length_cons,
      List.length_singleton]
    exact Nat.succ_le_succ hless

theorem Announced.pushAll {pool : AsyncPool T W} (h : pool.Announced)
    (discipline : Discipline) (items : List T) :
    (pool.pushAll discipline items).Announced := by
  induction items generalizing pool with
  | nil => exact h
  | cons item rest ih => exact ih (h.push discipline item)

theorem Announced.popAll (pool : AsyncPool T W) : pool.popAll.2.Announced :=
  fun _ => Nat.zero_le _

theorem Announced.asyncPop {pool : AsyncPool T W} (h : pool.Announced)
    (waiter : W) : (pool.asyncPop waiter).2.Announced := by
  unfold AsyncPool.asyncPop
  split
  · next hitems =>
      intro _
      simp [hitems]
  · next item rest hitems =>
      intro hsome
      have hless := h hsome
      rw [hitems, List.length_cons] at hless
      exact Nat.le_of_succ_le hless

theorem Announced.resume [DecidableEq W] {pool rest : AsyncPool T W} {waiter : W}
    {item : T} (h : pool.Announced)
    (hresume : pool.resume waiter = some (item, rest)) : rest.Announced := by
  unfold AsyncPool.resume pop at hresume
  split at hresume
  · cases hresume
  · next hitems =>
      cases hresume
      intro hsome
      have hless := h hsome
      have herase : pool.woken.length ≤ (pool.woken.erase waiter).length + 1 := by
        rw [List.length_erase]
        split <;> omega
      simp only at hitems
      rw [hitems, List.length_cons] at hless
      exact Nat.le_of_succ_le_succ (Nat.le_trans hless herase)

theorem items_of_resume_none [DecidableEq W] {pool : AsyncPool T W} {waiter : W}
    (h : pool.resume waiter = none) : pool.items = [] := by
  unfold resume pop at h
  split at h
  · next hitems => exact hitems
  · cases h

theorem items_of_resume [DecidableEq W] {pool rest : AsyncPool T W} {waiter : W}
    {item : T} (h : pool.resume waiter = some (item, rest)) :
    pool.items = item :: rest.items := by
  unfold resume pop at h
  split at h
  · cases h
  · next hitems =>
      cases h
      exact hitems

theorem waiters_of_resume [DecidableEq W] {pool rest : AsyncPool T W}
    {waiter : W} {item : T} (hmem : waiter ∈ pool.woken)
    (h : pool.resume waiter = some (item, rest)) :
    pool.waiters ~ waiter :: rest.waiters := by
  unfold resume pop at h
  split at h
  · cases h
  · cases h
    exact (List.perm_cons_erase hmem).append_right pool.suspended

end AsyncPool

/-! The two classes of the server, under their own names. -/

namespace Queue

variable {T : Type u} {W : Type v}

def push : AsyncPool T W → T → AsyncPool T W := AsyncPool.push .queue
def pop : AsyncPool T W → Option (T × AsyncPool T W) := AsyncPool.pop
def asyncPop : AsyncPool T W → W → Option T × AsyncPool T W := AsyncPool.asyncPop

end Queue

namespace Stack

variable {T : Type u} {W : Type v}

def push : AsyncPool T W → T → AsyncPool T W := AsyncPool.push .stack
def pop : AsyncPool T W → Option (T × AsyncPool T W) := AsyncPool.pop
def asyncPop : AsyncPool T W → W → Option T × AsyncPool T W := AsyncPool.asyncPop

end Stack

/-- One pool used by any number of coroutines: what was pushed, what `async_pop`
returned and to whom, and whether `pop` was executed on an empty container. -/
structure PoolUse (T : Type u) (W : Type v) where
  pool : AsyncPool T W
  pushed : List T
  returned : List (W × T)
  emptyPop : Bool
deriving Repr, DecidableEq

namespace PoolUse

variable {T : Type u} {W : Type v}

def start : PoolUse T W := ⟨.empty, [], [], false⟩

/-- A call of `push`, a call of `async_pop`, and the resumption of a coroutine
whose wait was cancelled. -/
inductive Action (T : Type u) (W : Type v) where
  | push (item : T)
  | asyncPop (waiter : W)
  | resume (waiter : W)
deriving Repr, DecidableEq

def step [DecidableEq W] (discipline : Discipline) (use : PoolUse T W) :
    Action T W → Option (PoolUse T W)
  | .push item =>
      if use.emptyPop then none
      else some { use with
        pool := use.pool.push discipline item
        pushed := use.pushed ++ [item] }
  | .asyncPop waiter =>
      if use.emptyPop then none
      else match use.pool.asyncPop waiter with
        | (none, pool) => some { use with pool := pool }
        | (some item, pool) => some { use with
            pool := pool
            returned := use.returned ++ [(waiter, item)] }
  | .resume waiter =>
      if use.emptyPop then none
      else if waiter ∈ use.pool.woken then
        match use.pool.resume waiter with
        | none => some { use with emptyPop := true }
        | some (item, pool) => some { use with
            pool := pool
            returned := use.returned ++ [(waiter, item)] }
      else none

/-- `pop` never ran on an empty container, and the items returned so far, with
those still inside, are the pushed items, each once. -/
def Safe (use : PoolUse T W) : Prop :=
  use.emptyPop = false ∧
    use.returned.map Prod.snd ++ use.pool.items ~ use.pushed

/-- A call of `async_pop` takes an item at once only when there are more items
than coroutines that were woken for one and have not resumed. -/
def LeavesEnough (use : PoolUse T W) : Action T W → Prop
  | .asyncPop _ =>
      use.pool.items = [] ∨ use.pool.woken.length < use.pool.items.length
  | _ => True

instance [DecidableEq T] (use : PoolUse T W) (action : Action T W) :
    Decidable (use.LeavesEnough action) := by
  cases action <;> unfold LeavesEnough <;> infer_instance

/-- Every woken coroutine has an item to find. -/
def Covered (use : PoolUse T W) : Prop :=
  use.Safe ∧ use.pool.woken.length ≤ use.pool.items.length

theorem Covered.push {use : PoolUse T W} (h : use.Covered)
    (discipline : Discipline) (item : T) :
    Covered { use with
      pool := use.pool.push discipline item
      pushed := use.pushed ++ [item] } := by
  obtain ⟨⟨hsafe, hperm⟩, hwoken⟩ := h
  have hput := AsyncPool.put_perm discipline item use.pool.items
  refine ⟨⟨hsafe, ?_⟩, ?_⟩
  · change use.returned.map Prod.snd ++
      (use.pool.push discipline item).items ~ use.pushed ++ [item]
    rw [AsyncPool.push, AsyncPool.items_cancelOne]
    calc use.returned.map Prod.snd ++ discipline.put item use.pool.items
        ~ use.returned.map Prod.snd ++ item :: use.pool.items :=
          hput.append_left _
      _ ~ item :: (use.returned.map Prod.snd ++ use.pool.items) :=
          List.perm_middle
      _ ~ item :: use.pushed := hperm.cons item
      _ ~ use.pushed ++ [item] :=
          (List.perm_append_singleton item use.pushed).symm
  · change (use.pool.push discipline item).woken.length ≤
      (use.pool.push discipline item).items.length
    have hlength := hput.length_eq
    rcases AsyncPool.cancelOne_waiters
        { use.pool with items := discipline.put item use.pool.items } with
      ⟨_, heq⟩ | ⟨waiter, _, heq⟩
    · rw [AsyncPool.push, heq]
      simp only [List.length_cons] at hlength ⊢
      omega
    · rw [AsyncPool.push, heq, AsyncPool.items_cancelOne]
      simp only [List.length_append, List.length_cons] at hlength ⊢
      simp only [List.length_nil]
      omega

/-- Taking the front item keeps the items that were pushed accounted for. -/
theorem Covered.take {use : PoolUse T W} (h : use.Covered) {item : T}
    {rest : List T} (hitems : use.pool.items = item :: rest) {woken : List W}
    (hwoken : woken.length ≤ rest.length) (waiter : W) :
    Covered { use with
      pool := { use.pool with items := rest, woken := woken }
      returned := use.returned ++ [(waiter, item)] } := by
  obtain ⟨⟨hsafe, hperm⟩, _⟩ := h
  refine ⟨⟨hsafe, ?_⟩, hwoken⟩
  rw [hitems] at hperm
  simpa using hperm

theorem Covered.suspend {use : PoolUse T W} (h : use.Covered) (waiter : W) :
    Covered { use with
      pool := { use.pool with suspended := use.pool.suspended ++ [waiter] } } :=
  h

variable [DecidableEq W]

theorem Covered.step {discipline : Discipline} {use after : PoolUse T W}
    {action : Action T W} (h : use.Covered) (hguard : use.LeavesEnough action)
    (hstep : use.step discipline action = some after) : after.Covered := by
  have hlive : ¬use.emptyPop = true := by simp [h.1.1]
  cases action with
  | push item =>
      simp only [PoolUse.step, if_neg hlive] at hstep
      cases hstep
      exact h.push discipline item
  | asyncPop waiter =>
      simp only [PoolUse.step, if_neg hlive, AsyncPool.asyncPop] at hstep
      cases hitems : use.pool.items with
      | nil =>
          rw [hitems] at hstep
          cases hstep
          exact hitems ▸ h.suspend waiter
      | cons item rest =>
          rw [hitems] at hstep
          cases hstep
          have hless : use.pool.woken.length < use.pool.items.length :=
            hguard.resolve_left (by simp [hitems])
          rw [hitems, List.length_cons] at hless
          exact h.take hitems (Nat.le_of_lt_succ hless) waiter
  | resume waiter =>
      simp only [PoolUse.step, if_neg hlive, AsyncPool.resume,
        AsyncPool.pop] at hstep
      split at hstep
      · next hmem =>
          have herase : (use.pool.woken.erase waiter).length + 1 =
              use.pool.woken.length := List.length_erase_add_one hmem
          have hwoken := h.2
          cases hitems : use.pool.items with
          | nil =>
              -- A woken coroutine is covered by an item, so this is no case.
              rw [hitems, List.length_nil] at hwoken
              omega
          | cons item rest =>
              rw [hitems] at hstep
              cases hstep
              rw [hitems, List.length_cons] at hwoken
              have hcover : (use.pool.woken.erase waiter).length ≤
                  rest.length := by omega
              exact h.take hitems hcover waiter
      · cases hstep

/-- Where every immediate take leaves an item for each woken coroutine, any
number of coroutines may push and pop in any order: no `pop` meets an empty
container, and every pushed item is returned at most once. -/
theorem asyncPop_safe_of_leavesEnough (discipline : Discipline)
    {use : PoolUse T W}
    (h : Machine.Reaches (step discipline) LeavesEnough start use) :
    use.Safe := by
  have hcovered : use.Covered := by
    apply h.invariant ⟨⟨rfl, List.Perm.nil⟩, Nat.le_refl 0⟩
    intro before action after hbefore hguard hstep
    exact hbefore.step hguard hstep
  exact hcovered.1

/-- A waiter is woken by a push, and resumes while the item is still there. -/
theorem asyncPop_safe_of_leavesEnough_queue :
    ∃ use : PoolUse Nat Nat,
      Machine.run (step .queue) LeavesEnough start
        [.asyncPop 0, .push 7, .push 8, .asyncPop 1, .resume 0] = some use ∧
      use.returned = [(1, 7), (0, 8)] ∧ use.Safe :=
  ⟨_, rfl, rfl, asyncPop_safe_of_leavesEnough .queue
    (Machine.reaches_of_run
      [.asyncPop 0, .push 7, .push 8, .asyncPop 1, .resume 0] rfl)⟩

/-- A waiter is woken by a push, and a second coroutine takes the item before it
resumes: on the queue and on the stack it then pops an empty container. -/
theorem asyncPop_not_safe :
    (∃ use : PoolUse Nat Nat,
      Machine.run (step .queue) (fun _ _ => True) start
        [.asyncPop 0, .push 7, .asyncPop 1, .resume 0] = some use ∧
      ¬use.Safe) ∧
    ∃ use : PoolUse Nat Nat,
      Machine.run (step .stack) (fun _ _ => True) start
        [.asyncPop 0, .push 7, .asyncPop 1, .resume 0] = some use ∧
      ¬use.Safe :=
  ⟨⟨_, rfl, fun h => absurd h.1 (by decide)⟩,
    ⟨_, rfl, fun h => absurd h.1 (by decide)⟩⟩

end PoolUse

end FpgaFramework
