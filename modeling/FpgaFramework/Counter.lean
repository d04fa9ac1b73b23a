/-
The 32-bit counters that the session waits on.
-/
import Mathlib.Algebra.Group.Nat.Defs
import Mathlib.Data.List.Infix
import Mathlib.Tactic.Common

namespace FpgaFramework

/-- `Counter`, as far as its value goes.  No constructor writes `_val`, so a new
counter holds whatever its memory held. -/
structure Counter where
  val : UInt32
deriving Repr, DecidableEq

namespace Counter

/-- `incr`: `_val++` wraps. -/
def incr (counter : Counter) : Counter := ⟨counter.val + 1⟩

/-- `decr`: nothing happens at zero. -/
def decr (counter : Counter) : Counter :=
  if counter.val = 0 then counter else ⟨counter.val - 1⟩

/-- `get_value`. -/
def getValue (counter : Counter) : Nat := counter.val.toNat

theorem getValue_incr (counter : Counter) :
    counter.incr.getValue = (counter.getValue + 1) % 2 ^ 32 := by
  simp [incr, getValue, UInt32.toNat_add]

theorem getValue_incr_le (counter : Counter) :
    counter.incr.getValue ≤ counter.getValue + 1 := by
  rw [getValue_incr]
  exact Nat.mod_le _ _

theorem val_eq_zero_iff (counter : Counter) :
    counter.val = 0 ↔ counter.getValue = 0 := by
  rw [getValue, ← UInt32.toNat_inj]
  rfl

theorem getValue_decr (counter : Counter) :
    counter.decr.getValue = counter.getValue - 1 := by
  by_cases h : counter.val = 0
  · have hzero := (val_eq_zero_iff counter).mp h
    rw [decr, if_pos h, hzero]
  · have hpos : counter.getValue ≠ 0 := fun hzero =>
      h ((val_eq_zero_iff counter).mpr hzero)
    have hle : (1 : UInt32) ≤ counter.val := by
      rw [UInt32.le_iff_toNat_le]
      exact Nat.one_le_iff_ne_zero.mpr hpos
    rw [decr, if_neg h]
    simp only [getValue, UInt32.toNat_sub_of_le _ _ hle]
    rfl

/-- `n` calls of `incr`. -/
def incrs (counter : Counter) : Nat → Counter
  | 0 => counter
  | n + 1 => (counter.incrs n).incr

theorem getValue_incrs (counter : Counter) (n : Nat)
    (h : counter.getValue + n < 2 ^ 32) :
    (counter.incrs n).getValue = counter.getValue + n := by
  induction n with
  | zero => rfl
  | succ n ih =>
      rw [incrs, getValue_incr, ih (by omega)]
      omega

theorem getValue_incrs_le (counter : Counter) (n : Nat) :
    (counter.incrs n).getValue ≤ counter.getValue + n := by
  induction n with
  | zero => exact Nat.le_refl _
  | succ n ih =>
      have hincr := getValue_incr_le (counter.incrs n)
      rw [incrs]
      omega

/-- The constructors set `_timer` and `_prefix`; `_val` stays what the memory
held. -/
def construct (memory : UInt32) : Counter := ⟨memory⟩

/-- The two calls that change a counter. -/
inductive Call where
  | incr
  | decr
deriving Repr, DecidableEq

def call (counter : Counter) : Call → Counter
  | .incr => counter.incr
  | .decr => counter.decr

def calls (counter : Counter) (history : List Call) : Counter :=
  history.foldl call counter

/-- One call in exact arithmetic. -/
def Call.count (value : Nat) : Call → Nat
  | .incr => value + 1
  | .decr => value - 1

/-- What a history counts to from `value` on, in exact arithmetic. -/
def countFrom (value : Nat) (history : List Call) : Nat :=
  history.foldl Call.count value

/-- `async_wait_zero` looks at the value at once and again when a call has
cancelled the timer, so it can return when one of these values is zero. -/
def MayReturn (counter : Counter) (history : List Call) : Prop :=
  ∃ early, early <+: history ∧ (counter.calls early).val = 0

/-- A counter constructed over `memory` tells the exact count all through the
history, and nobody who waits for zero after `n` increments is let through by
fewer than `n` decrements. -/
structure Counts (memory : UInt32) (history : List Call) : Prop where
  value_eq : ∀ early, early <+: history →
    ((construct memory).calls early).getValue = countFrom 0 early
  waits : ∀ n later, List.replicate n .incr ++ later <+: history →
    later.count .decr < n →
      ¬((construct memory).calls (List.replicate n .incr)).MayReturn later

@[simp] theorem calls_append (counter : Counter) (first second : List Call) :
    counter.calls (first ++ second) = (counter.calls first).calls second := by
  rw [calls, calls, calls, List.foldl_append]

@[simp] theorem countFrom_append (value : Nat) (first second : List Call) :
    countFrom value (first ++ second) = countFrom (countFrom value first) second := by
  rw [countFrom, countFrom, countFrom, List.foldl_append]

theorem countFrom_replicate (value n : Nat) :
    countFrom value (List.replicate n .incr) = value + n := by
  induction n generalizing value with
  | zero => rfl
  | succ n ih =>
      rw [List.replicate_succ]
      change countFrom (value + 1) (List.replicate n .incr) = value + (n + 1)
      rw [ih]
      omega

/-- Every decrement takes at most one away. -/
theorem le_countFrom (value : Nat) (history : List Call) :
    value ≤ countFrom value history + history.count .decr := by
  induction history generalizing value with
  | nil => exact Nat.le_refl _
  | cons first rest ih =>
      have hrest := ih (first.count value)
      change value ≤ countFrom (first.count value) rest + _
      cases first with
      | incr =>
          rw [List.count_cons_of_ne (by decide)]
          simp only [Call.count] at hrest ⊢
          omega
      | decr =>
          rw [List.count_cons_self]
          simp only [Call.count] at hrest ⊢
          omega

theorem getValue_call {counter : Counter} {value : Nat}
    (heq : counter.getValue = value) (next : Call)
    (hsmall : next.count value < 2 ^ 32) :
    (counter.call next).getValue = next.count value := by
  cases next with
  | incr =>
      change counter.incr.getValue = value + 1
      rw [getValue_incr, heq]
      exact Nat.mod_eq_of_lt hsmall
  | decr =>
      change counter.decr.getValue = value - 1
      rw [getValue_decr, heq]

/-- From zero on, and while the exact count fits 32 bits, the value is exact. -/
theorem getValue_calls_construct (history : List Call)
    (hsmall : ∀ early, early <+: history → countFrom 0 early < 2 ^ 32) :
    ((construct 0).calls history).getValue = countFrom 0 history := by
  induction history using List.reverseRecOn with
  | nil => rfl
  | append_singleton before last ih =>
      have hbefore : ((construct 0).calls before).getValue = countFrom 0 before := by
        apply ih
        intro early hearly
        exact hsmall early (hearly.trans (List.prefix_append before [last]))
      have hlast := hsmall (before ++ [last]) List.prefix_rfl
      rw [countFrom_append] at hlast ⊢
      rw [calls_append]
      exact getValue_call hbefore last hlast

/-- Exact values keep every wait until enough decrements were made. -/
theorem waits_of_value_eq {memory : UInt32} {history : List Call}
    (hvalue : ∀ early, early <+: history →
      ((construct memory).calls early).getValue = countFrom 0 early)
    (n : Nat) (later : List Call)
    (hhistory : List.replicate n .incr ++ later <+: history)
    (hfew : later.count .decr < n) :
    ¬((construct memory).calls (List.replicate n .incr)).MayReturn later := by
  rintro ⟨early, hearly, hzero⟩
  have hpre : List.replicate n .incr ++ early <+: history :=
    ((List.prefix_append_right_inj _).mpr hearly).trans hhistory
  have hexact := hvalue _ hpre
  rw [calls_append, (val_eq_zero_iff _).mp hzero, countFrom_append,
    countFrom_replicate] at hexact
  have hle := le_countFrom (0 + n) early
  have hcount := hearly.sublist.count_le .decr
  omega

/-- A counter counts exactly when its memory held zero and the exact count never
leaves 32 bits. -/
theorem counts_iff (memory : UInt32) (history : List Call) :
    Counts memory history ↔
      memory = 0 ∧ ∀ early, early <+: history → countFrom 0 early < 2 ^ 32 := by
  constructor
  · intro hcounts
    constructor
    · have hnil := hcounts.value_eq [] List.nil_prefix
      exact (val_eq_zero_iff (construct memory)).mpr hnil
    · intro early hearly
      rw [← hcounts.value_eq early hearly]
      exact UInt32.toNat_lt _
  · rintro ⟨rfl, hsmall⟩
    have hvalue : ∀ early, early <+: history →
        ((construct 0).calls early).getValue = countFrom 0 early := by
      intro early hearly
      apply getValue_calls_construct
      intro earlier hearlier
      exact hsmall earlier (hearlier.trans hearly)
    exact ⟨hvalue, waits_of_value_eq hvalue⟩

/-- Over memory that held 2^32 - 1, one increment makes zero, and the wait that
follows it returns before any decrement. -/
theorem not_counts_dirty :
    ((construct 4294967295).calls [.incr]).getValue = 0 ∧
      ((construct 4294967295).calls [.incr]).MayReturn [] ∧
      ¬Counts 4294967295 [.incr] := by
  refine ⟨by decide, ⟨[], List.prefix_rfl, by decide⟩, ?_⟩
  intro hcounts
  have hexact := hcounts.value_eq [.incr] List.prefix_rfl
  revert hexact
  decide

end Counter

end FpgaFramework
