/-
Programs that drive a memory-mapped device.  A run is the trace of register
accesses that a program makes, with whatever the hardware answers to its reads.
Monitors carry facts about the trace through a program, access by access.
-/
import Mathlib.Tactic.Common

namespace FpgaFramework

universe u

/-- One access of a device register. -/
inductive Access (R W : Type) where
  | read (reg : R) (value : W)
  | write (reg : R) (value : W)
  deriving DecidableEq, Repr

/-- A program that reads and writes device registers and then returns. -/
inductive Driver (R W α : Type) where
  | done (result : α)
  | read (reg : R) (next : W → Driver R W α)
  | write (reg : R) (value : W) (next : Driver R W α)

namespace Driver

variable {R W α β : Type}

protected def bind : Driver R W α → (α → Driver R W β) → Driver R W β
  | done result, f => f result
  | read reg next, f => read reg fun value => (next value).bind f
  | write reg value next, f => write reg value (next.bind f)

instance : Monad (Driver R W) where
  pure := done
  bind := Driver.bind

theorem bind_done_right (m : Driver R W α) : m.bind done = m := by
  induction m with
  | done result => rfl
  | read reg next ih => exact congrArg _ (funext ih)
  | write reg value next ih => exact congrArg _ ih

theorem bind_bind {γ : Type} (m : Driver R W α) (f : α → Driver R W β)
    (g : β → Driver R W γ) :
    (m.bind f).bind g = m.bind fun result => (f result).bind g := by
  induction m with
  | done result => rfl
  | read reg next ih => exact congrArg _ (funext ih)
  | write reg value next ih => exact congrArg _ ih

instance : LawfulMonad (Driver R W) :=
  LawfulMonad.mk' _ (fun m => bind_done_right m) (fun _ _ => rfl)
    fun m f g => bind_bind m f g

def readWord (reg : R) : Driver R W W := read reg done

def writeWord (reg : R) (value : W) : Driver R W Unit :=
  write reg value (done ())

/-- Write words to one register in order. -/
def writeAll (reg : R) : List W → Driver R W Unit
  | [] => pure ()
  | word :: words => do
      writeWord reg word
      writeAll reg words

theorem writeAll_append (reg : R) (words words' : List W) :
    writeAll reg (words ++ words') =
      (do writeAll reg words; writeAll reg words') := by
  induction words with
  | nil => simp [writeAll]
  | cons word words ih => simp [writeAll, ih]

/-- `do { probe } while (timeout--)`: at most `timeout + 1` probes, up to the
first one that gives a result. -/
def pollFor (probe : Driver R W (Option α)) : Nat → Driver R W (Option α)
  | 0 => probe
  | timeout + 1 => do
      match ← probe with
      | some result => return some result
      | none => pollFor probe timeout

/-- `m` makes the accesses `trace` and returns `result` on some hardware. -/
inductive Runs : Driver R W α → List (Access R W) → α → Prop
  | done (result : α) : Runs (.done result) [] result
  | read {reg : R} {next : W → Driver R W α} {value : W}
      {trace : List (Access R W)} {result : α}
      (h : Runs (next value) trace result) :
      Runs (.read reg next) (.read reg value :: trace) result
  | write {reg : R} {value : W} {next : Driver R W α}
      {trace : List (Access R W)} {result : α} (h : Runs next trace result) :
      Runs (.write reg value next) (.write reg value :: trace) result

/-- Run a program against a recorded trace: the result, when the program makes
exactly the accesses of the trace. -/
def replay [DecidableEq R] [DecidableEq W] :
    Driver R W α → List (Access R W) → Option α
  | done result, [] => some result
  | read reg next, .read reg' value :: trace =>
      if reg = reg' then (next value).replay trace else none
  | write reg value next, .write reg' value' :: trace =>
      if reg = reg' ∧ value = value' then next.replay trace else none
  | _, _ => none

theorem runs_of_replay [DecidableEq R] [DecidableEq W] {m : Driver R W α}
    {trace : List (Access R W)} {result : α}
    (h : m.replay trace = some result) : Runs m trace result := by
  induction m generalizing trace with
  | done value =>
      cases trace with
      | nil =>
          cases h
          exact Runs.done _
      | cons => cases h
  | read reg next ih =>
      match trace, h with
      | .read reg' value :: trace, h =>
          simp only [replay] at h
          split at h
          · next heq =>
              rw [← heq]
              exact Runs.read (ih value h)
          · cases h
  | write reg value next ih =>
      match trace, h with
      | .write reg' value' :: trace, h =>
          simp only [replay] at h
          split at h
          · next heq =>
              rw [← heq.1, ← heq.2]
              exact Runs.write (ih h)
          · cases h

/-- The program makes at most `n` accesses, whatever the hardware answers. -/
def Within : Nat → Driver R W α → Prop
  | _, done _ => True
  | 0, _ => False
  | n + 1, read _ next => ∀ value, Within n (next value)
  | n + 1, write _ _ next => Within n next

theorem Within.length_le {n : Nat} {m : Driver R W α}
    {trace : List (Access R W)} {result : α} (h : Within n m)
    (hrun : Runs m trace result) : trace.length ≤ n := by
  induction hrun generalizing n with
  | done => exact Nat.zero_le _
  | @read reg next value trace result _ ih =>
      cases n with
      | zero => exact h.elim
      | succ n => exact Nat.succ_le_succ (ih (h value))
  | write _ ih =>
      cases n with
      | zero => exact h.elim
      | succ n => exact Nat.succ_le_succ (ih h)

theorem Within.mono {n k : Nat} {m : Driver R W α} (h : Within n m)
    (hle : n ≤ k) : Within k m := by
  induction m generalizing n k with
  | done => cases k <;> exact True.intro
  | read reg next ih =>
      match n, k, h, hle with
      | n + 1, k + 1, h, hle =>
          exact fun value => ih value (h value) (Nat.le_of_succ_le_succ hle)
  | write reg value next ih =>
      match n, k, h, hle with
      | n + 1, k + 1, h, hle => exact ih h (Nat.le_of_succ_le_succ hle)

theorem within_pure (n : Nat) (result : α) :
    Within n (pure result : Driver R W α) := by
  cases n <;> exact True.intro

theorem within_readWord (reg : R) : Within 1 (readWord reg : Driver R W W) :=
  fun _ => True.intro

theorem within_writeWord (reg : R) (value : W) :
    Within 1 (writeWord reg value : Driver R W Unit) :=
  True.intro

theorem within_writeAll (reg : R) (words : List W) :
    Within words.length (writeAll reg words) := by
  induction words with
  | nil => exact True.intro
  | cons word words ih => exact ih

/-- The accesses of a sequence add up. -/
theorem Within.bind {n k : Nat} {m : Driver R W α} {f : α → Driver R W β}
    (hm : Within n m) (hf : ∀ result, Within k (f result)) :
    Within (n + k) (m >>= f) := by
  induction m generalizing n with
  | done result => exact (hf result).mono (Nat.le_add_left _ _)
  | read reg next ih =>
      match n, hm with
      | n + 1, hm =>
          rw [Nat.succ_add]
          exact fun value => ih value (hm value)
  | write reg value next ih =>
      match n, hm with
      | n + 1, hm =>
          rw [Nat.succ_add]
          exact ih hm

theorem Within.pollFor {n : Nat} {probe : Driver R W (Option α)}
    (h : Within n probe) (timeout : Nat) :
    Within ((timeout + 1) * n) (pollFor probe timeout) := by
  induction timeout with
  | zero => simpa [Driver.pollFor] using h
  | succ timeout ih =>
      have hbound : (timeout + 1 + 1) * n = n + (timeout + 1) * n := by
        rw [Nat.succ_mul, Nat.add_comm]
      rw [hbound]
      refine h.bind fun answer => ?_
      cases answer with
      | none => exact ih
      | some result => exact within_pure _ _

end Driver

/-- A monitor follows a trace with a state of its own.  It assumes that reads
are answered as `answers` says, and asks that every access be one it allows. -/
structure Monitor (S : Type u) (R W : Type) where
  next : S → Access R W → S
  answers : S → R → W → Prop
  allows : S → Access R W → Prop

namespace Monitor

open Driver

variable {S : Type u} {R W α β : Type} (M : Monitor S R W)

/-- The state after a trace. -/
def after : S → List (Access R W) → S := List.foldl M.next

/-- Every read of the trace is answered as assumed. -/
def Admits : S → List (Access R W) → Prop
  | _, [] => True
  | s, .read reg value :: trace =>
      M.answers s reg value ∧ Admits (M.next s (.read reg value)) trace
  | s, .write reg value :: trace => Admits (M.next s (.write reg value)) trace

/-- Every access of the trace is allowed where it is made. -/
def Accepts : S → List (Access R W) → Prop
  | _, [] => True
  | s, access :: trace => M.allows s access ∧ Accepts (M.next s access) trace

instance decidableAccepts [∀ s access, Decidable (M.allows s access)] :
    ∀ s trace, Decidable (M.Accepts s trace)
  | _, [] => isTrue True.intro
  | s, access :: trace =>
      have := decidableAccepts (M.next s access) trace
      inferInstanceAs (Decidable (_ ∧ _))

/-- From `s`, the program makes only allowed accesses and ends with `post`. -/
def wp : Driver R W α → (α → S → Prop) → S → Prop
  | .done result, post, s => post result s
  | .read reg next, post, s => ∀ value, M.answers s reg value →
      M.allows s (.read reg value) ∧
        wp (next value) post (M.next s (.read reg value))
  | .write reg value next, post, s =>
      M.allows s (.write reg value) ∧ wp next post (M.next s (.write reg value))

variable {M} {m : Driver R W α} {post : α → S → Prop} {s : S}

/-- What `wp` promises holds of every run whose reads are answered as assumed. -/
theorem wp_sound {trace : List (Access R W)} {result : α} (h : M.wp m post s)
    (hrun : Runs m trace result) (hanswers : M.Admits s trace) :
    M.Accepts s trace ∧ post result (M.after s trace) := by
  induction hrun generalizing s with
  | done result => exact ⟨True.intro, h⟩
  | read _ ih =>
      obtain ⟨hallows, hnext⟩ := h _ hanswers.1
      have hrest := ih hnext hanswers.2
      exact ⟨⟨hallows, hrest.1⟩, hrest.2⟩
  | write _ ih =>
      have hrest := ih h.2 hanswers
      exact ⟨⟨h.1, hrest.1⟩, hrest.2⟩

theorem wp_mono {post' : α → S → Prop} (h : M.wp m post s)
    (hpost : ∀ result s', post result s' → post' result s') :
    M.wp m post' s := by
  induction m generalizing s with
  | done result => exact hpost _ _ h
  | read reg next ih =>
      exact fun value hvalue => ⟨(h value hvalue).1, ih value (h value hvalue).2⟩
  | write reg value next ih => exact ⟨h.1, ih h.2⟩

@[simp] theorem wp_pure (result : α) :
    M.wp (pure result) post s ↔ post result s :=
  Iff.rfl

@[simp] theorem wp_readWord (reg : R) {post : W → S → Prop} :
    M.wp (readWord reg) post s ↔ ∀ value, M.answers s reg value →
      M.allows s (.read reg value) ∧ post value (M.next s (.read reg value)) :=
  Iff.rfl

@[simp] theorem wp_writeWord (reg : R) (value : W) {post : Unit → S → Prop} :
    M.wp (writeWord reg value) post s ↔
      M.allows s (.write reg value) ∧ post () (M.next s (.write reg value)) :=
  Iff.rfl

@[simp] theorem wp_bind (f : α → Driver R W β) {post : β → S → Prop} :
    M.wp (m >>= f) post s ↔ M.wp m (fun result => M.wp (f result) post) s := by
  induction m generalizing s with
  | done result => exact Iff.rfl
  | read reg next ih =>
      apply forall_congr'
      intro value
      apply imp_congr_right
      intro _
      exact and_congr_right fun _ => ih value
  | write reg value next ih => exact and_congr_right fun _ => ih

/-- A program whose own promise is known, followed by the rest. -/
theorem wp_bind_of {f : α → Driver R W β} {middle : α → S → Prop}
    {post : β → S → Prop} (h : M.wp m middle s)
    (hrest : ∀ result s', middle result s' → M.wp (f result) post s') :
    M.wp (m >>= f) post s :=
  (wp_bind f).mpr (wp_mono h hrest)

/-- Polling keeps what every failed probe keeps. -/
theorem wp_pollFor (inv : S → Prop) {probe : Driver R W (Option α)}
    {post : Option α → S → Prop}
    (hprobe : ∀ s, inv s →
      M.wp probe (fun answer s' => match answer with
        | some result => post (some result) s'
        | none => inv s') s)
    (hnone : ∀ s, inv s → post none s) (timeout : Nat) (hinv : inv s) :
    M.wp (pollFor probe timeout) post s := by
  induction timeout generalizing s with
  | zero =>
      apply wp_mono (hprobe s hinv)
      intro answer s' hanswer
      cases answer with
      | none => exact hnone s' hanswer
      | some result => exact hanswer
  | succ timeout ih =>
      refine wp_bind_of (hprobe s hinv) ?_
      intro answer s' hanswer
      cases answer with
      | none => exact ih hanswer
      | some result => exact hanswer

end Monitor

end FpgaFramework
