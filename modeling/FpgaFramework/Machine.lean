/-
Labelled partial steps and the runs they make.  A run may be restricted by a
guard on every step; invariants and simulations are lifted from one step to
whole runs here, once.
-/
import Mathlib.Tactic.Common

namespace FpgaFramework

universe u v w u' v'

namespace Machine

variable {S : Type u} {A : Type v} (step : S → A → Option S)

/-- The states that runs reach from `start` when every step, taken in state
`s` with label `a`, meets `guard s a`. -/
inductive Reaches (guard : S → A → Prop) (start : S) : S → Prop
  | refl : Reaches guard start start
  | tail {s s' : S} {a : A} (hreach : Reaches guard start s)
      (hguard : guard s a) (hstep : step s a = some s') :
      Reaches guard start s'

/-- Runs without a restriction. -/
abbrev Reachable (start : S) : S → Prop :=
  Reaches step (fun _ _ => True) start

/-- Execute labels one after another, checking the guard of every step. -/
def run (guard : S → A → Prop) [∀ s a, Decidable (guard s a)] :
    S → List A → Option S
  | s, [] => some s
  | s, a :: rest =>
      if guard s a then (step s a).bind fun s' => run guard s' rest else none

variable {step} {guard : S → A → Prop} {start : S}

theorem Reaches.trans {middle last : S}
    (hfirst : Reaches step guard start middle)
    (hsecond : Reaches step guard middle last) :
    Reaches step guard start last := by
  induction hsecond with
  | refl => exact hfirst
  | tail _ hguard hstep ih => exact Reaches.tail ih hguard hstep

/-- A checked execution is a run. -/
theorem reaches_of_run [∀ s a, Decidable (guard s a)] (actions : List A)
    {last : S} (h : run step guard start actions = some last) :
    Reaches step guard start last := by
  induction actions generalizing start with
  | nil =>
      cases h
      exact Reaches.refl
  | cons a rest ih =>
      simp only [run] at h
      split at h
      · next hguard =>
          obtain ⟨next, hstep, hrest⟩ := Option.bind_eq_some_iff.mp h
          exact (Reaches.tail Reaches.refl hguard hstep).trans (ih hrest)
      · cases h

theorem Reaches.mono {guard' : S → A → Prop}
    (hguards : ∀ s a, guard s a → guard' s a) {last : S}
    (h : Reaches step guard start last) : Reaches step guard' start last := by
  induction h with
  | refl => exact Reaches.refl
  | tail _ hguard hstep ih => exact Reaches.tail ih (hguards _ _ hguard) hstep

theorem Reaches.reachable {last : S} (h : Reaches step guard start last) :
    Reachable step start last :=
  h.mono fun _ _ _ => True.intro

/-- What holds at the start and is kept by every guarded step holds in every
state that guarded runs reach. -/
theorem Reaches.invariant {Inv : S → Prop} (hstart : Inv start)
    (hkeep : ∀ s a s', Inv s → guard s a → step s a = some s' → Inv s')
    {last : S} (h : Reaches step guard start last) : Inv last := by
  induction h with
  | refl => exact hstart
  | tail _ hguard hstep ih => exact hkeep _ _ _ ih hguard hstep

/-- The same, when the step may use an invariant known already. -/
theorem Reaches.invariant_of {Known Inv : S → Prop}
    (hknown : ∀ s, Reaches step guard start s → Known s) (hstart : Inv start)
    (hkeep : ∀ s a s', Known s → Inv s → guard s a → step s a = some s' → Inv s')
    {last : S} (h : Reaches step guard start last) : Inv last := by
  induction h with
  | refl => exact hstart
  | tail hreach hguard hstep ih =>
      exact hkeep _ _ _ (hknown _ hreach) ih hguard hstep

/-- Where a measure falls with some guarded step until a goal is met, a run
meets the goal. -/
theorem reaches_of_measure {Inv Goal : S → Prop} (measure : S → Nat)
    (hprogress : ∀ s, Inv s → ¬Goal s → ∃ a s', guard s a ∧
      step s a = some s' ∧ Inv s' ∧ measure s' < measure s)
    {s : S} (h : Inv s) : ∃ last, Reaches step guard s last ∧ Goal last := by
  induction hn : measure s using Nat.strongRecOn generalizing s with
  | _ n ih =>
      by_cases hgoal : Goal s
      · exact ⟨s, Reaches.refl, hgoal⟩
      · obtain ⟨a, s', hguard, hstep, hinv, hless⟩ := hprogress s h hgoal
        obtain ⟨last, hreach, hlast⟩ := ih (measure s') (hn ▸ hless) hinv rfl
        exact ⟨last, (Reaches.tail Reaches.refl hguard hstep).trans hreach, hlast⟩

/-- A view of a machine that makes, at each guarded step, no step or one guarded
step of another machine, reaches what that machine reaches. -/
theorem Reaches.view {S' : Type u'} {A' : Type v'}
    {step' : S' → A' → Option S'} {guard' : S' → A' → Prop} (view : S → S')
    (hview : ∀ s a s', guard s a → step s a = some s' →
      view s' = view s ∨
        ∃ a', guard' (view s) a' ∧ step' (view s) a' = some (view s'))
    {last : S} (h : Reaches step guard start last) :
    Reaches step' guard' (view start) (view last) := by
  induction h with
  | refl => exact Reaches.refl
  | tail _ hguard hstep ih =>
      rcases hview _ _ _ hguard hstep with heq | ⟨a', hguard', hstep'⟩
      · rw [heq]
        exact ih
      · exact Reaches.tail ih hguard' hstep'

/-- The same, when the view may use an invariant known already. -/
theorem Reaches.view_of {S' : Type u'} {A' : Type v'}
    {step' : S' → A' → Option S'} {guard' : S' → A' → Prop} {Known : S → Prop}
    (hknown : ∀ s, Reaches step guard start s → Known s) (view : S → S')
    (hview : ∀ s a s', Known s → guard s a → step s a = some s' →
      view s' = view s ∨
        ∃ a', guard' (view s) a' ∧ step' (view s) a' = some (view s'))
    {last : S} (h : Reaches step guard start last) :
    Reaches step' guard' (view start) (view last) := by
  induction h with
  | refl => exact Reaches.refl
  | tail hreach hguard hstep ih =>
      rcases hview _ _ _ (hknown _ hreach) hguard hstep with
        heq | ⟨a', hguard', hstep'⟩
      · rw [heq]
        exact ih
      · exact Reaches.tail ih hguard' hstep'

/-- The machine that also writes down a note of every step it takes. -/
def recording {L : Type w} (step : S → A → Option S) (note : S → A → S → List L) :
    S × List L → A → Option (S × List L)
  | (s, notes), a => (step s a).map fun s' => (s', notes ++ note s a s')

theorem recording_eq_some {L : Type w} {note : S → A → S → List L}
    {s s' : S} {notes notes' : List L} {a : A} :
    recording step note (s, notes) a = some (s', notes') ↔
      step s a = some s' ∧ notes' = notes ++ note s a s' := by
  simp only [recording, Option.map_eq_some_iff, Prod.mk.injEq]
  constructor
  · rintro ⟨_, hstep, rfl, rfl⟩
    exact ⟨hstep, rfl⟩
  · rintro ⟨hstep, rfl⟩
    exact ⟨s', hstep, rfl, rfl⟩

/-- `last` is reached from `start`, and `notes` are the notes of the way there. -/
def Records {L : Type w} (step : S → A → Option S) (note : S → A → S → List L)
    (guard : S → A → Prop) (start last : S) (notes : List L) : Prop :=
  Reaches (recording step note) (fun entry => guard entry.1) (start, [])
    (last, notes)

/-- What is recorded on a run is a run. -/
theorem Records.reaches {L : Type w} {note : S → A → S → List L} {last : S}
    {notes : List L} (h : Records step note guard start last notes) :
    Reaches step guard start last := by
  refine Reaches.view Prod.fst ?_ h
  rintro ⟨s, notes⟩ a ⟨s', notes'⟩ hguard hstep
  exact Or.inr ⟨a, hguard, (recording_eq_some.mp hstep).1⟩

theorem records_of_run {L : Type w} {note : S → A → S → List L}
    [∀ s a, Decidable (guard s a)] (actions : List A) {last : S} {notes : List L}
    (h : run (recording step note) (fun entry => guard entry.1) (start, []) actions =
      some (last, notes)) : Records step note guard start last notes :=
  reaches_of_run actions h

/-- What holds at the start with no notes and is kept by every guarded step, with
the note of that step, holds of every run and its notes. -/
theorem Records.invariant {L : Type w} {note : S → A → S → List L}
    {Inv : S → List L → Prop} (hstart : Inv start [])
    (hkeep : ∀ s a s' notes, Reaches step guard start s → Inv s notes →
      guard s a → step s a = some s' → Inv s' (notes ++ note s a s'))
    {last : S} {notes : List L}
    (h : Records step note guard start last notes) : Inv last notes := by
  have hentry : ∀ entry : S × List L,
      Reaches (recording step note) (fun entry => guard entry.1) (start, []) entry →
        Inv entry.1 entry.2 := by
    intro entry hreach
    induction hreach with
    | refl => exact hstart
    | tail hreach hguard hstep ih =>
        obtain ⟨hmove, hnotes⟩ := recording_eq_some.mp hstep
        rw [hnotes]
        exact hkeep _ _ _ _ (Records.reaches hreach) ih hguard hmove
  exact hentry (last, notes) h

end Machine

end FpgaFramework
