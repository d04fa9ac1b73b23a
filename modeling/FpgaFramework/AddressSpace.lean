/-
A flat memory.  Ranges of it are loaded and stored as lists; a store is seen in its
own range and nowhere else.
-/
import FpgaFramework.Buffer

namespace FpgaFramework

universe u

/-- One value at every address. -/
abbrev AddressSpace (α : Type u) := Nat → α

/-- The address is one of the range. -/
def Range.Contains (range : Range) (address : Nat) : Prop :=
  range.offset ≤ address ∧ address < range.stop

instance (range : Range) (address : Nat) : Decidable (range.Contains address) := by
  unfold Range.Contains
  infer_instance

instance (first second : Range) : Decidable (first.Disjoint second) := by
  unfold Range.Disjoint
  infer_instance

theorem Range.Disjoint.symm {first second : Range} (h : first.Disjoint second) :
    second.Disjoint first :=
  Or.symm h

theorem Range.Disjoint.not_contains {first second : Range}
    (h : first.Disjoint second) {address : Nat} (hfirst : first.Contains address) :
    ¬second.Contains address := by
  intro hsecond
  have hlow := hfirst.1
  have hhigh := hfirst.2
  have hlow' := hsecond.1
  have hhigh' := hsecond.2
  rcases h with hbefore | hafter <;> omega

theorem Buffer.length_of_read {α : Type u} {buffer items : List α}
    {offset length : Nat} (h : Buffer.read buffer offset length = some items) :
    items.length = length := by
  obtain ⟨hle, heq⟩ := Option.ite_none_right_eq_some.mp h
  cases heq
  rw [List.length_take, List.length_drop]
  omega

namespace AddressSpace

variable {α : Type u}

/-- The values of `length` addresses from `address` on. -/
def load (memory : AddressSpace α) (address length : Nat) : List α :=
  (List.range length).map fun i => memory (address + i)

/-- The memory with `values` from `address` on. -/
def store (memory : AddressSpace α) (address : Nat) (values : List α) :
    AddressSpace α :=
  fun a => if address ≤ a then (values[a - address]?).getD (memory a) else memory a

@[simp] theorem length_load (memory : AddressSpace α) (address length : Nat) :
    (load memory address length).length = length := by
  rw [load, List.length_map, List.length_range]

/-- Memories that agree on a range are loaded alike there. -/
theorem load_congr {memory after : AddressSpace α} {range : Range}
    (h : ∀ address, range.Contains address → after address = memory address) :
    load after range.offset range.length = load memory range.offset range.length := by
  apply List.map_congr_left
  intro i hi
  apply h
  have hlt := List.mem_range.mp hi
  constructor
  · exact Nat.le_add_right _ _
  · exact Nat.add_lt_add_left hlt _

/-- A store changes nothing outside its range. -/
theorem store_of_not_contains (memory : AddressSpace α) {address : Nat}
    {values : List α} {a : Nat}
    (h : ¬Range.Contains ⟨address, values.length⟩ a) :
    store memory address values a = memory a := by
  unfold store
  split
  · next hle =>
      have hnot : values.length ≤ a - address := by
        apply Nat.le_of_not_lt
        intro hlt
        exact h ⟨hle, by simp only [Range.stop]; omega⟩
      rw [List.getElem?_eq_none hnot]
      rfl
  · rfl

/-- A store is loaded back. -/
theorem load_store (memory : AddressSpace α) (address : Nat) (values : List α) :
    load (store memory address values) address values.length = values := by
  apply List.ext_getElem
  · exact length_load _ _ _
  · intro i hleft hright
    simp only [load, store, List.getElem_map, List.getElem_range]
    rw [if_pos (Nat.le_add_right _ _), Nat.add_sub_cancel_left,
      List.getElem?_eq_getElem hright]
    rfl

/-- What is loaded from a range survives a store into another one. -/
theorem load_store_of_disjoint (memory : AddressSpace α) {range : Range}
    {address : Nat} {values : List α}
    (h : Range.Disjoint ⟨address, values.length⟩ range) :
    load (store memory address values) range.offset range.length =
      load memory range.offset range.length := by
  apply load_congr
  intro a hcontains
  exact store_of_not_contains memory (h.symm.not_contains hcontains)

end AddressSpace

end FpgaFramework
