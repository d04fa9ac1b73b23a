/-
Buffers with bounds.  Reads and writes that fail when they leave the buffer,
buffers that are filled piece by piece, and ranges that tile a buffer.
-/
import Mathlib.Algebra.Group.Nat.Defs
import Mathlib.Data.List.Basic
import Mathlib.Tactic.Common

namespace FpgaFramework

universe u

variable {α : Type u}

namespace Buffer

/-- The `length` items from `offset` on, when they all lie in the buffer. -/
def read (buffer : List α) (offset length : Nat) : Option (List α) :=
  if offset + length ≤ buffer.length then some ((buffer.drop offset).take length)
  else none

/-- The buffer with `source` put over its items from `offset` on. -/
def put (buffer : List α) (offset : Nat) (source : List α) : List α :=
  buffer.take offset ++ (source ++ buffer.drop (offset + source.length))

/-- A store of `source` at `offset`, when it stays in the buffer. -/
def write (buffer : List α) (offset : Nat) (source : List α) : Option (List α) :=
  if offset + source.length ≤ buffer.length then some (put buffer offset source)
  else none

theorem read_isSome_iff (buffer : List α) (offset length : Nat) :
    (read buffer offset length).isSome = true ↔
      offset + length ≤ buffer.length := by
  by_cases h : offset + length ≤ buffer.length <;> simp [read, h]

theorem read_of_le {buffer : List α} {offset length : Nat}
    (h : offset + length ≤ buffer.length) :
    read buffer offset length = some ((buffer.drop offset).take length) :=
  if_pos h

/-- What stands between a front and a back is read at the front's length. -/
theorem read_append (front middle back : List α) :
    read (front ++ (middle ++ back)) front.length middle.length = some middle := by
  rw [read_of_le]
  · rw [List.drop_left, List.take_left]
  · simp only [List.length_append]
    omega

/-- A buffer is read whole. -/
theorem read_all (buffer : List α) :
    read buffer 0 buffer.length = some buffer := by
  have h := read_append [] buffer []
  simpa using h

@[simp] theorem length_put {buffer source : List α} {offset : Nat}
    (h : offset + source.length ≤ buffer.length) :
    (put buffer offset source).length = buffer.length := by
  simp only [put, List.length_append, List.length_take, List.length_drop]
  omega

/-- A store right behind the part that is filled extends it. -/
theorem put_append (filled rest source : List α) :
    put (filled ++ rest) filled.length source =
      filled ++ source ++ rest.drop source.length := by
  simp only [put, List.take_left, ← List.drop_drop, List.drop_left,
    List.append_assoc]

theorem write_of_le {buffer source : List α} {offset : Nat}
    (h : offset + source.length ≤ buffer.length) :
    write buffer offset source = some (put buffer offset source) :=
  if_pos h

end Buffer

/-- The items at `offset`, ..., `offset + length - 1`. -/
structure Range where
  offset : Nat
  length : Nat
deriving Repr, DecidableEq

/-- The offset behind the last item. -/
def Range.stop (range : Range) : Nat := range.offset + range.length

/-- No item lies in both ranges. -/
def Range.Disjoint (first second : Range) : Prop :=
  first.stop ≤ second.offset ∨ second.stop ≤ first.offset

/-- The ranges follow one another from `start` to `stop` without gaps. -/
def Tiles : Nat → Nat → List Range → Prop
  | start, stop, [] => start = stop
  | start, stop, range :: rest =>
      range.offset = start ∧ Tiles range.stop stop rest

theorem Tiles.start_le {start stop : Nat} {ranges : List Range}
    (h : Tiles start stop ranges) : start ≤ stop := by
  induction ranges generalizing start with
  | nil => exact Nat.le_of_eq h
  | cons range rest ih =>
      have hrest := ih h.2
      have hstart := h.1
      simp only [Range.stop] at hrest
      omega

theorem Tiles.append {start middle stop : Nat} {front back : List Range}
    (hfront : Tiles start middle front) (hback : Tiles middle stop back) :
    Tiles start stop (front ++ back) := by
  induction front generalizing start with
  | nil =>
      have heq : start = middle := hfront
      rw [heq]
      exact hback
  | cons range rest ih => exact ⟨hfront.1, ih hfront.2⟩

/-- Of `count` records side by side each one ends with the last or before. -/
theorem record_stop_le {index count : Nat} (h : index < count) (size : Nat) :
    index * size + size ≤ count * size := by
  rw [← Nat.succ_mul]
  exact Nat.mul_le_mul_right size h

/-- Records of one size, laid side by side. -/
theorem tiles_records (start size count : Nat) :
    Tiles start (start + count * size)
      ((List.range count).map fun i => ⟨start + i * size, size⟩) := by
  induction count with
  | zero => simp [Tiles]
  | succ count ih =>
      rw [List.range_succ, List.map_append]
      apply ih.append
      constructor
      · rfl
      · change start + count * size + size = start + (count + 1) * size
        rw [Nat.succ_mul, Nat.add_assoc]

theorem Tiles.inside {start stop : Nat} {ranges : List Range}
    (h : Tiles start stop ranges) :
    ∀ range ∈ ranges, start ≤ range.offset ∧ range.stop ≤ stop := by
  induction ranges generalizing start with
  | nil =>
      intro range hmem
      cases hmem
  | cons first rest ih =>
      have hstart := h.1
      have hle : start ≤ first.stop := by
        simp only [Range.stop]
        omega
      intro range hmem
      rcases List.mem_cons.mp hmem with rfl | hrest
      · exact ⟨Nat.le_of_eq h.1.symm, h.2.start_le⟩
      · obtain ⟨hfirst, hlast⟩ := ih h.2 range hrest
        exact ⟨Nat.le_trans hle hfirst, hlast⟩

/-- Of two tiles the later one starts where the earlier one has ended. -/
theorem Tiles.pairwise {start stop : Nat} {ranges : List Range}
    (h : Tiles start stop ranges) :
    ranges.Pairwise fun first second => first.stop ≤ second.offset := by
  induction ranges generalizing start with
  | nil => exact List.Pairwise.nil
  | cons first rest ih =>
      apply List.Pairwise.cons
      · intro second hmem
        exact (h.2.inside second hmem).1
      · exact ih h.2

/-- Every offset lies in some tile. -/
theorem Tiles.covers {start stop : Nat} {ranges : List Range}
    (h : Tiles start stop ranges) {offset : Nat} (hstart : start ≤ offset)
    (hstop : offset < stop) :
    ∃ range ∈ ranges, range.offset ≤ offset ∧ offset < range.stop := by
  induction ranges generalizing start with
  | nil =>
      have heq : start = stop := h
      omega
  | cons first rest ih =>
      by_cases hfirst : offset < first.stop
      · have heq := h.1
        exact ⟨first, List.mem_cons_self, by omega, hfirst⟩
      · obtain ⟨range, hmem, hinside⟩ := ih h.2 (by omega)
        exact ⟨range, List.mem_cons_of_mem first hmem, hinside⟩

end FpgaFramework
