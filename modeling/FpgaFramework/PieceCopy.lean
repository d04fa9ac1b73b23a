/-
Copies made of pieces.  A range of words is copied by accesses of several words
each, one after another; which of them together do what a copy should.
-/
import FpgaFramework.Buffer
import Mathlib.Logic.Nontrivial.Defs

namespace FpgaFramework

open scoped List

universe u

/-- Memory by address, and the addresses that were read and written. -/
structure Bus (α : Type u) where
  words : Int → α
  reads : List Int
  writes : List Int

namespace Bus

variable {α : Type u}

/-- `length` addresses from `address` on. -/
def span (address : Int) (length : Nat) : List Int :=
  (List.range length).map fun (k : Nat) => address + (k : Int)

/-- One access of `length` words: all of them are read before any is written. -/
def transfer (bus : Bus α) (destination source : Int) (length : Nat) : Bus α where
  words address :=
    if destination ≤ address ∧ address < destination + length then
      bus.words (source + (address - destination))
    else bus.words address
  reads := bus.reads ++ span source length
  writes := bus.writes ++ span destination length

/-- The access for one piece of a longer range. -/
def piece (destination source : Int) (bus : Bus α) (range : Range) : Bus α :=
  bus.transfer (destination + range.offset) (source + range.offset) range.length

def pieces (bus : Bus α) (destination source : Int) (ranges : List Range) : Bus α :=
  ranges.foldl (piece destination source) bus

/-- Memory that nothing has accessed yet. -/
def fresh (words : Int → α) : Bus α := ⟨words, [], []⟩

/-- The operation copies `count` words: the destination holds what the source
held, every word of it is written once, and nothing else is accessed. -/
structure CopiesOnce (operation : Bus α → Bus α) (destination source : Int)
    (count : Nat) : Prop where
  words_eq : ∀ words, ∀ i < count,
    (operation (fresh words)).words (destination + i) = words (source + i)
  frame : ∀ words address,
    address < destination ∨ destination + count ≤ address →
      (operation (fresh words)).words address = words address
  writes_once : ∀ words,
    (operation (fresh words)).writes ~ span destination count
  reads_inside : ∀ words, ∀ address ∈ (operation (fresh words)).reads,
    source ≤ address ∧ address < source + count

theorem mem_span {address start : Int} {length : Nat} :
    address ∈ span start length ↔ start ≤ address ∧ address < start + length := by
  constructor
  · intro hmem
    obtain ⟨k, hk, rfl⟩ := List.mem_map.mp hmem
    have hlt := List.mem_range.mp hk
    omega
  · rintro ⟨hstart, hstop⟩
    apply List.mem_map.mpr
    exact ⟨(address - start).toNat, List.mem_range.mpr (by omega), by omega⟩

theorem span_append (address : Int) (first second : Nat) :
    span address first ++ span (address + first) second =
      span address (first + second) := by
  rw [span, span, span, List.range_add, List.map_append, List.map_map]
  congr 1
  apply List.map_congr_left
  intro k _
  simp only [Function.comp_apply]
  omega

theorem words_transfer_inside (bus : Bus α) (destination source : Int)
    {length k : Nat} (h : k < length) :
    (bus.transfer destination source length).words (destination + k) =
      bus.words (source + k) := by
  have hinside : destination ≤ destination + k ∧
      destination + k < destination + length := by omega
  have hoffset : source + (destination + k - destination) = source + k := by omega
  simp only [transfer, if_pos hinside, hoffset]

theorem words_transfer_outside (bus : Bus α) {destination source address : Int}
    {length : Nat}
    (h : address < destination ∨ destination + length ≤ address) :
    (bus.transfer destination source length).words address = bus.words address := by
  have houtside : ¬(destination ≤ address ∧ address < destination + length) := by
    omega
  simp only [transfer, if_neg houtside]

section Pieces

variable {destination source : Int} {start stop : Nat} {ranges : List Range}

/-- Pieces that tile a part of the destination leave the rest alone. -/
theorem words_pieces_outside (h : Tiles start stop ranges) (bus : Bus α)
    {address : Int}
    (haway : address < destination + start ∨ destination + stop ≤ address) :
    (bus.pieces destination source ranges).words address = bus.words address := by
  induction ranges generalizing start bus with
  | nil => rfl
  | cons range rest ih =>
      obtain ⟨rfl, hrest⟩ := h
      have hle := hrest.start_le
      simp only [Range.stop] at hrest hle
      change ((bus.piece destination source range).pieces destination source
        rest).words address = _
      rw [ih hrest _ (by omega), piece, words_transfer_outside]
      omega

/-- A word arrives when it was not written before its turn to be read. -/
theorem words_pieces_inside (h : Tiles start stop ranges) (bus : Bus α) {i : Nat}
    (hstart : start ≤ i) (hstop : i < stop)
    (hread : source + i < destination + start ∨ destination ≤ source) :
    (bus.pieces destination source ranges).words (destination + i) =
      bus.words (source + i) := by
  induction ranges generalizing start bus with
  | nil =>
      have heq : start = stop := h
      omega
  | cons range rest ih =>
      obtain ⟨rfl, hrest⟩ := h
      have hle := hrest.start_le
      simp only [Range.stop] at hrest hle
      change ((bus.piece destination source range).pieces destination source
        rest).words (destination + i) = _
      by_cases hfirst : i < range.offset + range.length
      · rw [words_pieces_outside hrest _ (by omega), piece]
        have hinside := words_transfer_inside bus (destination + range.offset)
          (source + range.offset) (show i - range.offset < range.length by omega)
        rw [Int.natCast_sub hstart] at hinside
        have hto : destination + range.offset + ((i : Int) - range.offset) =
            destination + i := by omega
        have hfrom : source + range.offset + ((i : Int) - range.offset) =
            source + i := by omega
        rw [hto, hfrom] at hinside
        exact hinside
      · rw [ih hrest _ (by omega) (by omega), piece, words_transfer_outside]
        omega

/-- What every piece adds to a log makes up one span. -/
theorem log_pieces (h : Tiles start stop ranges) (log : Bus α → List Int)
    (base : Int) (hpiece : ∀ bus range,
      log (piece destination source bus range) =
        log bus ++ span (base + range.offset) range.length) (bus : Bus α) :
    log (bus.pieces destination source ranges) =
      log bus ++ span (base + start) (stop - start) := by
  induction ranges generalizing start bus with
  | nil =>
      have heq : start = stop := h
      subst heq
      rw [Nat.sub_self]
      exact (List.append_nil _).symm
  | cons range rest ih =>
      obtain ⟨rfl, hrest⟩ := h
      have hle := hrest.start_le
      simp only [Range.stop] at hrest hle
      have hlength : stop - range.offset =
          range.length + (stop - (range.offset + range.length)) := by omega
      change log ((bus.piece destination source range).pieces destination source
        rest) = _
      rw [ih hrest, hpiece, List.append_assoc, hlength, ← span_append,
        Int.natCast_add, ← Int.add_assoc]

theorem writes_pieces (h : Tiles start stop ranges) (bus : Bus α) :
    (bus.pieces destination source ranges).writes =
      bus.writes ++ span (destination + start) (stop - start) := by
  apply log_pieces h writes destination
  intro bus range
  rfl

theorem reads_pieces (h : Tiles start stop ranges) (bus : Bus α) :
    (bus.pieces destination source ranges).reads =
      bus.reads ++ span (source + start) (stop - start) := by
  apply log_pieces h reads source
  intro bus range
  rfl

end Pieces

/-- Pieces copy once where no word is written before its turn to be read. -/
theorem copiesOnce_pieces {destination source : Int} {count : Nat}
    {ranges : List Range} (h : Tiles 0 count ranges)
    (hwords : ∀ words : Int → α, ∀ i < count,
      ((fresh words).pieces destination source ranges).words (destination + i) =
        words (source + i)) :
    CopiesOnce (fun bus : Bus α => bus.pieces destination source ranges)
      destination source count := by
  constructor
  · exact hwords
  · intro words address haway
    exact words_pieces_outside h _ (by simpa using haway)
  · intro words
    rw [writes_pieces h]
    simp [fresh]
  · intro words address hmem
    rw [reads_pieces h] at hmem
    simpa [fresh, mem_span] using hmem

theorem words_firstPiece (destination source : Int) (words : Int → α)
    {first k : Nat} (hk : k < first) :
    ((fresh words).piece destination source ⟨0, first⟩).words (destination + k) =
      words (source + k) := by
  have hinside := words_transfer_inside (fresh words) (destination + (0 : Nat))
    (source + (0 : Nat)) hk
  simpa [piece, fresh] using hinside

/-- Where the destination starts inside the source, a word behind the first piece is
read where that piece wrote. -/
theorem exists_overwritten {destination source : Int} {count first : Nat}
    (hpos : 0 < first) (hbehind : ¬destination ≤ source)
    (hinside : ¬source + count ≤ destination) (hmore : first < count) :
    ∃ i k : Nat, first ≤ i ∧ source + i = destination + k ∧ k < first ∧
      i < count := by
  by_cases hnear : (destination - source).toNat ≤ first
  · exact ⟨first, first - (destination - source).toNat, Nat.le_refl _,
      by omega, by omega, hmore⟩
  · exact ⟨(destination - source).toNat, 0, by omega, by omega, hpos, by omega⟩

/-- With a first piece of its own, a copy in pieces copies once exactly when the
destination does not start behind the source's first word inside the source, or
there is nothing behind the first piece. -/
theorem copiesOnce_pieces_iff [Nontrivial α] {destination source : Int}
    {count first : Nat} {rest : List Range}
    (h : Tiles 0 count (⟨0, first⟩ :: rest)) (hpos : 0 < first) :
    CopiesOnce
        (fun bus : Bus α => bus.pieces destination source (⟨0, first⟩ :: rest))
        destination source count ↔
      destination ≤ source ∨ source + count ≤ destination ∨ first = count := by
  have hrest : Tiles first count rest := by
    have htail := h.2
    rw [Range.stop, Nat.zero_add] at htail
    exact htail
  have hle := hrest.start_le
  -- The first piece, and the rest over what it leaves.
  have hcons : ∀ words : Int → α,
      (fresh words).pieces destination source (⟨0, first⟩ :: rest) =
        ((fresh words).piece destination source ⟨0, first⟩).pieces destination
          source rest := fun _ => rfl
  constructor
  · intro hcopies
    by_contra hbad
    simp only [not_or] at hbad
    obtain ⟨hbehind, hinside, hmore⟩ := hbad
    obtain ⟨x, y, hne⟩ := exists_pair_ne α
    obtain ⟨i, k, hi, hik, hk, hlast⟩ :=
      exists_overwritten hpos hbehind hinside (by omega)
    obtain ⟨words, hlater, hearlier⟩ : ∃ words : Int → α,
        words (source + i) = x ∧ words (source + k) = y := by
      refine ⟨fun address => if address = source + i then x else y, if_pos rfl, ?_⟩
      exact if_neg (by omega)
    have harrived := hcopies.words_eq words i hlast
    have hwritten : source + i < destination + first ∨ destination ≤ source := by
      omega
    have hread := words_pieces_inside hrest
      ((fresh words).piece destination source ⟨0, first⟩) hi hlast hwritten
    rw [hik, words_firstPiece destination source words hk] at hread
    apply hne
    calc
      x = words (source + i) := hlater.symm
      _ = words (source + k) := harrived.symm.trans hread
      _ = y := hearlier
  · intro hcase
    apply copiesOnce_pieces h
    intro words i hi
    rcases hcase with hbefore | hapart | hall
    · exact words_pieces_inside h _ (Nat.zero_le i) hi (Or.inr hbefore)
    · exact words_pieces_inside h _ (Nat.zero_le i) hi (Or.inl (by omega))
    · rw [hcons, words_pieces_outside hrest _ (by omega),
        words_firstPiece destination source words (by omega)]

end Bus

end FpgaFramework
