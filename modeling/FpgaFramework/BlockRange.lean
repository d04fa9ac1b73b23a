/-
The 128-bit copy of a `Block`.  A loop of wide accesses and a tail of single words,
with `int` counters that are compared with an unsigned size and then used as
offsets.
-/
import FpgaFramework.PieceCopy
import Mathlib.Algebra.Group.Int.Defs
import Mathlib.Data.Int.Basic

namespace FpgaFramework

namespace Block

/-- `for (int i = ...; i < bound; i++)` with an unsigned bound: the comparison
converts the counter. -/
def forInt {σ : Type} (bound : UInt32) (body : σ → Int32 → σ) (i : Int32)
    (state : σ) : σ :=
  if h : i.toUInt32 < bound then forInt bound body (i + 1) (body state i)
  else state
termination_by (bound - i.toUInt32).toNat
decreasing_by
  have hlt := UInt32.lt_iff_toNat_lt.mp h
  have hbound := bound.toNat_lt
  rw [Int32.toUInt32_add, UInt32.toNat_sub, UInt32.toNat_sub, UInt32.toNat_add]
  change (2 ^ 32 - (i.toUInt32.toNat + 1) % 2 ^ 32 + bound.toNat) % 2 ^ 32 < _
  omega

/-- `writeAddress<uint128_t>((uint128_t*) destination + i, (uint128_t*) data + i)`,
with addresses in words. -/
def writeAddress128 (destination data : Int) (bus : Bus UInt32) (i : Int32) :
    Bus UInt32 :=
  bus.transfer (destination + 4 * i.toInt) (data + 4 * i.toInt) 4

/-- `writeAddress<uint32_t>(destination + i, data + i)`. -/
def writeAddress32 (destination data : Int) (bus : Bus UInt32) (i : Int32) :
    Bus UInt32 :=
  bus.transfer (destination + i.toInt) (data + i.toInt) 1

/-- `Block::writeRange128`. -/
def writeRange128 (bus : Bus UInt32) (destination data : Int)
    (dataSize : UInt32) : Bus UInt32 :=
  let rest := dataSize % 4
  if rest = 0 then
    forInt (dataSize / 4) (writeAddress128 destination data) 0 bus
  else
    forInt dataSize (writeAddress32 destination data) (dataSize - rest).toInt32
      (forInt ((dataSize - rest) / 4) (writeAddress128 destination data) 0 bus)

/-- The pieces of the wide loop. -/
def wideRanges (count : Nat) : List Range :=
  (List.range (count / 4)).map fun k => ⟨0 + k * 4, 4⟩

/-- The pieces of the tail. -/
def tailRanges (count : Nat) : List Range :=
  (List.range (count % 4)).map fun k => ⟨0 + count / 4 * 4 + k * 1, 1⟩

/-- How far below its range a tail lands whose counter is negative. -/
def wrapped (count : Nat) : Int := if count < 2 ^ 31 then 0 else 2 ^ 32

theorem tiles_ranges (count : Nat) :
    Tiles 0 count (wideRanges count ++ tailRanges count) := by
  have hwide := tiles_records 0 4 (count / 4)
  have htail := tiles_records (0 + count / 4 * 4) 1 (count % 4)
  have hstop : 0 + count / 4 * 4 + count % 4 * 1 = count := by omega
  rw [hstop] at htail
  exact hwide.append htail

theorem tiles_tailRanges (count : Nat) :
    Tiles (count / 4 * 4) count (tailRanges count) := by
  have htail := tiles_records (0 + count / 4 * 4) 1 (count % 4)
  have hstop : 0 + count / 4 * 4 + count % 4 * 1 = count := by omega
  rw [hstop, Nat.zero_add] at htail
  rw [tailRanges, Nat.zero_add]
  exact htail

/-- The loop runs over the counter's values from the first to the bound. -/
theorem forInt_eq_foldl {σ : Type} {bound : UInt32} (body : σ → Int32 → σ)
    (count : Nat) {first : Int32} (state : σ)
    (h : first.toUInt32.toNat + count = bound.toNat) :
    forInt bound body first state =
      (List.range count).foldl (fun state k =>
        body state (UInt32.ofNat (first.toUInt32.toNat + k)).toInt32) state := by
  induction count generalizing first state with
  | zero =>
      rw [forInt, dif_neg]
      · rfl
      · rw [UInt32.lt_iff_toNat_lt]
        omega
  | succ count ih =>
      have hbound := bound.toNat_lt
      have hnext : (first + 1).toUInt32.toNat = first.toUInt32.toNat + 1 := by
        rw [Int32.toUInt32_add, UInt32.toNat_add]
        change (first.toUInt32.toNat + 1) % 2 ^ 32 = _
        omega
      have hlt : first.toUInt32 < bound := by
        rw [UInt32.lt_iff_toNat_lt]
        omega
      rw [forInt, dif_pos hlt, ih _ (by omega), hnext, List.range_succ_eq_map,
        List.foldl_cons, List.foldl_map]
      simp only [Nat.add_zero, UInt32.ofNat_toNat, Int32.toInt32_toUInt32,
        Nat.add_assoc, Nat.add_comm 1]

/-- The counter as an offset. -/
theorem toInt_toInt32 {n : Nat} (h : n < 2 ^ 32) :
    (UInt32.ofNat n).toInt32.toInt = n - wrapped n := by
  have hnat : (UInt32.ofNat n).toInt32.toBitVec.toNat = n := by
    change (UInt32.ofNat n).toNat = n
    rw [UInt32.toNat_ofNat', Nat.mod_eq_of_lt h]
  change (UInt32.ofNat n).toInt32.toBitVec.toInt = _
  rw [BitVec.toInt_eq_toNat_cond, hnat, wrapped]
  split
  · rw [if_pos (by omega)]
    omega
  · rw [if_neg (by omega)]
    rfl

theorem wrapped_of_lt {n : Nat} (h : n < 2 ^ 31) : wrapped n = 0 := if_pos h

theorem wideLoop_eq (destination data : Int) (bus : Bus UInt32) {bound : UInt32}
    (h : bound.toNat < 2 ^ 31) :
    forInt bound (writeAddress128 destination data) 0 bus =
      bus.pieces destination data
        ((List.range bound.toNat).map fun k => ⟨0 + k * 4, 4⟩) := by
  have hzero : (0 : Int32).toUInt32.toNat = 0 := rfl
  rw [forInt_eq_foldl _ bound.toNat bus (by rw [hzero, Nat.zero_add]), Bus.pieces,
    List.foldl_map]
  apply List.foldl_ext
  intro bus k hmem
  have hk := List.mem_range.mp hmem
  rw [hzero, Nat.zero_add, writeAddress128, toInt_toInt32 (by omega),
    wrapped_of_lt (by omega), Bus.piece]
  dsimp only
  congr 1 <;> omega

/-- Where the size is 2^31 or more, the counter of the tail is negative. -/
theorem tailLoop_eq (destination data : Int) (bus : Bus UInt32)
    (dataSize : UInt32) :
    forInt dataSize (writeAddress32 destination data)
        (dataSize - dataSize % 4).toInt32 bus =
      bus.pieces (destination - wrapped dataSize.toNat)
        (data - wrapped dataSize.toNat) (tailRanges dataSize.toNat) := by
  have hsize := dataSize.toNat_lt
  have hfirst : (dataSize - dataSize % 4).toInt32.toUInt32.toNat =
      dataSize.toNat / 4 * 4 := by
    rw [UInt32.toUInt32_toInt32, UInt32.toNat_sub, UInt32.toNat_mod]
    change (2 ^ 32 - dataSize.toNat % 4 + dataSize.toNat) % 2 ^ 32 = _
    omega
  rw [forInt_eq_foldl _ (dataSize.toNat % 4) bus (by rw [hfirst]; omega),
    Bus.pieces, tailRanges, List.foldl_map]
  apply List.foldl_ext
  intro bus k hmem
  have hk := List.mem_range.mp hmem
  have hsame : wrapped (dataSize.toNat / 4 * 4 + k) = wrapped dataSize.toNat := by
    unfold wrapped
    split
    · rw [if_pos (by omega)]
    · rw [if_neg (by omega)]
  rw [hfirst, writeAddress32, toInt_toInt32 (by omega), hsame, Bus.piece]
  dsimp only
  congr 1 <;> omega

/-- The wide pieces land in their place, the single words may not. -/
theorem writeRange128_eq (bus : Bus UInt32) (destination data : Int)
    (dataSize : UInt32) :
    writeRange128 bus destination data dataSize =
      (bus.pieces destination data (wideRanges dataSize.toNat)).pieces
        (destination - wrapped dataSize.toNat) (data - wrapped dataSize.toNat)
        (tailRanges dataSize.toNat) := by
  have hsize := dataSize.toNat_lt
  have hmod : (dataSize % 4).toNat = dataSize.toNat % 4 := UInt32.toNat_mod ..
  unfold writeRange128
  dsimp only
  split
  · next hrest =>
      have hzero : dataSize.toNat % 4 = 0 := by
        rw [← hmod, hrest]
        rfl
      have hwide : (dataSize / 4).toNat = dataSize.toNat / 4 := UInt32.toNat_div ..
      rw [wideLoop_eq _ _ _ (by omega), hwide, wideRanges, tailRanges, hzero]
      rfl
  · have hwide : ((dataSize - dataSize % 4) / 4).toNat = dataSize.toNat / 4 := by
      rw [UInt32.toNat_div, UInt32.toNat_sub, hmod]
      change (2 ^ 32 - dataSize.toNat % 4 + dataSize.toNat) % 2 ^ 32 / 4 = _
      omega
    rw [wideLoop_eq _ _ _ (by omega), hwide, tailLoop_eq, wideRanges]

/-- Where no counter is negative the copy is made of pieces that tile its range. -/
theorem writeRange128_of_small (destination data : Int) {dataSize : UInt32}
    (h : dataSize.toNat < 2 ^ 31 ∨ 4 ∣ dataSize.toNat) (bus : Bus UInt32) :
    writeRange128 bus destination data dataSize =
      bus.pieces destination data
        (wideRanges dataSize.toNat ++ tailRanges dataSize.toNat) := by
  rw [writeRange128_eq, Bus.pieces, Bus.pieces, Bus.pieces, List.foldl_append]
  rcases h with hsmall | hwhole
  · rw [wrapped_of_lt hsmall, Int.sub_zero, Int.sub_zero]
  · have hnil : tailRanges dataSize.toNat = [] := by
      rw [tailRanges, Nat.mod_eq_zero_of_dvd hwhole]
      rfl
    rw [hnil]
    rfl

/-- Elsewhere the tail is written 2^32 words below its place. -/
theorem not_copiesOnce_of_large (destination data : Int) {dataSize : UInt32}
    (hlarge : 2 ^ 31 ≤ dataSize.toNat) (hrest : ¬4 ∣ dataSize.toNat) :
    ¬Bus.CopiesOnce (fun bus => writeRange128 bus destination data dataSize)
      destination data dataSize.toNat := by
  intro hcopies
  have hsize := dataSize.toNat_lt
  have hwrapped : wrapped dataSize.toNat = 2 ^ 32 := if_neg (by omega)
  have hwrites := hcopies.writes_once fun _ => 0
  simp only [writeRange128_eq, hwrapped] at hwrites
  rw [Bus.writes_pieces (tiles_tailRanges dataSize.toNat)] at hwrites
  have hbelow : destination - 2 ^ 32 + (dataSize.toNat / 4 * 4 : Nat) ∈
      Bus.span (destination - 2 ^ 32 + (dataSize.toNat / 4 * 4 : Nat))
        (dataSize.toNat - dataSize.toNat / 4 * 4) := by
    rw [Bus.mem_span]
    omega
  have hinside := hwrites.mem_iff.mp (List.mem_append_right _ hbelow)
  rw [Bus.mem_span] at hinside
  omega

/-- The first piece of a copy that is not empty. -/
theorem ranges_cons {count : Nat} (h : 0 < count) :
    ∃ first rest, wideRanges count ++ tailRanges count = ⟨0, first⟩ :: rest ∧
      0 < first ∧ (first = count ↔ count = 4 ∨ count = 1) := by
  by_cases hwide : 4 ≤ count
  · obtain ⟨chunks, hchunks⟩ : ∃ chunks, count / 4 = chunks + 1 :=
      ⟨count / 4 - 1, by omega⟩
    have hcons : wideRanges count ++ tailRanges count =
        ⟨0, 4⟩ :: (((List.range chunks).map Nat.succ).map (fun k => ⟨0 + k * 4, 4⟩) ++
          tailRanges count) := by
      rw [wideRanges, hchunks, List.range_succ_eq_map, List.map_cons,
        List.cons_append]
    exact ⟨4, _, hcons, by decide, by omega⟩
  · obtain ⟨words, hwords⟩ : ∃ words, count % 4 = words + 1 :=
      ⟨count % 4 - 1, by omega⟩
    have hnone : count / 4 = 0 := by omega
    have hcons : wideRanges count ++ tailRanges count =
        ⟨0, 1⟩ :: ((List.range words).map Nat.succ).map
          (fun k => ⟨0 + count / 4 * 4 + k * 1, 1⟩) := by
      rw [wideRanges, tailRanges, hnone, hwords, List.range_succ_eq_map,
        List.map_cons]
      rfl
    exact ⟨1, _, hcons, by decide, by omega⟩

/-- The 128-bit copy is a plain copy exactly when its tail has no negative counter
and the destination does not start inside the source behind its first word, where
no forward copy of more than one access is. -/
theorem writeRange128_copies_iff (destination data : Int) (dataSize : UInt32) :
    Bus.CopiesOnce (fun bus => writeRange128 bus destination data dataSize)
        destination data dataSize.toNat ↔
      (dataSize.toNat < 2 ^ 31 ∨ 4 ∣ dataSize.toNat) ∧
        (destination ≤ data ∨ data + dataSize.toNat ≤ destination ∨
          dataSize.toNat = 4) := by
  by_cases hcounter : dataSize.toNat < 2 ^ 31 ∨ 4 ∣ dataSize.toNat
  · have htiles := tiles_ranges dataSize.toNat
    simp only [writeRange128_of_small destination data hcounter]
    by_cases hempty : dataSize.toNat = 0
    · constructor
      · intro _
        exact ⟨hcounter, by omega⟩
      · intro _
        apply Bus.copiesOnce_pieces htiles
        intro words i hi
        omega
    · obtain ⟨first, rest, hranges, hpos, hfirst⟩ :=
        ranges_cons (Nat.pos_of_ne_zero hempty)
      rw [hranges] at htiles
      have : Nontrivial UInt32 := ⟨0, 1, by decide⟩
      rw [hranges, Bus.copiesOnce_pieces_iff htiles hpos, hfirst]
      constructor
      · intro hcase
        exact ⟨hcounter, by omega⟩
      · rintro ⟨_, hcase⟩
        omega
  · constructor
    · intro hcopies
      simp only [not_or, Nat.not_lt] at hcounter
      exact absurd hcopies (not_copiesOnce_of_large destination data hcounter.1
        hcounter.2)
    · rintro ⟨hsmall, _⟩
      exact absurd hsmall hcounter

/-- The last of 2^31 + 1 words is written 2^31 words before the destination. -/
theorem writeRange128_outside :
    ¬Bus.CopiesOnce (fun bus => writeRange128 bus 0 8589934592 2147483649)
      0 8589934592 (2147483649 : UInt32).toNat :=
  not_copiesOnce_of_large 0 8589934592 (by decide) (by decide)

end Block

end FpgaFramework
