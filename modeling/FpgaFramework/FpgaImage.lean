/-
The configuration image on its way to the data port: which words
`alt_fpga_internal_writeaxi` writes, and which bytes of the image they carry.
-/
import FpgaFramework.FpgaManager

namespace FpgaFramework

open Driver

/-- The words of the loop over whole words. -/
def wholeWords (cfgBuf : List UInt8) (i count : Nat) : List UInt32 :=
  (List.range' i count).map fun i => u32At cfgBuf (4 * i)

/-- The word of the rest; it is cut from the start of the buffer. -/
def restWords (cfgBuf : List UInt8) (cfgBufLen : Nat) : List UInt32 :=
  match cfgBufLen % 4 with
  | 3 => [u32At cfgBuf 0 &&& 0x00ffffff]
  | 2 => [u32At cfgBuf 0 &&& 0x0000ffff]
  | 1 => [u32At cfgBuf 0 &&& 0x000000ff]
  | _ => []

/-- All words written for a buffer. -/
def axiWords (cfgBuf : List UInt8) (cfgBufLen : Nat) : List UInt32 :=
  wholeWords cfgBuf 0 (cfgBufLen / 4) ++ restWords cfgBuf cfgBufLen

theorem pioWords_eq (cfgBuf : List UInt8) (i cfgBufLen : Nat) :
    pioWords cfgBuf i cfgBufLen =
      (do writeAll .data (wholeWords cfgBuf i (cfgBufLen / 4))
          return cfgBufLen % 4) := by
  induction i, cfgBufLen using pioWords.induct with
  | case1 i cfgBufLen ih =>
      have hdiv : (cfgBufLen + 4) / 4 = cfgBufLen / 4 + 1 := by omega
      have hmod : (cfgBufLen + 4) % 4 = cfgBufLen % 4 := by omega
      rw [pioWords, ih, hdiv, hmod]
      simp [wholeWords, List.range'_succ, writeAll]
  | case2 i cfgBufLen hsmall =>
      have hlt : cfgBufLen < 4 := by
        apply Nat.lt_of_not_le
        intro hle
        exact hsmall (cfgBufLen - 4) (by omega)
      have hdiv : cfgBufLen / 4 = 0 := Nat.div_eq_of_lt hlt
      rw [pioWords, Nat.mod_eq_of_lt hlt, hdiv]
      · rfl
      · exact hsmall

/-- Without DMA, writing a buffer is writing its words, and never fails. -/
theorem altFpgaInternalWriteaxi_eq (cfgBuf : List UInt8) (cfgBufLen : Nat) :
    altFpgaInternalWriteaxi cfgBuf cfgBufLen =
      (do writeAll .data (axiWords cfgBuf cfgBufLen); return .success) := by
  have hrest : cfgBufLen % 4 / 4 * 4 = 0 := by omega
  simp only [altFpgaInternalWriteaxi, pioWords_eq, axiWords, writeAll_append,
    bind_assoc, pure_bind, Nat.mod_mod, hrest, restWords]
  congr 1
  funext _
  have hshort : cfgBufLen % 4 = 0 ∨ cfgBufLen % 4 = 1 ∨
      cfgBufLen % 4 = 2 ∨ cfgBufLen % 4 = 3 := by omega
  rcases hshort with h | h | h | h
  · rw [h]; rfl
  · rw [h]; rfl
  · rw [h]; rfl
  · rw [h]; rfl

/-- The bytes that words carry. -/
def wordBytes (words : List UInt32) : List UInt8 :=
  words.flatMap u32Bytes

theorem wordBytes_append (words words' : List UInt32) :
    wordBytes (words ++ words') = wordBytes words ++ wordBytes words' :=
  List.flatMap_append

/-- The bytes of a loaded word are the four bytes it was loaded from. -/
theorem u32Bytes_u32At_getD (bytes : List UInt8) (offset : Nat) :
    u32Bytes (u32At bytes offset) =
      [bytes.getD offset 0, bytes.getD (offset + 1) 0,
        bytes.getD (offset + 2) 0, bytes.getD (offset + 3) 0] :=
  u32Bytes_u32At _ _ _ _

theorem getD_eq_getElem {bytes : List UInt8} {k : Nat} (h : k < bytes.length) :
    bytes.getD k 0 = bytes[k] := by
  rw [List.getD_eq_getElem?_getD, List.getElem?_eq_getElem h, Option.getD_some]

theorem take_u32Bytes_u32At {bytes : List UInt8} {offset count : Nat}
    (hcount : count ≤ 4) (h : offset + count ≤ bytes.length) :
    (u32Bytes (u32At bytes offset)).take count =
      (bytes.drop offset).take count := by
  rw [u32Bytes_u32At_getD]
  apply List.ext_getElem
  · simp only [List.length_take, List.length_cons, List.length_nil,
      List.length_drop]
    omega
  · intro k hk _
    simp only [List.length_take, List.length_cons, List.length_nil] at hk
    simp only [List.getElem_take, List.getElem_drop]
    match k, (show k < 4 by omega) with
    | 0, _ => exact getD_eq_getElem (by omega)
    | 1, _ => exact getD_eq_getElem (by omega)
    | 2, _ => exact getD_eq_getElem (by omega)
    | 3, _ => exact getD_eq_getElem (by omega)

theorem wordBytes_wholeWords {cfgBuf : List UInt8} {count : Nat}
    (h : 4 * count ≤ cfgBuf.length) :
    wordBytes (wholeWords cfgBuf 0 count) = cfgBuf.take (4 * count) := by
  induction count with
  | zero => rfl
  | succ count ih =>
      have hsplit : wholeWords cfgBuf 0 (count + 1) =
          wholeWords cfgBuf 0 count ++ [u32At cfgBuf (4 * count)] := by
        simp [wholeWords, List.range'_concat]
      rw [hsplit, wordBytes_append, ih (by omega), Nat.mul_succ,
        List.take_add]
      have hlast : wordBytes [u32At cfgBuf (4 * count)] =
          (u32Bytes (u32At cfgBuf (4 * count))).take 4 := List.append_nil _
      rw [hlast, take_u32Bytes_u32At (by decide) (by omega)]

/-- Masking a word down to its first bytes clears the others. -/
theorem u32Bytes_and_mask (word : UInt32) :
    u32Bytes (word &&& 0x00ffffff) = (u32Bytes word).take 3 ++ [0] ∧
      u32Bytes (word &&& 0x0000ffff) = (u32Bytes word).take 2 ++ [0, 0] ∧
      u32Bytes (word &&& 0x000000ff) = (u32Bytes word).take 1 ++ [0, 0, 0] := by
  have hlt := word.toNat_lt
  have hthree : (word &&& 0x00ffffff).toNat = word.toNat % 2 ^ 24 :=
    Nat.and_two_pow_sub_one_eq_mod word.toNat 24
  have htwo : (word &&& 0x0000ffff).toNat = word.toNat % 2 ^ 16 :=
    Nat.and_two_pow_sub_one_eq_mod word.toNat 16
  have hone : (word &&& 0x000000ff).toNat = word.toNat % 2 ^ 8 :=
    Nat.and_two_pow_sub_one_eq_mod word.toNat 8
  simp only [u32Bytes, hthree, htwo, hone, List.take_succ_cons, List.take_zero,
    List.cons_append, List.nil_append, List.cons.injEq, ← UInt8.toNat_inj,
    UInt8.toNat_ofNat', and_true, UInt8.toNat_zero]
  omega

/-- The rest of the image goes out as the first bytes of the buffer. -/
theorem take_wordBytes_restWords {cfgBuf : List UInt8} {cfgBufLen : Nat}
    (h : cfgBufLen ≤ cfgBuf.length) :
    (wordBytes (restWords cfgBuf cfgBufLen)).take (cfgBufLen % 4) =
      cfgBuf.take (cfgBufLen % 4) := by
  obtain ⟨hthree, htwo, hone⟩ := u32Bytes_and_mask (u32At cfgBuf 0)
  have hle : cfgBufLen % 4 ≤ cfgBuf.length :=
    Nat.le_trans (Nat.mod_le _ _) h
  have hlt : cfgBufLen % 4 < 4 := Nat.mod_lt _ (by decide)
  simp only [restWords, wordBytes]
  generalize cfgBufLen % 4 = rest at hle hlt
  match rest, hlt with
  | 0, _ => rfl
  | 1, _ =>
      simp only [List.flatMap_cons, List.flatMap_nil, List.append_nil, hone]
      rw [take_u32Bytes_u32At (by decide) (by omega), List.drop_zero,
        List.take_append_of_le_length]
      · rw [List.take_take, Nat.min_self]
      · rw [List.length_take]
        omega
  | 2, _ =>
      simp only [List.flatMap_cons, List.flatMap_nil, List.append_nil, htwo]
      rw [take_u32Bytes_u32At (by decide) (by omega), List.drop_zero,
        List.take_append_of_le_length]
      · rw [List.take_take, Nat.min_self]
      · rw [List.length_take]
        omega
  | 3, _ =>
      simp only [List.flatMap_cons, List.flatMap_nil, List.append_nil, hthree]
      rw [take_u32Bytes_u32At (by decide) (by omega), List.drop_zero,
        List.take_append_of_le_length]
      · rw [List.take_take, Nat.min_self]
      · rw [List.length_take]
        omega

theorem length_axiWords (cfgBuf : List UInt8) (cfgBufLen : Nat) :
    (axiWords cfgBuf cfgBufLen).length = (cfgBufLen + 3) / 4 := by
  have hlt : cfgBufLen % 4 < 4 := Nat.mod_lt _ (by decide)
  have hrest : (restWords cfgBuf cfgBufLen).length = (cfgBufLen % 4 + 3) / 4 := by
    simp only [restWords]
    generalize cfgBufLen % 4 = rest at hlt
    match rest, hlt with
    | 0, _ => rfl
    | 1, _ => rfl
    | 2, _ => rfl
    | 3, _ => rfl
  simp only [axiWords, wholeWords, List.length_append, List.length_map,
    List.length_range', hrest]
  omega

/-- What arrives of an image: its whole words, and then its first bytes in the
place of its last ones. -/
theorem take_wordBytes_axiWords {cfgBuf : List UInt8} {cfgBufLen : Nat}
    (h : cfgBufLen ≤ cfgBuf.length) :
    (wordBytes (axiWords cfgBuf cfgBufLen)).take cfgBufLen =
      cfgBuf.take (4 * (cfgBufLen / 4)) ++ cfgBuf.take (cfgBufLen % 4) := by
  have hwhole : 4 * (cfgBufLen / 4) ≤ cfgBuf.length := by omega
  have hlength : (cfgBuf.take (4 * (cfgBufLen / 4))).length =
      4 * (cfgBufLen / 4) := by
    rw [List.length_take]
    omega
  have hsum : cfgBufLen = 4 * (cfgBufLen / 4) + cfgBufLen % 4 := by omega
  rw [axiWords, wordBytes_append, wordBytes_wholeWords hwhole]
  calc (cfgBuf.take (4 * (cfgBufLen / 4)) ++
          wordBytes (restWords cfgBuf cfgBufLen)).take cfgBufLen
      = (cfgBuf.take (4 * (cfgBufLen / 4)) ++
          wordBytes (restWords cfgBuf cfgBufLen)).take
            ((cfgBuf.take (4 * (cfgBufLen / 4))).length + cfgBufLen % 4) := by
        rw [hlength, ← hsum]
    _ = cfgBuf.take (4 * (cfgBufLen / 4)) ++
          (wordBytes (restWords cfgBuf cfgBufLen)).take (cfgBufLen % 4) :=
        List.take_length_add_append _
    _ = _ := by rw [take_wordBytes_restWords h]

/-- The image arrives as it is exactly when the bytes after its whole words are
those it starts with. -/
theorem take_wordBytes_axiWords_eq_iff {cfgBuf : List UInt8} {cfgBufLen : Nat}
    (h : cfgBufLen ≤ cfgBuf.length) :
    (wordBytes (axiWords cfgBuf cfgBufLen)).take cfgBufLen =
        cfgBuf.take cfgBufLen ↔
      (cfgBuf.drop (4 * (cfgBufLen / 4))).take (cfgBufLen % 4) =
        cfgBuf.take (cfgBufLen % 4) := by
  have hsplit : cfgBuf.take cfgBufLen = cfgBuf.take (4 * (cfgBufLen / 4)) ++
      (cfgBuf.drop (4 * (cfgBufLen / 4))).take (cfgBufLen % 4) := by
    rw [← List.take_add]
    congr 1
    omega
  rw [take_wordBytes_axiWords h, hsplit, List.append_cancel_left_eq]
  exact eq_comm

/-- Buffers that end on a word boundary can be written one after another. -/
theorem axiWords_append {front cfgBuf : List UInt8} {length : Nat}
    (hfront : front.length % 4 = 0) (hword : length % 4 = 0) :
    axiWords (front ++ cfgBuf) (front.length + length) =
      axiWords front front.length ++ axiWords cfgBuf length := by
  obtain ⟨k, hk⟩ : ∃ k, front.length = 4 * k := ⟨front.length / 4, by omega⟩
  obtain ⟨n, hn⟩ : ∃ n, length = 4 * n := ⟨length / 4, by omega⟩
  have hrest : ∀ bytes count, restWords bytes (4 * count) = [] := by
    intro bytes count
    simp [restWords]
  have hsum : 4 * k + 4 * n = 4 * (k + n) := by omega
  have hdiv : ∀ count, 4 * count / 4 = count := by omega
  rw [hk, hn]
  simp only [axiWords, hsum, hrest, hdiv, List.append_nil, wholeWords]
  rw [← List.range'_append_1, List.map_append]
  congr 1
  · apply List.map_congr_left
    intro i hi
    have hlt : i < k := by simpa using (List.mem_range'_1.mp hi).2
    exact u32At_append_left (by omega)
  · rw [Nat.zero_add, List.range'_eq_map_range, List.range'_eq_map_range,
      List.map_map, List.map_map]
    apply List.map_congr_left
    intro i _
    simp only [Function.comp_apply, Nat.zero_add]
    rw [Nat.mul_add, ← hk]
    exact u32At_append_right _ _ _

end FpgaFramework
