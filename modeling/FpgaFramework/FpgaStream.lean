/-
Configuration from a stream.  For every callback the loop ends, having written
the chunks up to the first answer it does not take; a stream that hands out the
image in whole words is the same program as the image in one buffer.
-/
import FpgaFramework.FpgaImage

namespace FpgaFramework

open Driver

/-- The callback's answer as the unsigned length that the loop compares. -/
def StreamAnswer.length (answer : StreamAnswer) : Nat :=
  answer.cbStatus.toUInt32.toNat

/-- A chunk that is written when `rest` bytes are still allowed. -/
def StreamAnswer.Taken (answer : StreamAnswer) (rest : Nat) : Prop :=
  0 < answer.length ∧ answer.length ≤ istreamChunkSize ∧ answer.length ≤ rest

/-- The words of a chunk. -/
def StreamAnswer.words (answer : StreamAnswer) : List UInt32 :=
  axiWords answer.buffer answer.length

theorem length_eq_zero_iff (answer : StreamAnswer) :
    answer.length = 0 ↔ answer.cbStatus = 0 := by
  constructor
  · intro hzero
    by_contra hne
    exact absurd hzero (Nat.ne_of_gt (toNat_toUInt32_pos hne))
  · intro hzero
    rw [StreamAnswer.length, hzero]
    rfl

/-- A negative answer is a length beyond any buffer, so that the loop's test for
negative answers is never reached. -/
theorem chunkSize_lt_length_of_neg {answer : StreamAnswer}
    (h : answer.cbStatus < 0) : istreamChunkSize < answer.length := by
  have hneg : answer.cbStatus.toBitVec.toInt < 0 := Int32.lt_iff_toInt_lt.mp h
  have hlarge := BitVec.toInt_neg_iff.mp hneg
  have hlength : answer.length = answer.cbStatus.toBitVec.toNat := rfl
  rw [hlength, istreamChunkSize]
  omega

theorem istreamLoop_of_taken {stream : Nat → StreamAnswer} {limit call : Nat}
    (h : (stream call).Taken limit) :
    istreamLoop stream limit call =
      (do writeAll .data (stream call).words
          istreamLoop stream (limit - (stream call).length) (call + 1)) := by
  obtain ⟨hpos, hchunk, hlimit⟩ := h
  have hne : (stream call).cbStatus ≠ 0 := by
    intro hzero
    exact absurd ((length_eq_zero_iff _).mpr hzero) (Nat.ne_of_gt hpos)
  have hnonneg : ¬(stream call).cbStatus < 0 := by
    intro hneg
    exact absurd (chunkSize_lt_length_of_neg hneg) (Nat.not_lt.mpr hchunk)
  rw [StreamAnswer.length] at hchunk hlimit
  rw [istreamLoop]
  simp only [gt_iff_lt, Nat.not_lt.mpr hchunk, Nat.not_lt.mpr hlimit, hne,
    hnonneg, if_false, dite_false, altFpgaInternalWriteaxi_eq, bind_assoc,
    pure_bind, ne_eq, not_true_eq_false]
  rfl

/-- The code with which the loop ends at an answer. -/
def StreamAnswer.endStatus (answer : StreamAnswer) : AltStatusCode :=
  if answer.cbStatus = 0 then .success else .fpgaCfgStm

theorem istreamLoop_of_not_taken {stream : Nat → StreamAnswer}
    {limit call : Nat} (h : ¬(stream call).Taken limit) :
    istreamLoop stream limit call = return (stream call).endStatus := by
  rw [istreamLoop]
  simp only [StreamAnswer.endStatus]
  by_cases hzero : (stream call).cbStatus = 0
  · have hfits : ¬(stream call).cbStatus.toUInt32.toNat > istreamChunkSize := by
      rw [hzero]
      decide
    have hnonneg : ¬(stream call).cbStatus < 0 := by
      rw [hzero]
      decide
    rw [if_neg hfits, if_neg hnonneg, dif_pos hzero, if_pos hzero]
  · have hpos := toNat_toUInt32_pos hzero
    simp only [hzero, if_false, dite_false]
    split
    · rfl
    · next hchunk =>
        split
        · rfl
        · split
          · rfl
          · next hlimit =>
              exact absurd ⟨hpos, Nat.not_lt.mp hchunk, Nat.not_lt.mp hlimit⟩ h

/-- The chunks of `count` calls from `call` on. -/
def chunks (stream : Nat → StreamAnswer) (call count : Nat) : List StreamAnswer :=
  (List.range' call count).map stream

def totalLength : List StreamAnswer → Nat
  | [] => 0
  | answer :: answers => answer.length + totalLength answers

theorem totalLength_append (answers answers' : List StreamAnswer) :
    totalLength (answers ++ answers') =
      totalLength answers + totalLength answers' := by
  induction answers with
  | nil => simp [totalLength]
  | cons answer answers ih =>
      rw [List.cons_append, totalLength, totalLength, ih, Nat.add_assoc]

def allWords (answers : List StreamAnswer) : List UInt32 :=
  answers.flatMap StreamAnswer.words

theorem chunks_succ (stream : Nat → StreamAnswer) (call count : Nat) :
    chunks stream call (count + 1) =
      stream call :: chunks stream (call + 1) count := rfl

/-- How far the loop gets: `count` chunks are taken, and the next answer is
not. -/
structure Stops (stream : Nat → StreamAnswer) (limit call count : Nat) :
    Prop where
  sizes : ∀ answer ∈ chunks stream call count,
    0 < answer.length ∧ answer.length ≤ istreamChunkSize
  total : totalLength (chunks stream call count) ≤ limit
  last : ¬(stream (call + count)).Taken
    (limit - totalLength (chunks stream call count))

/-- Every chunk taken uses up part of the limit. -/
theorem Stops.count_le {stream : Nat → StreamAnswer} {limit call count : Nat}
    (h : Stops stream limit call count) : count ≤ limit := by
  have hsum : ∀ answers : List StreamAnswer,
      (∀ answer ∈ answers, 0 < answer.length ∧ answer.length ≤ istreamChunkSize) →
        answers.length ≤ totalLength answers := by
    intro answers hanswers
    induction answers with
    | nil => exact Nat.le_refl _
    | cons answer answers ih =>
        have hhead := (hanswers answer List.mem_cons_self).1
        have htail := ih fun other hother =>
          hanswers other (List.mem_cons_of_mem _ hother)
        simp only [totalLength, List.length_cons] at htail ⊢
        omega
  have hlength : (chunks stream call count).length = count := by simp [chunks]
  have hle := hsum _ h.sizes
  rw [hlength] at hle
  exact Nat.le_trans hle h.total

/-- A chunk gives no more words than it has bytes. -/
theorem length_allWords_le {answers : List StreamAnswer}
    (h : ∀ answer ∈ answers, 0 < answer.length) :
    (allWords answers).length ≤ totalLength answers := by
  induction answers with
  | nil => exact Nat.le_refl _
  | cons answer answers ih =>
      have hhead := h answer List.mem_cons_self
      have htail := ih fun other hother => h other (List.mem_cons_of_mem _ hother)
      simp only [allWords, totalLength, List.flatMap_cons, List.length_append,
        StreamAnswer.words, length_axiWords] at htail ⊢
      omega

/-- For every callback the loop stops somewhere, and has written the chunks
before that and nothing else. -/
theorem istreamLoop_eq (stream : Nat → StreamAnswer) (limit call : Nat) :
    ∃ count, Stops stream limit call count ∧
      istreamLoop stream limit call =
        (do writeAll .data (allWords (chunks stream call count))
            return (stream (call + count)).endStatus) := by
  induction hlimit : limit using Nat.strong_induction_on generalizing limit call with
  | h n ih =>
      by_cases htaken : (stream call).Taken n
      · obtain ⟨count, hstops, heq⟩ := ih (n - (stream call).length)
          (by have := htaken.1; have := htaken.2.2; omega) _ (call + 1) rfl
        refine ⟨count + 1, ⟨?_, ?_, ?_⟩, ?_⟩
        · intro answer hmem
          rcases List.mem_cons.mp hmem with rfl | hmem
          · exact ⟨htaken.1, htaken.2.1⟩
          · exact hstops.sizes answer hmem
        · have htotal := hstops.total
          have hle := htaken.2.2
          simp only [chunks_succ, totalLength] at htotal ⊢
          omega
        · have hlast := hstops.last
          simp only [chunks_succ, totalLength, Nat.sub_sub, Nat.add_assoc,
            Nat.add_comm 1] at hlast ⊢
          exact hlast
        · rw [istreamLoop_of_taken htaken, heq, chunks_succ]
          simp only [allWords, List.flatMap_cons, writeAll_append, bind_assoc,
            Nat.add_assoc, Nat.add_comm 1]
      · refine ⟨0, ⟨?_, Nat.zero_le _, htaken⟩, ?_⟩
        · intro answer hmem
          cases hmem
        · rw [istreamLoop_of_not_taken htaken]
          rfl

/-- Where the loop stops is determined by the answers. -/
theorem Stops.unique {stream : Nat → StreamAnswer} {limit call count count' : Nat}
    (h : Stops stream limit call count) (h' : Stops stream limit call count') :
    count = count' := by
  have hless : ∀ {few many : Nat}, Stops stream limit call few →
      Stops stream limit call many → ¬few < many := by
    intro few many hfew hmany hlt
    obtain ⟨more, rfl⟩ : ∃ more, many = few + (more + 1) :=
      ⟨many - few - 1, by omega⟩
    have hsplit : chunks stream call (few + (more + 1)) =
        chunks stream call few ++
          stream (call + few) :: chunks stream (call + few + 1) more := by
      simp only [chunks]
      rw [← List.range'_append_1, List.map_append]
      rfl
    have hsize := hmany.sizes (stream (call + few)) (by rw [hsplit]; simp)
    have htotal := hmany.total
    rw [hsplit] at htotal
    rw [totalLength_append, totalLength] at htotal
    apply hfew.last
    refine ⟨hsize.1, hsize.2, ?_⟩
    omega
  have hfirst := hless h h'
  have hsecond := hless h' h
  omega

/-- The answer puts `part` into the buffer, in front of what is there, and says
how long it is. -/
structure Hands (answer : StreamAnswer) (part : List UInt8) : Prop where
  cbStatus : answer.cbStatus = Int32.ofNat part.length
  buffer : answer.buffer.take part.length = part

/-- The stream hands out `parts` and then ends. -/
structure Delivers (stream : Nat → StreamAnswer) (parts : List (List UInt8)) :
    Prop where
  answers : List.Forall₂ Hands (chunks stream 0 parts.length) parts
  ends : (stream parts.length).cbStatus = 0

theorem exists_mem_of_forall₂ {answers : List StreamAnswer}
    {parts : List (List UInt8)} (h : List.Forall₂ Hands answers parts)
    {answer : StreamAnswer} (hmem : answer ∈ answers) :
    ∃ part ∈ parts, Hands answer part := by
  induction h with
  | nil => cases hmem
  | cons hhands _ ih =>
      rcases List.mem_cons.mp hmem with rfl | hmem
      · exact ⟨_, List.mem_cons_self, hhands⟩
      · obtain ⟨part, hpart, hhands⟩ := ih hmem
        exact ⟨part, List.mem_cons_of_mem _ hpart, hhands⟩

/-- Parts that fit the buffer and, all together, the limit, in whole words. -/
structure WholeParts (parts : List (List UInt8)) : Prop where
  sizes : ∀ part ∈ parts, 0 < part.length ∧ part.length ≤ istreamChunkSize
  whole : ∀ part ∈ parts, part.length % 4 = 0
  total : parts.flatten.length ≤ maxDataLimit

theorem Hands.length_eq {answer : StreamAnswer} {part : List UInt8}
    (h : Hands answer part) (hpart : part.length ≤ istreamChunkSize) :
    answer.length = part.length := by
  rw [istreamChunkSize] at hpart
  simp only [StreamAnswer.length, h.cbStatus, Int32.toUInt32_ofNat',
    UInt32.toNat_ofNat']
  omega

/-- Whole words are cut from the part alone. -/
theorem Hands.words_eq {answer : StreamAnswer} {part : List UInt8}
    (h : Hands answer part) (hpart : part.length ≤ istreamChunkSize)
    (hwhole : part.length % 4 = 0) :
    answer.words = axiWords part part.length := by
  have hbuffer : answer.buffer = part ++ answer.buffer.drop part.length := by
    calc answer.buffer = answer.buffer.take part.length ++
          answer.buffer.drop part.length := (List.take_append_drop _ _).symm
      _ = _ := by rw [h.buffer]
  have happend := @axiWords_append part (answer.buffer.drop part.length) 0 hwhole rfl
  have hnone : axiWords (answer.buffer.drop part.length) 0 = [] := rfl
  rw [Nat.add_zero, hnone, List.append_nil, ← hbuffer] at happend
  rw [StreamAnswer.words, h.length_eq hpart, happend]

theorem totalLength_of_hands {answers : List StreamAnswer}
    {parts : List (List UInt8)} (h : List.Forall₂ Hands answers parts)
    (hsize : ∀ part ∈ parts, part.length ≤ istreamChunkSize) :
    totalLength answers = parts.flatten.length := by
  induction h with
  | nil => rfl
  | @cons answer part answers parts hhands _ ih =>
      have htail := ih fun other hother =>
        hsize other (List.mem_cons_of_mem _ hother)
      simp only [totalLength, List.flatten_cons, List.length_append] at htail ⊢
      rw [htail, hhands.length_eq (hsize part List.mem_cons_self)]

theorem length_flatten_mod {parts : List (List UInt8)}
    (h : ∀ part ∈ parts, part.length % 4 = 0) :
    parts.flatten.length % 4 = 0 := by
  induction parts with
  | nil => rfl
  | cons part parts ih =>
      have hhead := h part List.mem_cons_self
      have htail := ih fun other hother => h other (List.mem_cons_of_mem _ hother)
      rw [List.flatten_cons, List.length_append]
      omega

theorem allWords_of_hands {answers : List StreamAnswer}
    {parts : List (List UInt8)} (h : List.Forall₂ Hands answers parts)
    (hsize : ∀ part ∈ parts, part.length ≤ istreamChunkSize)
    (hwhole : ∀ part ∈ parts, part.length % 4 = 0) :
    allWords answers = axiWords parts.flatten parts.flatten.length := by
  induction h with
  | nil => rfl
  | @cons answer part answers parts hhands _ ih =>
      have htail := ih
        (fun other hother => hsize other (List.mem_cons_of_mem _ hother))
        (fun other hother => hwhole other (List.mem_cons_of_mem _ hother))
      have hrest : parts.flatten.length % 4 = 0 :=
        length_flatten_mod fun other hother =>
          hwhole other (List.mem_cons_of_mem _ hother)
      have hhead := hwhole part List.mem_cons_self
      rw [List.flatten_cons, List.length_append, axiWords_append hhead hrest,
        ← htail, ← hhands.words_eq (hsize part List.mem_cons_self) hhead]
      rfl

theorem Delivers.stops {stream : Nat → StreamAnswer} {parts : List (List UInt8)}
    (h : Delivers stream parts) (hparts : WholeParts parts) :
    Stops stream maxDataLimit 0 parts.length := by
  have hsize : ∀ part ∈ parts, part.length ≤ istreamChunkSize :=
    fun part hmem => (hparts.sizes part hmem).2
  constructor
  · intro answer hmem
    obtain ⟨part, hpart, hhands⟩ := exists_mem_of_forall₂ h.answers hmem
    rw [hhands.length_eq (hsize part hpart)]
    exact hparts.sizes part hpart
  · rw [totalLength_of_hands h.answers hsize]
    exact hparts.total
  · intro htaken
    rw [Nat.zero_add] at htaken
    have hzero := (length_eq_zero_iff _).mpr h.ends
    exact absurd htaken.1 (by omega)

/-- The image in chunks of whole words is written as the image in one buffer. -/
theorem writeImage_istream_eq_full {stream : Nat → StreamAnswer}
    {parts : List (List UInt8)} (h : Delivers stream parts)
    (hparts : WholeParts parts) :
    writeImage (.istream stream) =
      writeImage (.full parts.flatten parts.flatten.length) := by
  obtain ⟨count, hstops, heq⟩ := istreamLoop_eq stream maxDataLimit 0
  have hcount : count = parts.length := hstops.unique (h.stops hparts)
  subst hcount
  have hstatus : (stream (0 + parts.length)).endStatus = .success := by
    rw [Nat.zero_add, StreamAnswer.endStatus, if_pos h.ends]
  simp only [writeImage, gt_iff_lt, Nat.not_lt.mpr hparts.total, if_false]
  rw [heq, hstatus,
    allWords_of_hands h.answers (fun part hmem => (hparts.sizes part hmem).2)
      hparts.whole,
    altFpgaInternalWriteaxi_eq]

/-- The rest of the driver sees the data through step 9 alone. -/
theorem altFpgaInternalConfigure_congr {fpgaData fpgaData' : FpgaData}
    (h : writeImage fpgaData = writeImage fpgaData') :
    altFpgaInternalConfigure fpgaData = altFpgaInternalConfigure fpgaData' := by
  simp only [altFpgaInternalConfigure, configureSteps, loadSteps,
    altFpgaInternalConfigureIdata, h]

/-- Configuration from a stream that hands out the image in whole words is the
program that configures from the image in memory, access by access. -/
theorem altFpgaIstreamConfigure_eq_altFpgaConfigure
    {stream : Nat → StreamAnswer} {parts : List (List UInt8)}
    (h : Delivers stream parts) (hparts : WholeParts parts) :
    altFpgaIstreamConfigure stream =
      altFpgaConfigure parts.flatten parts.flatten.length :=
  altFpgaInternalConfigure_congr (writeImage_istream_eq_full h hparts)

/-- A stream of two parts in a larger buffer against the eight bytes they
make. -/
theorem altFpgaIstreamConfigure_two_parts :
    altFpgaIstreamConfigure
        (fun call => if call < 2 then ⟨4, [1, 2, 3, 4, 9, 9]⟩ else ⟨0, []⟩) =
      altFpgaConfigure [1, 2, 3, 4, 1, 2, 3, 4] 8 := by
  have hhands : Hands ⟨4, [1, 2, 3, 4, 9, 9]⟩ [1, 2, 3, 4] := ⟨rfl, rfl⟩
  refine @altFpgaIstreamConfigure_eq_altFpgaConfigure _
    [[1, 2, 3, 4], [1, 2, 3, 4]] ⟨?_, rfl⟩ ⟨?_, ?_, ?_⟩
  · exact List.Forall₂.cons hhands (List.Forall₂.cons hhands List.Forall₂.nil)
  · decide
  · decide
  · decide

/-- Whatever a callback answers: it is called at most once more than the limit
has bytes, what is written are the chunks before the first answer that is
negative, larger than the buffer, beyond the limit or the end, and only the end
is a success. -/
theorem writeImage_istream_of_any (stream : Nat → StreamAnswer) :
    ∃ count, count ≤ maxDataLimit ∧ Stops stream maxDataLimit 0 count ∧
      writeImage (.istream stream) =
        (do writeAll .data (allWords (chunks stream 0 count))
            return if (stream count).cbStatus = 0 then .success
              else .fpgaCfgStm) := by
  obtain ⟨count, hstops, heq⟩ := istreamLoop_eq stream maxDataLimit 0
  rw [Nat.zero_add] at heq
  exact ⟨count, hstops.count_le, hstops, heq⟩

end FpgaFramework
