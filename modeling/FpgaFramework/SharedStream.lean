/-
One byte stream with many writers.  Every writer puts its message out piece by
piece, and pieces of different writers may alternate.  Where no piece is put out
while another message is only partly out, the stream is a prefix of whole
messages.
-/
import FpgaFramework.Machine
import Mathlib.Data.List.Infix
import Mathlib.Data.List.Nodup

namespace FpgaFramework

universe u v

/-- A message handed to the stream and how many of its bytes are out. -/
structure Transfer (M : Type u) where
  message : M
  written : Nat
deriving Repr, DecidableEq

/-- The bytes put out so far and every message handed over, in the order of the
calls.  A message is known by its place in that order, its ticket. -/
structure SharedStream (M : Type u) (B : Type v) where
  wire : List B
  sends : List (Transfer M)
deriving Repr, DecidableEq

namespace SharedStream

variable {M : Type u} {B : Type v} (encode : M → List B)

def empty : SharedStream M B := ⟨[], []⟩

/-- Hand a message over; its ticket is the length of `sends`. -/
def begin (stream : SharedStream M B) (message : M) : SharedStream M B :=
  { stream with sends := stream.sends ++ [⟨message, 0⟩] }

/-- Put out the next `count` bytes of the message with this ticket. -/
def piece (stream : SharedStream M B) (ticket count : Nat) :
    Option (SharedStream M B) :=
  match stream.sends[ticket]? with
  | none => none
  | some transfer =>
      if 0 < count ∧
          transfer.written + count ≤ (encode transfer.message).length then
        some
          { wire := stream.wire ++
              ((encode transfer.message).drop transfer.written).take count
            sends := stream.sends.set ticket
              ⟨transfer.message, transfer.written + count⟩ }
      else none

/-- All bytes of the message are out. -/
def Done (stream : SharedStream M B) (ticket : Nat) : Prop :=
  ∃ transfer ∈ stream.sends[ticket]?,
    transfer.written = (encode transfer.message).length

instance (stream : SharedStream M B) (ticket : Nat) :
    Decidable (stream.Done encode ticket) :=
  match h : stream.sends[ticket]? with
  | none => isFalse (by simp [Done, h])
  | some transfer =>
      decidable_of_iff
        (transfer.written = (encode transfer.message).length) (by simp [Done, h])

/-- Some bytes of the message are out, and some are not. -/
def Transfer.Torn (transfer : Transfer M) : Prop :=
  0 < transfer.written ∧ transfer.written < (encode transfer.message).length

instance (transfer : Transfer M) : Decidable (Transfer.Torn encode transfer) := by
  unfold Transfer.Torn
  infer_instance

/-- No message other than the one with this ticket is partly out. -/
def Exclusive (stream : SharedStream M B) (ticket : Nat) : Prop :=
  ∀ (other : Nat) (transfer : Transfer M),
    stream.sends[other]? = some transfer → other ≠ ticket →
      ¬Transfer.Torn encode transfer

instance (stream : SharedStream M B) (ticket : Nat) :
    Decidable (stream.Exclusive encode ticket) :=
  decidable_of_iff
    (∀ other : Fin stream.sends.length, other.1 ≠ ticket →
      ¬Transfer.Torn encode stream.sends[other])
    ⟨fun h other transfer hget hne => by
      obtain ⟨hlt, rfl⟩ := List.getElem?_eq_some_iff.mp hget
      exact h ⟨other, hlt⟩ hne,
    fun h other hne =>
      h other.1 _ (List.getElem?_eq_getElem other.2) hne⟩

/-- The bytes of the message with this ticket. -/
def bytesOf (stream : SharedStream M B) (ticket : Nat) : List B :=
  (stream.sends[ticket]?.map fun transfer => encode transfer.message).getD []

/-- The stream is a prefix of whole messages one after another, each of them one
of the messages handed over and none of them twice. -/
def Whole (stream : SharedStream M B) : Prop :=
  ∃ order : List Nat, order.Nodup ∧
    (∀ ticket ∈ order, ticket < stream.sends.length) ∧
      stream.wire <+: order.flatMap (stream.bytesOf encode)

/-- The stream is a row of finished messages, followed by the part that is out of
at most one more. -/
def Settled (stream : SharedStream M B) : Prop :=
  ∃ order : List Nat, order.Nodup ∧
    (∀ ticket ∈ order, stream.Done encode ticket) ∧
      ((stream.wire = order.flatMap (stream.bytesOf encode) ∧
          ∀ (ticket : Nat) (transfer : Transfer M),
            stream.sends[ticket]? = some transfer →
              ¬Transfer.Torn encode transfer) ∨
        ∃ (ticket : Nat) (transfer : Transfer M),
          stream.sends[ticket]? = some transfer ∧
          Transfer.Torn encode transfer ∧ stream.Exclusive encode ticket ∧
          stream.wire = order.flatMap (stream.bytesOf encode) ++
            (encode transfer.message).take transfer.written)

variable {encode}

theorem Done.lt_length {stream : SharedStream M B} {ticket : Nat}
    (h : stream.Done encode ticket) : ticket < stream.sends.length := by
  obtain ⟨transfer, htransfer, _⟩ := h
  exact (List.getElem?_eq_some_iff.mp htransfer).1

theorem Settled.whole {stream : SharedStream M B}
    (h : stream.Settled encode) : stream.Whole encode := by
  obtain ⟨order, hnodup, hdone,
    ⟨hwire, _⟩ | ⟨ticket, transfer, hget, htorn, _, hwire⟩⟩ := h
  · exact ⟨order, hnodup, fun ticket hmem => (hdone ticket hmem).lt_length,
      by rw [hwire]⟩
  · have hfresh : ticket ∉ order := by
      intro hmem
      obtain ⟨other, hother, hfull⟩ := hdone ticket hmem
      rw [hget] at hother
      cases hother
      exact absurd htorn.2 (by omega)
    refine ⟨order ++ [ticket], ?_, ?_, ?_⟩
    · rw [← List.concat_eq_append]
      exact hnodup.concat hfresh
    · intro other hmem
      rcases List.mem_append.mp hmem with hold | hnew
      · exact (hdone other hold).lt_length
      · rw [List.mem_singleton.mp hnew]
        exact (List.getElem?_eq_some_iff.mp hget).1
    · have hbytes : stream.bytesOf encode ticket = encode transfer.message := by
        simp [bytesOf, hget]
      rw [hwire, List.flatMap_append, List.flatMap_singleton, hbytes]
      exact (List.prefix_append_right_inj _).mpr (List.take_prefix _ _)

theorem settled_empty : (empty : SharedStream M B).Settled encode :=
  ⟨[], List.nodup_nil, by simp, Or.inl ⟨rfl, by simp [empty]⟩⟩

/-- The entry with a ticket after a message was handed over. -/
theorem getElem?_begin (stream : SharedStream M B) (message : M) {ticket : Nat}
    {transfer : Transfer M}
    (h : (stream.begin message).sends[ticket]? = some transfer) :
    stream.sends[ticket]? = some transfer ∨ transfer = ⟨message, 0⟩ := by
  simp only [begin, List.getElem?_append] at h
  split at h
  · exact Or.inl h
  · have hmem := List.mem_of_getElem? h
    exact Or.inr (List.mem_singleton.mp hmem)

theorem getElem?_begin_of_some (stream : SharedStream M B) (message : M)
    {ticket : Nat} {transfer : Transfer M}
    (h : stream.sends[ticket]? = some transfer) :
    (stream.begin message).sends[ticket]? = some transfer := by
  have hlt := (List.getElem?_eq_some_iff.mp h).1
  rw [begin, List.getElem?_append_left hlt, h]

theorem bytesOf_begin (stream : SharedStream M B) (message : M) {ticket : Nat}
    (h : ticket < stream.sends.length) :
    (stream.begin message).bytesOf encode ticket =
      stream.bytesOf encode ticket := by
  simp only [bytesOf, begin, List.getElem?_append_left h]

theorem flatMap_bytesOf_begin (stream : SharedStream M B) (message : M)
    {order : List Nat} (hdone : ∀ ticket ∈ order, stream.Done encode ticket) :
    order.flatMap ((stream.begin message).bytesOf encode) =
      order.flatMap (stream.bytesOf encode) := by
  apply List.flatMap_congr
  intro ticket hmem
  exact bytesOf_begin stream message (hdone ticket hmem).lt_length

theorem Settled.begin {stream : SharedStream M B} (h : stream.Settled encode)
    (message : M) : (stream.begin message).Settled encode := by
  obtain ⟨order, hnodup, hdone, hcase⟩ := h
  refine ⟨order, hnodup, ?_, ?_⟩
  · intro ticket hmem
    obtain ⟨transfer, hget, hfull⟩ := hdone ticket hmem
    exact ⟨transfer, getElem?_begin_of_some stream message hget, hfull⟩
  · rw [flatMap_bytesOf_begin stream message hdone]
    rcases hcase with ⟨hwire, hnone⟩ | ⟨ticket, transfer, hget, htorn, honly, hwire⟩
    · refine Or.inl ⟨hwire, fun other entry hentry => ?_⟩
      rcases getElem?_begin stream message hentry with hold | rfl
      · exact hnone other entry hold
      · exact fun htorn => absurd htorn.1 (by simp)
    · refine Or.inr ⟨ticket, transfer,
        getElem?_begin_of_some stream message hget, htorn, ?_, hwire⟩
      intro other entry hentry hne
      rcases getElem?_begin stream message hentry with hold | rfl
      · exact honly other entry hold hne
      · exact fun htorn => absurd htorn.1 (by simp)

/-- What a piece does, spelled out. -/
theorem piece_eq_some {stream after : SharedStream M B} {ticket count : Nat}
    (h : stream.piece encode ticket count = some after) :
    ∃ transfer, stream.sends[ticket]? = some transfer ∧ 0 < count ∧
      transfer.written + count ≤ (encode transfer.message).length ∧
      after.wire = stream.wire ++
        ((encode transfer.message).drop transfer.written).take count ∧
      after.sends = stream.sends.set ticket
        ⟨transfer.message, transfer.written + count⟩ := by
  simp only [piece] at h
  split at h
  · cases h
  · next transfer hget =>
      split at h
      · next hbound =>
          cases h
          exact ⟨transfer, hget, hbound.1, hbound.2, rfl, rfl⟩
      · cases h

theorem bytesOf_set {stream after : SharedStream M B} {ticket written : Nat}
    {transfer : Transfer M} (hget : stream.sends[ticket]? = some transfer)
    (hsends : after.sends = stream.sends.set ticket ⟨transfer.message, written⟩) :
    after.bytesOf encode = stream.bytesOf encode := by
  funext other
  have hlt := (List.getElem?_eq_some_iff.mp hget).1
  by_cases heq : ticket = other
  · subst heq
    simp [bytesOf, hsends, hget, List.getElem?_set_self hlt]
  · simp [bytesOf, hsends, List.getElem?_set_ne heq]

/-- The one step that matters: an exclusive piece continues the message that is
partly out, or starts one when none is. -/
theorem Settled.piece {stream after : SharedStream M B} {ticket count : Nat}
    (h : stream.Settled encode) (hexclusive : stream.Exclusive encode ticket)
    (hpiece : stream.piece encode ticket count = some after) :
    after.Settled encode := by
  obtain ⟨transfer, hget, hpos, hbound, hwire, hsends⟩ := piece_eq_some hpiece
  obtain ⟨order, hnodup, hdone, hcase⟩ := h
  have hlt := (List.getElem?_eq_some_iff.mp hget).1
  have hself : after.sends[ticket]? =
      some ⟨transfer.message, transfer.written + count⟩ := by
    rw [hsends, List.getElem?_set_self hlt]
  have hother : ∀ other, other ≠ ticket →
      after.sends[other]? = stream.sends[other]? := by
    intro other hne
    rw [hsends, List.getElem?_set_ne hne.symm]
  have hfresh : ticket ∉ order := by
    intro hmem
    obtain ⟨entry, hentry, hfull⟩ := hdone ticket hmem
    rw [hget] at hentry
    cases hentry
    omega
  have hkeep : ∀ other ∈ order, after.Done encode other := by
    intro other hmem
    obtain ⟨entry, hentry, hfull⟩ := hdone other hmem
    refine ⟨entry, ?_, hfull⟩
    rw [hother other fun heq => hfresh (heq ▸ hmem)]
    exact hentry
  -- Before the piece, what is out of this message ends the wire.
  have hbefore : stream.wire = order.flatMap (stream.bytesOf encode) ++
      (encode transfer.message).take transfer.written := by
    rcases hcase with ⟨hrow, hnone⟩ | ⟨torn, entry, hentry, htorn, _, hrow⟩
    · have hzero : transfer.written = 0 := by
        by_contra hne
        exact hnone ticket transfer hget ⟨Nat.pos_of_ne_zero hne, by omega⟩
      rw [hrow, hzero, List.take_zero, List.append_nil]
    · have heq : torn = ticket := by
        by_contra hne
        exact hexclusive torn entry hentry hne htorn
      subst heq
      rw [hget] at hentry
      cases hentry
      exact hrow
  have hafter : after.wire = order.flatMap (after.bytesOf encode) ++
      (encode transfer.message).take (transfer.written + count) := by
    rw [hwire, hbefore, bytesOf_set hget hsends, List.append_assoc,
      ← List.take_add]
  have honly : after.Exclusive encode ticket := by
    intro other entry hentry hne
    rw [hother other hne] at hentry
    exact hexclusive other entry hentry hne
  by_cases hfull : transfer.written + count = (encode transfer.message).length
  · refine ⟨order ++ [ticket], ?_, ?_, Or.inl ⟨?_, ?_⟩⟩
    · rw [← List.concat_eq_append]
      exact hnodup.concat hfresh
    · intro other hmem
      rcases List.mem_append.mp hmem with hold | hnew
      · exact hkeep other hold
      · rw [List.mem_singleton.mp hnew]
        exact ⟨_, hself, hfull⟩
    · have hbytes : after.bytesOf encode ticket = encode transfer.message := by
        simp [bytesOf, hself]
      rw [hafter, List.flatMap_append, List.flatMap_singleton, hbytes, hfull,
        List.take_length]
    · intro other entry hentry htorn
      by_cases heq : other = ticket
      · subst heq
        rw [hself] at hentry
        cases hentry
        exact absurd htorn.2 (by simp [hfull])
      · exact honly other entry hentry heq htorn
  · exact ⟨order, hnodup, hkeep, Or.inr ⟨ticket, _, hself,
      ⟨by simp only; omega, by simp only; omega⟩, honly, hafter⟩⟩

/-- The messages handed over, in the order of the calls. -/
def messages (stream : SharedStream M B) : List M :=
  stream.sends.map Transfer.message

@[simp] theorem messages_begin (stream : SharedStream M B) (message : M) :
    (stream.begin message).messages = stream.messages ++ [message] := by
  simp only [messages, begin, List.map_append, List.map_cons, List.map_nil]

theorem messages_piece {stream after : SharedStream M B} {ticket count : Nat}
    (h : stream.piece encode ticket count = some after) :
    after.messages = stream.messages := by
  obtain ⟨transfer, hget, _, _, _, hsends⟩ := piece_eq_some h
  obtain ⟨hlt, hentry⟩ := List.getElem?_eq_some_iff.mp hget
  have hbound : ticket < (stream.sends.map Transfer.message).length := by
    simpa using hlt
  have hmessage : transfer.message =
      (stream.sends.map Transfer.message)[ticket] := by
    simp [hentry]
  rw [messages, hsends, List.map_set, hmessage, List.set_getElem_self]
  rfl

theorem Done.begin {stream : SharedStream M B} {ticket : Nat}
    (h : stream.Done encode ticket) (message : M) :
    (stream.begin message).Done encode ticket := by
  obtain ⟨transfer, hget, hfull⟩ := h
  exact ⟨transfer, getElem?_begin_of_some stream message hget, hfull⟩

/-- A finished message has no further piece, and the pieces of others leave it
finished. -/
theorem Done.piece {stream after : SharedStream M B} {done ticket count : Nat}
    (h : stream.Done encode done)
    (hpiece : stream.piece encode ticket count = some after) :
    after.Done encode done := by
  obtain ⟨transfer, hget, hfull⟩ := h
  obtain ⟨moved, hmoved, hpos, hbound, _, hsends⟩ := piece_eq_some hpiece
  by_cases heq : ticket = done
  · subst heq
    cases hmoved.symm.trans hget
    omega
  · refine ⟨transfer, ?_, hfull⟩
    rw [hsends, List.getElem?_set_ne heq]
    exact hget

variable (M) in
/-- What writers do to the stream. -/
inductive Action where
  | begin (message : M)
  | piece (ticket count : Nat)

variable (encode) in
def step (stream : SharedStream M B) : Action M → Option (SharedStream M B)
  | .begin message => some (stream.begin message)
  | .piece ticket count => stream.piece encode ticket count

variable (encode) in
/-- Pieces are put out only while no other message is partly out. -/
def OneAtATime (stream : SharedStream M B) : Action M → Prop
  | .begin _ => True
  | .piece ticket _ => stream.Exclusive encode ticket

/-- In a run of pieces put out one message at a time, the stream is whole. -/
theorem whole_of_oneAtATime {stream : SharedStream M B}
    (h : Machine.Reaches (step encode) (OneAtATime encode) empty stream) :
    stream.Whole encode := by
  refine Settled.whole (h.invariant settled_empty ?_)
  intro before action after hsettled hguard hstep
  cases action with
  | begin message =>
      cases hstep
      exact hsettled.begin message
  | piece ticket count => exact hsettled.piece hguard hstep

end SharedStream

end FpgaFramework
