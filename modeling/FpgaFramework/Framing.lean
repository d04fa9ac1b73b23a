/-
Byte-level framing.  Little-endian 32-bit words, and sources that hand out
items until their first failure, with the rule by which one source simulates
another over a whole stream.
-/
import Mathlib.Algebra.Group.Nat.Defs
import Mathlib.Data.List.Forall2
import Mathlib.Data.Nat.Init
import Mathlib.Tactic.Common

namespace FpgaFramework

/-- The four bytes of a 32-bit word, least significant first. -/
def u32Bytes (value : UInt32) : List UInt8 :=
  [UInt8.ofNat value.toNat, UInt8.ofNat (value.toNat / 2 ^ 8),
    UInt8.ofNat (value.toNat / 2 ^ 16), UInt8.ofNat (value.toNat / 2 ^ 24)]

/-- The word whose four bytes start at `offset`; bytes past the end read as
zero. -/
def u32At (bytes : List UInt8) (offset : Nat) : UInt32 :=
  UInt32.ofNat ((bytes.getD offset 0).toNat +
    2 ^ 8 * (bytes.getD (offset + 1) 0).toNat +
    2 ^ 16 * (bytes.getD (offset + 2) 0).toNat +
    2 ^ 24 * (bytes.getD (offset + 3) 0).toNat)

@[simp] theorem length_u32Bytes (value : UInt32) :
    (u32Bytes value).length = 4 := rfl

@[simp] theorem u32At_u32Bytes_append (value : UInt32) (rest : List UInt8) :
    u32At (u32Bytes value ++ rest) 0 = value := by
  apply UInt32.toNat_inj.mp
  have hlt := value.toNat_lt
  simp only [u32At, u32Bytes, List.cons_append, List.getD_cons_zero,
    List.getD_cons_succ, UInt8.toNat_ofNat', UInt32.toNat_ofNat']
  omega

theorem u32Bytes_u32At (a b c d : UInt8) :
    u32Bytes (u32At [a, b, c, d] 0) = [a, b, c, d] := by
  have ha := a.toNat_lt
  have hb := b.toNat_lt
  have hc := c.toNat_lt
  have hd := d.toNat_lt
  simp only [u32At, u32Bytes, List.getD_cons_zero, List.getD_cons_succ,
    UInt32.toNat_ofNat', List.cons.injEq, ← UInt8.toNat_inj,
    UInt8.toNat_ofNat', and_true]
  omega

theorem u32At_append_right (front bytes : List UInt8) (offset : Nat) :
    u32At (front ++ bytes) (front.length + offset) = u32At bytes offset := by
  have hget : ∀ k, (front ++ bytes).getD (front.length + k) 0 =
      bytes.getD k 0 := by
    intro k
    simp [List.getD_eq_getElem?_getD, List.getElem?_append_right]
  simp only [u32At, Nat.add_assoc, hget]

theorem u32At_append_left {front bytes : List UInt8} {offset : Nat}
    (h : offset + 4 ≤ front.length) :
    u32At (front ++ bytes) offset = u32At front offset := by
  have hget : ∀ k, k < front.length →
      (front ++ bytes).getD k 0 = front.getD k 0 := by
    intro k hk
    simp [List.getD_eq_getElem?_getD, List.getElem?_append_left hk]
  simp only [u32At, hget offset (by omega), hget (offset + 1) (by omega),
    hget (offset + 2) (by omega), hget (offset + 3) (by omega)]

universe u v w

variable {S : Type u} {E : Type v} {A : Type w}

/-- A reader of items: each call returns an item or an error, and a call that
returns an item has used up part of the input. -/
structure Source (S : Type u) (E : Type v) (A : Type w) where
  next : S → Except E A × S
  size : S → Nat
  size_next : ∀ {state item after},
    next state = (.ok item, after) → size after < size state

/-- What repeated calls give until the first error: the items, that error, and
the state it leaves. -/
structure Drained (S : Type u) (E : Type v) (A : Type w) where
  items : List A
  error : E
  state : S

/-- Call `next` until it fails. -/
def Source.drain (source : Source S E A) (state : S) : Drained S E A :=
  match _h : source.next state with
  | (.error error, after) => ⟨[], error, after⟩
  | (.ok item, after) =>
      let rest := source.drain after
      ⟨item :: rest.items, rest.error, rest.state⟩
termination_by source.size state
decreasing_by exact source.size_next _h

theorem Source.drain_of_error (source : Source S E A) {state after : S}
    {error : E} (h : source.next state = (.error error, after)) :
    source.drain state = ⟨[], error, after⟩ := by
  rw [Source.drain]
  split
  · next hnext =>
      rw [h] at hnext
      cases hnext
      rfl
  · next hnext =>
      rw [h] at hnext
      cases hnext

theorem Source.drain_of_ok (source : Source S E A) {state after : S}
    {item : A} (h : source.next state = (.ok item, after)) :
    source.drain state =
      ⟨item :: (source.drain after).items, (source.drain after).error,
        (source.drain after).state⟩ := by
  rw [Source.drain]
  split
  · next hnext =>
      rw [h] at hnext
      cases hnext
  · next hnext =>
      rw [h] at hnext
      cases hnext
      rfl

/-- One call of `source` answered by one call of `target`. -/
inductive SameAnswer {S' : Type u} {E' : Type v} {A' : Type w}
    (relS : S → S' → Prop) (relE : E → E' → Prop) (relA : A → A' → Prop) :
    Except E A × S → Except E' A' × S' → Prop
  | ok {item : A} {item' : A'} {after : S} {after' : S'}
      (hitem : relA item item') (hafter : relS after after') :
      SameAnswer relS relE relA (.ok item, after) (.ok item', after')
  | error {error : E} {error' : E'} {after : S} {after' : S'}
      (herror : relE error error') (hafter : relS after after') :
      SameAnswer relS relE relA (.error error, after) (.error error', after')

/-- Sources that answer alike call by call drain alike. -/
theorem Source.drain_simulates {S' : Type u} {E' : Type v} {A' : Type w}
    (source : Source S E A) (target : Source S' E' A')
    (relS : S → S' → Prop) (relE : E → E' → Prop) (relA : A → A' → Prop)
    (hnext : ∀ state state', relS state state' →
      SameAnswer relS relE relA (source.next state) (target.next state'))
    (state : S) (state' : S') (hstate : relS state state') :
    List.Forall₂ relA (source.drain state).items (target.drain state').items ∧
      relE (source.drain state).error (target.drain state').error ∧
      relS (source.drain state).state (target.drain state').state := by
  induction hsize : source.size state using Nat.strong_induction_on
    generalizing state state' with
  | h n ih =>
      have hanswer := hnext state state' hstate
      generalize hs : source.next state = answer at hanswer
      generalize ht : target.next state' = answer' at hanswer
      cases hanswer with
      | error herror hafter =>
          rw [source.drain_of_error hs, target.drain_of_error ht]
          exact ⟨List.Forall₂.nil, herror, hafter⟩
      | ok hitem hafter =>
          have hless := source.size_next hs
          have htail := ih _ (hsize ▸ hless) _ _ hafter rfl
          rw [source.drain_of_ok hs, target.drain_of_ok ht]
          exact ⟨List.Forall₂.cons hitem htail.1, htail.2⟩

end FpgaFramework
