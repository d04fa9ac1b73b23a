/-
Connection ids.  An id is a union of eight bytes of which `from_endpoint` writes
six; ids are compared by all eight.
-/
import FpgaFramework.Framing
import Mathlib.Data.Nat.Digits.Defs
import Mathlib.Data.Vector.Basic

namespace FpgaFramework

/-- The value of a list of bytes, least significant first. -/
def bytesValue (bytes : List UInt8) : Nat :=
  Nat.ofDigits 256 (bytes.map UInt8.toNat)

theorem digit_lt (bytes : List UInt8) :
    ∀ digit ∈ bytes.map UInt8.toNat, digit < 256 := by
  intro digit hmem
  obtain ⟨byte, _, rfl⟩ := List.mem_map.mp hmem
  exact byte.toNat_lt

theorem bytesValue_lt (bytes : List UInt8) :
    bytesValue bytes < 256 ^ bytes.length := by
  have hlt := Nat.ofDigits_lt_base_pow_length (by decide) (digit_lt bytes)
  rw [List.length_map] at hlt
  exact hlt

theorem bytesValue_injective {first second : List UInt8}
    (hlength : first.length = second.length)
    (h : bytesValue first = bytesValue second) : first = second := by
  have hdigits := Nat.ofDigits_inj_of_len_eq (by decide)
    (show (first.map UInt8.toNat).length = (second.map UInt8.toNat).length by
      rw [List.length_map, List.length_map, hlength])
    (digit_lt first) (digit_lt second) h
  exact (List.map_inj_right fun _ _ hbyte => UInt8.toNat_inj.mp hbyte).mp hdigits

/-- An IPv4 `tcp::endpoint`. -/
@[ext] structure Endpoint where
  address : Vector UInt8 4
  port : UInt16
deriving Repr, DecidableEq

/-- `union Connection::ID`: the members of its `struct`, and the bytes that only
`i64` covers. -/
@[ext] structure ConnectionId where
  ip : Vector UInt8 4
  port : UInt16
  residual : Vector UInt8 2
deriving Repr, DecidableEq

namespace ConnectionId

/-- `ID::from_endpoint`, in an object that held `memory` before. -/
def fromEndpoint (memory : ConnectionId) (ep : Endpoint) : ConnectionId :=
  { memory with
    ip := #v[ep.address[0], ep.address[1], ep.address[2], ep.address[3]]
    port := ep.port }

def portBytes (port : UInt16) : List UInt8 :=
  [UInt8.ofNat port.toNat, UInt8.ofNat (port.toNat / 2 ^ 8)]

/-- The eight bytes of the union. -/
def asBytes (id : ConnectionId) : List UInt8 :=
  id.ip.toList ++ (portBytes id.port ++ id.residual.toList)

/-- `ID::i64`. -/
def i64 (id : ConnectionId) : UInt64 := UInt64.ofNat (bytesValue id.asBytes)

/-- `ID::operator<`. -/
instance : LT ConnectionId := ⟨fun id other => id.i64 < other.i64⟩

instance (id other : ConnectionId) : Decidable (id < other) :=
  inferInstanceAs (Decidable (id.i64 < other.i64))

/-- An id object: the endpoint it is made from, and what its memory held. -/
structure Made where
  memory : ConnectionId
  endpoint : Endpoint

def Made.id (made : Made) : ConnectionId := fromEndpoint made.memory made.endpoint

/-- The ids are ordered as distinct endpoints are. -/
structure OrdersEndpoints (first second third : Made) : Prop where
  exactly_one :
    (first.id < second.id ∧ ¬second.id < first.id ∧
        first.endpoint ≠ second.endpoint) ∨
      (¬first.id < second.id ∧ second.id < first.id ∧
        first.endpoint ≠ second.endpoint) ∨
      (¬first.id < second.id ∧ ¬second.id < first.id ∧
        first.endpoint = second.endpoint)
  trans : first.id < second.id → second.id < third.id → first.id < third.id

theorem length_asBytes (id : ConnectionId) : id.asBytes.length = 8 := by
  rw [asBytes, List.length_append, List.length_append, Vector.length_toList,
    Vector.length_toList]
  rfl

theorem portBytes_injective {first second : UInt16}
    (h : portBytes first = portBytes second) : first = second := by
  have hfirst := first.toNat_lt
  have hsecond := second.toNat_lt
  simp only [portBytes, List.cons.injEq, ← UInt8.toNat_inj, UInt8.toNat_ofNat',
    and_true] at h
  rw [← UInt16.toNat_inj]
  omega

/-- The bytes determine the members. -/
theorem asBytes_injective {first second : ConnectionId}
    (h : first.asBytes = second.asBytes) : first = second := by
  obtain ⟨hip, hrest⟩ := List.append_inj h (by
    rw [Vector.length_toList, Vector.length_toList])
  obtain ⟨hport, hresidual⟩ := List.append_inj hrest rfl
  apply ConnectionId.ext
  · exact Vector.toList_inj.mp hip
  · exact portBytes_injective hport
  · exact Vector.toList_inj.mp hresidual

theorem toNat_i64 (id : ConnectionId) : id.i64.toNat = bytesValue id.asBytes := by
  have hlt := bytesValue_lt id.asBytes
  rw [length_asBytes, show 256 ^ 8 = 2 ^ 64 by decide] at hlt
  rw [i64, UInt64.toNat_ofNat', Nat.mod_eq_of_lt hlt]

theorem lt_iff (first second : ConnectionId) :
    first < second ↔ bytesValue first.asBytes < bytesValue second.asBytes := by
  rw [← toNat_i64, ← toNat_i64, ← UInt64.lt_iff_toNat_lt]
  rfl

theorem lt_irrefl (id : ConnectionId) : ¬id < id := by
  rw [lt_iff]
  exact Nat.lt_irrefl _

theorem lt_trans {first second third : ConnectionId} (h : first < second)
    (h' : second < third) : first < third := by
  rw [lt_iff] at h h' ⊢
  exact Nat.lt_trans h h'

theorem lt_asymm {first second : ConnectionId} (h : first < second) :
    ¬second < first := by
  intro h'
  exact lt_irrefl first (lt_trans h h')

/-- Ids that differ in any of the eight bytes are ordered. -/
theorem lt_or_lt_of_ne {first second : ConnectionId} (h : first ≠ second) :
    first < second ∨ second < first := by
  rw [lt_iff, lt_iff]
  apply Nat.lt_or_lt_of_ne
  intro hvalue
  apply h
  apply asBytes_injective
  apply bytesValue_injective _ hvalue
  rw [length_asBytes, length_asBytes]

/-- All four bytes of the address are copied. -/
theorem address_eq (address : Vector UInt8 4) :
    #v[address[0], address[1], address[2], address[3]] = address := by
  apply Vector.ext
  intro i hi
  have hcases : i = 0 ∨ i = 1 ∨ i = 2 ∨ i = 3 := by omega
  rcases hcases with rfl | rfl | rfl | rfl <;> rfl

theorem Made.id_eq (made : Made) :
    made.id = ⟨made.endpoint.address, made.endpoint.port, made.memory.residual⟩ := by
  rw [Made.id, fromEndpoint, address_eq]

/-- Two ids are the same when their endpoints and the bytes that were left alone
are. -/
theorem Made.id_eq_iff (first second : Made) :
    first.id = second.id ↔ first.endpoint = second.endpoint ∧
      first.memory.residual = second.memory.residual := by
  rw [Made.id_eq, Made.id_eq, ConnectionId.ext_iff]
  constructor
  · rintro ⟨haddress, hport, hresidual⟩
    refine ⟨?_, hresidual⟩
    rw [Endpoint.ext_iff]
    exact ⟨haddress, hport⟩
  · rintro ⟨hendpoint, hresidual⟩
    rw [hendpoint]
    exact ⟨rfl, rfl, hresidual⟩

/-- The ids are ordered as their endpoints are exactly when two objects with one
endpoint held the same in the bytes that `from_endpoint` leaves alone. -/
theorem ordersEndpoints_iff (first second third : Made) :
    OrdersEndpoints first second third ↔
      (first.endpoint = second.endpoint →
        first.memory.residual = second.memory.residual) := by
  have hsame := Made.id_eq_iff first second
  constructor
  · intro h hendpoint
    rcases h.exactly_one with ⟨_, _, hne⟩ | ⟨_, _, hne⟩ | ⟨hfirst, hsecond, _⟩
    · exact absurd hendpoint hne
    · exact absurd hendpoint hne
    · by_contra hresidual
      have hne : first.id ≠ second.id := by
        intro hid
        exact hresidual (hsame.mp hid).2
      rcases lt_or_lt_of_ne hne with hlt | hlt
      · exact hfirst hlt
      · exact hsecond hlt
  · intro hmemory
    constructor
    · by_cases hendpoint : first.endpoint = second.endpoint
      · have hid := hsame.mpr ⟨hendpoint, hmemory hendpoint⟩
        rw [hid]
        exact Or.inr (Or.inr ⟨lt_irrefl _, lt_irrefl _, hendpoint⟩)
      · have hne : first.id ≠ second.id := by
          intro hid
          exact hendpoint (hsame.mp hid).1
        rcases lt_or_lt_of_ne hne with hlt | hlt
        · exact Or.inl ⟨hlt, lt_asymm hlt, hendpoint⟩
        · exact Or.inr (Or.inl ⟨lt_asymm hlt, hlt, hendpoint⟩)
    · exact lt_trans

/-- Two ids of 127.0.0.1:8888, one of them made where a byte was set. -/
theorem sameEndpoint_ordered :
    ∃ first second : Made, first.endpoint = ⟨#v[127, 0, 0, 1], 8888⟩ ∧
      second.endpoint = first.endpoint ∧ first.id < second.id ∧
        ¬OrdersEndpoints first second second := by
  refine ⟨⟨⟨#v[0, 0, 0, 0], 0, #v[0, 0]⟩, #v[127, 0, 0, 1], 8888⟩,
    ⟨⟨#v[0, 0, 0, 0], 0, #v[1, 0]⟩, #v[127, 0, 0, 1], 8888⟩, rfl, rfl, ?_, ?_⟩
  · decide
  · intro h
    rcases h.exactly_one with ⟨_, _, hne⟩ | ⟨_, _, hne⟩ | ⟨hfirst, _, _⟩
    · exact hne rfl
    · exact hne rfl
    · apply hfirst
      decide

end ConnectionId

end FpgaFramework
