import SymexVP.Clover
import SymexVP.Exec

/-!
# Ranges of memory mapped registers

`RegisterRange` is the byte memory behind a group of registers, with callbacks for the
device it belongs to. A device routes a bus access to the first of its ranges that
contains the address. `ArrayView` gives the device the same bytes as an array of
integers.
-/

namespace SymexVP

/-- How an access to a device's registers ends early. -/
inductive RegisterFault
  /-- A failed `assert`. -/
  | assertion (text : String)
  /-- `ensure`. -/
  | runtimeAssertion
  /-- No range contains the address. -/
  | unroutable (name : String) (address : Nat)
  /-- An index beyond an array: a failed assertion of `ArrayView`, or undefined where nothing
  checks it. -/
  | outOfRange
  deriving DecidableEq, Repr

/-- The bytes of a range; those beyond its size are never looked at. -/
abbrev RegisterMemory := Nat → BitVec 8

namespace RegisterMemory

/-- `ArrayView<T>`: the element of so many bytes at an index. -/
def get (bytes : Nat) (mem : RegisterMemory) (index : Nat) : BitVec (8 * bytes) :=
  BitVec.ofNat _ (Clover.littleEndian ((List.range bytes).map fun byte => mem (bytes * index + byte)))

def set (bytes : Nat) (mem : RegisterMemory) (index : Nat) (value : BitVec (8 * bytes)) :
    RegisterMemory :=
  fun address => if address / bytes = index then Clover.byteOf (address % bytes) value else mem address

/-- `memcpy` into the range. -/
def write (mem : RegisterMemory) (offset : Nat) (src : List (BitVec 8)) : RegisterMemory :=
  fun address =>
    if offset ≤ address ∧ address < offset + src.length then src.getD (address - offset) 0
    else mem address

/-- `memcpy` out of the range. -/
def read (mem : RegisterMemory) (offset count : Nat) : List (BitVec 8) :=
  (List.range count).map fun byte => mem (offset + byte)

theorem byteOf_get (bytes : Nat) (mem : RegisterMemory) (index byte : Nat) (inside : byte < bytes) :
    Clover.byteOf byte (mem.get bytes index) = mem (bytes * index + byte) := by
  rw [get, Clover.byteOf_littleEndian _ byte (by simpa using inside) (by simp)]
  simp

theorem get_set_self (bytes : Nat) (mem : RegisterMemory) (index : Nat)
    (value : BitVec (8 * bytes)) : (mem.set bytes index value).get bytes index = value := by
  apply Clover.eq_of_byteOf_eq
  intro byte inside
  have positive : 0 < bytes := by omega
  rw [byteOf_get _ _ _ _ inside, set, if_pos]
  · rw [Nat.mul_add_mod, Nat.mod_eq_of_lt inside]
  · rw [Nat.mul_add_div positive, Nat.div_eq_of_lt inside, Nat.add_zero]

theorem get_set_of_ne (bytes : Nat) {index other : Nat} (different : other ≠ index)
    (mem : RegisterMemory) (value : BitVec (8 * bytes)) :
    (mem.set bytes index value).get bytes other = mem.get bytes other := by
  apply Clover.eq_of_byteOf_eq
  intro byte inside
  have positive : 0 < bytes := by omega
  rw [byteOf_get _ _ _ _ inside, byteOf_get _ _ _ _ inside, set, if_neg]
  rw [Nat.mul_add_div positive, Nat.div_eq_of_lt inside, Nat.add_zero]
  exact different

/-- An element is the number its bytes stand for. -/
theorem toNat_get (bytes : Nat) (mem : RegisterMemory) (index : Nat) :
    (mem.get bytes index).toNat = Clover.littleEndian (mem.read (bytes * index) bytes) := by
  have bound := Clover.littleEndian_lt (mem.read (bytes * index) bytes)
  rw [read, List.length_map, List.length_range] at bound
  rw [get, BitVec.toNat_ofNat]
  exact Nat.mod_eq_of_lt bound

/-- An element a write does not reach keeps its value. -/
theorem get_write_of_disjoint {bytes : Nat} {mem : RegisterMemory} {index offset : Nat}
    {src : List (BitVec 8)}
    (apart : bytes * index + bytes ≤ offset ∨ offset + src.length ≤ bytes * index) :
    (mem.write offset src).get bytes index = mem.get bytes index := by
  apply Clover.eq_of_byteOf_eq
  intro byte inside
  rw [byteOf_get _ _ _ _ inside, byteOf_get _ _ _ _ inside, write, if_neg]
  omega

/-- Where two memories have the same element they have the same after the same write. -/
theorem get_write_congr {bytes : Nat} {mem other : RegisterMemory} {index : Nat}
    (same : mem.get bytes index = other.get bytes index) (offset : Nat) (src : List (BitVec 8)) :
    (mem.write offset src).get bytes index = (other.write offset src).get bytes index := by
  apply Clover.eq_of_byteOf_eq
  intro byte inside
  have kept : mem (bytes * index + byte) = other (bytes * index + byte) := by
    rw [← byteOf_get bytes mem index byte inside, same, byteOf_get _ _ _ _ inside]
  rw [byteOf_get _ _ _ _ inside, byteOf_get _ _ _ _ inside, write, write, kept]

end RegisterMemory

/-- An access to the bus. -/
inductive BusAccess
  | read (address count : Nat)
  | write (address : Nat) (data : List (BitVec 8))
  deriving DecidableEq, Repr

def BusAccess.address : BusAccess → Nat
  | .read address _ => address
  | .write address _ => address

/-- A range of a device with states `σ`. The callbacks get the local address and the length;
the one in front of a read always lets the read go on. -/
structure RegisterRange (σ ω : Type) where
  start : Nat
  size : Nat
  readonly : Bool
  alignment : Nat
  mem : σ → RegisterMemory
  put : RegisterMemory → σ → σ
  preRead : Nat → Nat → Exec RegisterFault σ ω Unit
  postWrite : Nat → Nat → Exec RegisterFault σ ω Unit

namespace RegisterRange

variable {σ ω : Type}

def contains (range : RegisterRange σ ω) (address : Nat) : Bool :=
  range.start ≤ address && address ≤ range.start + range.size - 1

theorem contains_iff {range : RegisterRange σ ω} {address : Nat} :
    range.contains address = true ↔
      range.start ≤ address ∧ address ≤ range.start + range.size - 1 := by
  simp [contains]

def toLocal (range : RegisterRange σ ω) (address : Nat) : Nat := address - range.start

/-- The two assertions of `read` and `write`. -/
def check (range : RegisterRange σ ω) (address len : Nat) : Exec RegisterFault σ ω Unit := do
  Exec.require (range.contains address = true) (.assertion "contains(addr)")
  Exec.require (range.toLocal address + len ≤ range.size)
    (.assertion "local_addr + len <= mem.size()")

def write (range : RegisterRange σ ω) (address : Nat) (src : List (BitVec 8)) :
    Exec RegisterFault σ ω Unit := do
  range.check address src.length
  Exec.modify fun state => range.put ((range.mem state).write (range.toLocal address) src) state
  range.postWrite (range.toLocal address) src.length

def read (range : RegisterRange σ ω) (address len : Nat) :
    Exec RegisterFault σ ω (List (BitVec 8)) := do
  range.check address len
  range.preRead (range.toLocal address) len
  let state ← Exec.get
  pure ((range.mem state).read (range.toLocal address) len)

def process (range : RegisterRange σ ω) : BusAccess → Exec RegisterFault σ ω (List (BitVec 8))
  | .read address len => do
      Exec.require (address % range.alignment = 0 ∧ len % range.alignment = 0) .runtimeAssertion
      range.read address len
  | .write address src => do
      Exec.require (address % range.alignment = 0 ∧ src.length % range.alignment = 0)
        .runtimeAssertion
      Exec.require (range.readonly = false) .runtimeAssertion
      range.write address src
      pure src

end RegisterRange

/-- `vp::mm::route`. -/
def route {σ ω : Type} (name : String) (ranges : List (RegisterRange σ ω)) (access : BusAccess) :
    Exec RegisterFault σ ω (List (BitVec 8)) :=
  match ranges.find? (·.contains access.address) with
  | none => Exec.throw (.unroutable name access.address)
  | some range => range.process access

/-! ## Accesses that return -/

section Returns

open Exec

variable {σ ω : Type} {range : RegisterRange σ ω} {state last : σ} {log : List ω}

theorem RegisterRange.returns_check_iff {address len : Nat} {value : Unit} :
    Returns (range.check address len) state value last log ↔
      (range.contains address = true ∧ range.toLocal address + len ≤ range.size) ∧
        state = last ∧ [] = log := by
  simp only [RegisterRange.check, returns_bind_iff, returns_require_iff]
  constructor
  · rintro ⟨_, _, _, _, ⟨inside, rfl, rfl⟩, ⟨fits, rfl, rfl⟩, rfl⟩
    exact ⟨⟨inside, fits⟩, rfl, rfl⟩
  · rintro ⟨⟨inside, fits⟩, rfl, rfl⟩
    exact ⟨(), _, _, _, ⟨inside, rfl, rfl⟩, ⟨fits, rfl, rfl⟩, rfl⟩

/-- A read returns what the range holds after the callback. -/
theorem RegisterRange.returns_read_iff {address len : Nat} {data : List (BitVec 8)} :
    Returns (range.process (.read address len)) state data last log ↔
      (address % range.alignment = 0 ∧ len % range.alignment = 0) ∧
        (range.contains address = true ∧ range.toLocal address + len ≤ range.size) ∧
        Returns (range.preRead (range.toLocal address) len) state () last log ∧
        (range.mem last).read (range.toLocal address) len = data := by
  simp only [RegisterRange.process, RegisterRange.read, returns_bind_iff, returns_require_iff,
    RegisterRange.returns_check_iff, returns_get_iff, returns_pure_iff]
  constructor
  · rintro ⟨_, _, _, _, ⟨aligned, rfl, rfl⟩, ⟨_, _, _, _, ⟨inside, rfl, rfl⟩,
      ⟨_, _, _, _, called, ⟨_, _, _, _, ⟨rfl, rfl, rfl⟩, ⟨rfl, rfl, rfl⟩, rfl⟩, rfl⟩, rfl⟩, rfl⟩
    exact ⟨aligned, inside, by simpa using called, rfl⟩
  · rintro ⟨aligned, inside, called, rfl⟩
    exact ⟨(), _, [], log, ⟨aligned, rfl, rfl⟩, ⟨(), _, [], log, ⟨inside, rfl, rfl⟩,
      ⟨(), _, log, [], called, ⟨_, _, [], [], ⟨rfl, rfl, rfl⟩, ⟨rfl, rfl, rfl⟩, rfl⟩,
        List.append_nil log⟩, rfl⟩, rfl⟩

/-- A write stores its data and calls back. -/
theorem RegisterRange.returns_write_iff {address : Nat} {src data : List (BitVec 8)} :
    Returns (range.process (.write address src)) state data last log ↔
      ((address % range.alignment = 0 ∧ src.length % range.alignment = 0) ∧
          range.readonly = false) ∧
        (range.contains address = true ∧ range.toLocal address + src.length ≤ range.size) ∧
        Returns (range.postWrite (range.toLocal address) src.length)
          (range.put ((range.mem state).write (range.toLocal address) src) state) () last log ∧
        src = data := by
  simp only [RegisterRange.process, RegisterRange.write, returns_bind_iff, returns_require_iff,
    RegisterRange.returns_check_iff, returns_modify_iff, returns_pure_iff]
  constructor
  · rintro ⟨_, _, _, _, ⟨aligned, rfl, rfl⟩, ⟨_, _, _, _, ⟨writable, rfl, rfl⟩,
      ⟨_, _, _, _, ⟨_, _, _, _, ⟨inside, rfl, rfl⟩, ⟨_, _, _, _, ⟨rfl, rfl⟩, called, rfl⟩, rfl⟩,
        ⟨rfl, rfl, rfl⟩, rfl⟩, rfl⟩, rfl⟩
    exact ⟨⟨aligned, writable⟩, inside, by simpa using called, rfl⟩
  · rintro ⟨⟨aligned, writable⟩, inside, called, rfl⟩
    exact ⟨(), _, [], log, ⟨aligned, rfl, rfl⟩, ⟨(), _, [], log, ⟨writable, rfl, rfl⟩,
      ⟨(), _, log, [], ⟨(), _, [], log, ⟨inside, rfl, rfl⟩, ⟨(), _, [], log, ⟨rfl, rfl⟩, called,
        rfl⟩, rfl⟩, ⟨rfl, rfl, rfl⟩, List.append_nil log⟩, rfl⟩, rfl⟩

theorem returns_route_iff {name : String} {ranges : List (RegisterRange σ ω)} {access : BusAccess}
    {data : List (BitVec 8)} : Returns (route name ranges access) state data last log ↔
      ∃ range, ranges.find? (·.contains access.address) = some range ∧
        Returns (range.process access) state data last log := by
  unfold route
  split
  case h_1 none => simp [none, returns_throw_iff]
  case h_2 range found => simp [found]

end Returns

end SymexVP
