import SymexVP.BitFields
import SymexVP.CanController

/-!
# The identifiers of CAN frames

An identifier is kept in four bytes of a buffer. A standard one has eleven bits; an
extended one has 29, and the bit that tells the two apart lies between its parts. The
second byte holds parts of both kinds of identifier and is read apart from the others.
-/

namespace SymexVP.Can

open BitFields (setWidth_injective)

/-! ## The second byte -/

/-- The second byte of an extended identifier, from the bits above the lower sixteen. -/
def extendedSidl (upper : BitVec 16) : Byte :=
  ((upper &&& 0x03).setWidth 8 + ((upper &&& 0x1C) <<< 3).setWidth 8) ||| MCP_TXB_EXIDE_M

/-- It depends on five bits only. -/
theorem extendedSidl_setWidth (upper : BitVec 16) :
    extendedSidl upper = extendedSidl ((upper.setWidth 5).setWidth 16) := by
  have two : upper &&& 0x03 = (upper.setWidth 5).setWidth 16 &&& 0x03 := by
    apply BitVec.eq_of_getLsbD_eq
    intro index inside
    interval_cases index <;> simp
  have three : upper &&& 0x1C = (upper.setWidth 5).setWidth 16 &&& 0x1C := by
    apply BitVec.eq_of_getLsbD_eq
    intro index inside
    interval_cases index <;> simp
  rw [extendedSidl, extendedSidl, two, three]

/-- Two bits and three bits, around the one that marks the identifier as extended. -/
theorem toNat_extendedSidl (upper : BitVec 16) :
    (extendedSidl upper).toNat = 32 * (upper.toNat / 4 % 8) + 8 + upper.toNat % 4 ∧
      extendedSidl upper &&& MCP_TXB_EXIDE_M = MCP_TXB_EXIDE_M := by
  have low : (upper.setWidth 5).toNat = upper.toNat % 32 := BitVec.toNat_setWidth 5 upper
  have parts : ∀ five : BitVec 5,
      (extendedSidl (five.setWidth 16)).toNat = 32 * (five.toNat / 4) + 8 + five.toNat % 4 ∧
        extendedSidl (five.setWidth 16) &&& MCP_TXB_EXIDE_M = MCP_TXB_EXIDE_M := by
    decide
  rw [extendedSidl_setWidth]
  obtain ⟨value, marked⟩ := parts (upper.setWidth 5)
  refine ⟨?_, marked⟩
  rw [value, low]
  omega

/-- The second byte of a standard identifier holds three bits. -/
theorem toNat_standardSidl (canid : BitVec 16) :
    (((canid &&& 0x07) <<< 5).setWidth 8).toNat = 32 * (canid.toNat % 8) ∧
      ((canid &&& 0x07) <<< 5).setWidth 8 &&& MCP_TXB_EXIDE_M ≠ MCP_TXB_EXIDE_M := by
  have low : canid &&& 0x07 = (canid.setWidth 3).setWidth 16 := by
    apply BitVec.eq_of_getLsbD_eq
    intro index inside
    interval_cases index <;> simp
  have value : (canid.setWidth 3).toNat = canid.toNat % 8 := BitVec.toNat_setWidth 3 canid
  have part : ∀ three : BitVec 3,
      ((((three.setWidth 16 : BitVec 16)) <<< 5).setWidth 8 : Byte).toNat = 32 * three.toNat ∧
        (((three.setWidth 16 : BitVec 16)) <<< 5).setWidth 8 &&& MCP_TXB_EXIDE_M ≠
          MCP_TXB_EXIDE_M := by
    decide
  rw [low, ← value]
  exact part _

/-! ## Reading -/

section Reading

variable {sidh sidl eid8 eid0 : Byte}

theorem bufToId_of_unmarked (unmarked : sidl &&& MCP_TXB_EXIDE_M ≠ MCP_TXB_EXIDE_M) :
    (mcp2515BufToId #v[sidh, sidl, eid8, eid0]).1.toNat = 8 * sidh.toNat + sidl.toNat / 32 ∧
      (mcp2515BufToId #v[sidh, sidl, eid8, eid0]).2 = false := by
  have read : mcp2515BufToId #v[sidh, sidl, eid8, eid0] =
      ((sidh.setWidth 32 <<< 3) + (sidl.setWidth 32 >>> 5), false) := if_neg unmarked
  have high := sidh.isLt
  have low := sidl.isLt
  rw [read]
  simp only [BitVec.toNat_add, BitVec.toNat_shiftLeft, BitVec.toNat_ushiftRight,
    BitVec.toNat_setWidth, Nat.shiftLeft_eq, Nat.shiftRight_eq_div_pow, and_true]
  omega

theorem bufToId_of_marked (marked : sidl &&& MCP_TXB_EXIDE_M = MCP_TXB_EXIDE_M) :
    (mcp2515BufToId #v[sidh, sidl, eid8, eid0]).1.toNat =
        65536 * (4 * (8 * sidh.toNat + sidl.toNat / 32) + sidl.toNat % 4) + 256 * eid8.toNat +
          eid0.toNat ∧
      (mcp2515BufToId #v[sidh, sidl, eid8, eid0]).2 = true := by
  have read : mcp2515BufToId #v[sidh, sidl, eid8, eid0] =
      ((((((((sidh.setWidth 32 <<< 3) + (sidl.setWidth 32 >>> 5)) <<< 2) +
        (sidl.setWidth 32 &&& 0x03)) <<< 8) + eid8.setWidth 32) <<< 8) + eid0.setWidth 32, true) :=
    if_pos marked
  have two : (sidl.setWidth 32 &&& (0x03 : BitVec 32)).toNat = sidl.toNat % 4 := by
    rw [BitVec.toNat_and, BitVec.toNat_setWidth_of_le (by decide)]
    exact Nat.and_two_pow_sub_one_eq_mod _ 2
  have first := sidh.isLt
  have second := sidl.isLt
  have third := eid8.isLt
  have fourth := eid0.isLt
  rw [read]
  simp only [BitVec.toNat_add, BitVec.toNat_shiftLeft, BitVec.toNat_ushiftRight, two,
    BitVec.toNat_setWidth, Nat.shiftLeft_eq, Nat.shiftRight_eq_div_pow, and_true]
  omega

end Reading

/-! ## Round trips -/

theorem bufToId_standard (id : BitVec 11) :
    mcp2515BufToId (mcp2515IdToBuf (id.setWidth 64) false) = (id.setWidth 32, false) := by
  have bound := id.isLt
  obtain ⟨second, unmarked⟩ := toNat_standardSidl ((id.setWidth 64).setWidth 16)
  obtain ⟨value, kind⟩ := @bufToId_of_unmarked
    ((((id.setWidth 64).setWidth 16 : BitVec 16) >>> 3).setWidth 8) _ 0 0 unmarked
  refine Prod.ext (BitVec.eq_of_toNat_eq (value.trans ?_)) kind
  rw [second]
  simp only [BitVec.toNat_ushiftRight, BitVec.toNat_setWidth, Nat.shiftRight_eq_div_pow]
  omega

theorem bufToId_extended (id : BitVec 29) :
    mcp2515BufToId (mcp2515IdToBuf (id.setWidth 64) true) = (id.setWidth 32, true) := by
  have bound := id.isLt
  obtain ⟨second, marked⟩ := toNat_extendedSidl ((id.setWidth 64 >>> 16).setWidth 16)
  obtain ⟨value, kind⟩ := @bufToId_of_marked
    (((id.setWidth 64 >>> 16).setWidth 16 >>> 5).setWidth 8) _
    (((id.setWidth 64).setWidth 16 >>> 8).setWidth 8)
    (((id.setWidth 64).setWidth 16 &&& 0xFF).setWidth 8) marked
  have last : ((id.setWidth 64).setWidth 16 &&& (0xFF : BitVec 16)).toNat = id.toNat % 256 := by
    rw [BitVec.toNat_and, BitVec.toNat_setWidth, BitVec.toNat_setWidth]
    refine (Nat.and_two_pow_sub_one_eq_mod _ 8).trans ?_
    omega
  refine Prod.ext (BitVec.eq_of_toNat_eq (value.trans ?_)) kind
  rw [second]
  simp only [BitVec.toNat_ushiftRight, BitVec.toNat_setWidth, Nat.shiftRight_eq_div_pow, last]
  omega

/-! ## Identifiers -/

/-- An identifier of one of the two lengths. -/
inductive Identifier
  | standard (id : BitVec 11)
  | extended (id : BitVec 29)

namespace Identifier

/-- The number of the identifier, and whether it is an extended one. -/
def value : Identifier → BitVec 32 × Bool
  | standard id => (id.setWidth 32, false)
  | extended id => (id.setWidth 32, true)

/-- The bytes that `mcp2515_id_to_buf` writes. -/
def buffer : Identifier → Vector Byte 4
  | standard id => mcp2515IdToBuf (id.setWidth 64) false
  | extended id => mcp2515IdToBuf (id.setWidth 64) true

theorem value_injective : Function.Injective value := by
  intro first second same
  cases first with
  | standard id =>
      cases second with
      | standard other =>
          exact congrArg standard (setWidth_injective (by decide) (Prod.ext_iff.mp same).1)
      | extended other => cases (Prod.ext_iff.mp same).2
  | extended id =>
      cases second with
      | standard other => cases (Prod.ext_iff.mp same).2
      | extended other =>
          exact congrArg extended (setWidth_injective (by decide) (Prod.ext_iff.mp same).1)

/-- What is read is what has been written, so that no two identifiers have the same bytes. -/
theorem bufToId_buffer :
    (∀ identifier : Identifier, mcp2515BufToId identifier.buffer = identifier.value) ∧
      Function.Injective buffer := by
  have read : ∀ identifier : Identifier, mcp2515BufToId identifier.buffer = identifier.value := by
    intro identifier
    cases identifier with
    | standard id => exact bufToId_standard id
    | extended id => exact bufToId_extended id
  refine ⟨read, fun first second same => value_injective ?_⟩
  rw [← read, ← read, same]

end Identifier

end SymexVP.Can
