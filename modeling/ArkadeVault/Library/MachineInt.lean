import Mathlib

/-!
# Machine integers read as numbers

The conditions under which arithmetic on machine integers is arithmetic on the numbers they denote.
-/

set_option autoImplicit false
set_option relaxedAutoImplicit false

namespace ArkadeVault.Library

/-- A signed sum that does not wrap. -/
theorem Int64.toInt_add_of_bounds {a b : Int64} (hlow : -2 ^ 63 ≤ a.toInt + b.toInt)
    (hhigh : a.toInt + b.toInt < 2 ^ 63) : (a + b).toInt = a.toInt + b.toInt := by
  rw [Int64.toInt_add, Int.bmod_eq_of_le (by omega) (by omega)]

/-- A signed difference that does not wrap. -/
theorem Int64.toInt_sub_of_bounds {a b : Int64} (hlow : -2 ^ 63 ≤ a.toInt - b.toInt)
    (hhigh : a.toInt - b.toInt < 2 ^ 63) : (a - b).toInt = a.toInt - b.toInt := by
  rw [Int64.toInt_sub, Int.bmod_eq_of_le (by omega) (by omega)]

/-- The successor of a 32-bit word below some other word does not wrap. -/
theorem Int32.toInt_succ_of_lt {a b : Int32} (hlt : a < b) : (a + 1).toInt = a.toInt + 1 := by
  have hb := b.toInt_lt
  have ha := a.le_toInt
  have hone : (1 : Int32).toInt = 1 := rfl
  rw [Int32.lt_iff_toInt_lt] at hlt
  rw [Int32.toInt_add, hone, Int.bmod_eq_of_le (by omega) (by omega)]

/-- A nonnegative signed word and its unsigned reading are one number. -/
theorem Int64.toNat_toUInt64_of_nonneg {x : Int64} (hnonneg : 0 ≤ x.toInt) :
    (x.toUInt64.toNat : Int) = x.toInt := by
  have hbits : x.toInt = x.toUInt64.toBitVec.toInt := rfl
  have hnat : x.toUInt64.toNat = x.toUInt64.toBitVec.toNat := rfl
  have hbound := x.toUInt64.toBitVec.isLt
  rw [hbits, BitVec.toInt_eq_toNat_cond] at hnonneg ⊢
  rw [hnat]
  split at hnonneg
  · rw [if_pos (by assumption)]
  · omega

theorem Int64.toUInt64_injective {x y : Int64} (hword : x.toUInt64 = y.toUInt64) : x = y := by
  cases x
  cases y
  exact congrArg Int64.ofUInt64 hword

/-- An unsigned sum that does not wrap. -/
theorem UInt64.toNat_add_of_room {a b : UInt64} (hroom : ¬ 0xffffffffffffffff - a < b) :
    (a + b).toNat = a.toNat + b.toNat := by
  have ha := a.toNat_lt
  have hle : a ≤ 0xffffffffffffffff := by
    rw [UInt64.le_iff_toNat_le]
    show a.toNat ≤ 2 ^ 64 - 1
    omega
  rw [UInt64.lt_iff_toNat_lt, UInt64.toNat_sub_of_le _ _ hle] at hroom
  have hmax : (0xffffffffffffffff : UInt64).toNat = 2 ^ 64 - 1 := rfl
  rw [UInt64.toNat_add, Nat.mod_eq_of_lt (by omega)]

end ArkadeVault.Library
