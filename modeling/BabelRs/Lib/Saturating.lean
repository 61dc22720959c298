import Mathlib.Algebra.GroupWithZero.Nat
import Mathlib.Order.Lattice
import Mathlib.Tactic.Common

/-!
# Saturating machine arithmetic

Rust's `saturating_add`, `saturating_sub` and `saturating_mul` on `u64` and `u16`
as clamped natural-number arithmetic.
-/

set_option autoImplicit false

namespace BabelRs.Lib

def u64Max : Nat := 2 ^ 64 - 1

def satAdd (a b : UInt64) : UInt64 := UInt64.ofNat (min (a.toNat + b.toNat) u64Max)

def satSub (a b : UInt64) : UInt64 := UInt64.ofNat (a.toNat - b.toNat)

def satMul (a b : UInt64) : UInt64 := UInt64.ofNat (min (a.toNat * b.toNat) u64Max)

def satMul16 (a b : UInt16) : UInt16 := UInt16.ofNat (min (a.toNat * b.toNat) 0xffff)

variable (a b : UInt64)

theorem toNat_satAdd : (satAdd a b).toNat = min (a.toNat + b.toNat) u64Max := by
  have small : min (a.toNat + b.toNat) u64Max < 2 ^ 64 := by
    have bound := min_le_right (a.toNat + b.toNat) u64Max
    simp only [u64Max] at bound ⊢
    omega
  rw [satAdd, UInt64.toNat_ofNat', Nat.mod_eq_of_lt small]

theorem toNat_satSub : (satSub a b).toNat = a.toNat - b.toNat := by
  have bound := a.toNat_lt
  rw [satSub, UInt64.toNat_ofNat', Nat.mod_eq_of_lt (by omega)]

theorem toNat_le_u64Max : a.toNat ≤ u64Max := by
  have bound := a.toNat_lt
  simp only [u64Max]
  omega

theorem toNat_max : (max a b).toNat = max a.toNat b.toNat := by
  change (if a ≤ b then b else a).toNat = _
  split_ifs with below
  · exact (max_eq_right below).symm
  · rw [UInt64.le_iff_toNat_le] at below
    exact (max_eq_left (by omega)).symm

theorem toNat_min : (min a b).toNat = min a.toNat b.toNat := by
  change (if a ≤ b then a else b).toNat = _
  split_ifs with below
  · exact (min_eq_left below).symm
  · rw [UInt64.le_iff_toNat_le] at below
    exact (min_eq_right (by omega)).symm

theorem left_le_max : a ≤ max a b := by
  rw [UInt64.le_iff_toNat_le, toNat_max]
  exact le_max_left _ _

theorem right_le_max : b ≤ max a b := by
  rw [UInt64.le_iff_toNat_le, toNat_max]
  exact le_max_right _ _

theorem le_satAdd : a ≤ satAdd a b := by
  rw [UInt64.le_iff_toNat_le, toNat_satAdd]
  exact le_min (Nat.le_add_right _ _) (toNat_le_u64Max a)

end BabelRs.Lib
