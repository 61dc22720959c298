import Mathlib.Algebra.Order.Group.Nat
import Mathlib.Data.List.Basic
import Mathlib.Data.List.Induction

/-!
# Big-endian octets

Rust's `to_be_bytes` and `from_be_bytes` on octet lists of any width.
-/

set_option autoImplicit false

namespace BabelRs.Lib

def toBe : Nat → Nat → List UInt8
  | 0, _ => []
  | width + 1, value => toBe width (value / 256) ++ [UInt8.ofNat value]

def ofBe (bytes : List UInt8) : Nat := bytes.foldl (fun value byte => value * 256 + byte.toNat) 0

@[simp] theorem length_toBe (width value : Nat) : (toBe width value).length = width := by
  induction width generalizing value with
  | zero => rfl
  | succ width ih => simp [toBe, ih]

@[simp] theorem ofBe_nil : ofBe [] = 0 := rfl

theorem ofBe_concat (bytes : List UInt8) (byte : UInt8) :
    ofBe (bytes ++ [byte]) = ofBe bytes * 256 + byte.toNat := by
  simp [ofBe, List.foldl_append]

theorem ofBe_toBe (width value : Nat) : ofBe (toBe width value) = value % 256 ^ width := by
  induction width generalizing value with
  | zero => simp [toBe, Nat.mod_one]
  | succ width ih =>
    have low : (UInt8.ofNat value).toNat = value % 256 := UInt8.toNat_ofNat'
    rw [toBe, ofBe_concat, ih, low, Nat.pow_succ, Nat.mul_comm (256 ^ width), Nat.mod_mul]
    omega

theorem ofBe_toBe_of_lt {width value : Nat} (small : value < 256 ^ width) :
    ofBe (toBe width value) = value := by
  rw [ofBe_toBe, Nat.mod_eq_of_lt small]

theorem toBe_ofBe (bytes : List UInt8) : toBe bytes.length (ofBe bytes) = bytes := by
  induction bytes using List.reverseRecOn with
  | nil => rfl
  | append_singleton front last ih =>
    have bound := last.toNat_lt
    have high : (ofBe front * 256 + last.toNat) / 256 = ofBe front := by omega
    have low : UInt8.ofNat (ofBe front * 256 + last.toNat) = last := by
      apply UInt8.toNat_inj.mp
      rw [UInt8.toNat_ofNat']
      omega
    rw [List.length_append, List.length_singleton, toBe, ofBe_concat, high, low, ih]

end BabelRs.Lib
