import Mathlib.Algebra.Order.Ring.Nat
import Mathlib.Data.List.Induction
import WebToken.Octets

/-! Octets and numbers. A number comes back from its octets if these are as many as it takes, and
octets are the form of their number at their own length. -/

namespace WebToken.Octets

theorem toNat_append_singleton (octets : Octets) (octet : UInt8) :
    toNat (octets ++ [octet]) = toNat octets * 256 + octet.toNat := by
  rw [toNat, List.foldl_append]
  rfl

theorem toNat_append (left right : Octets) :
    toNat (left ++ right) = toNat left * 256 ^ right.length + toNat right := by
  induction right using List.reverseRecOn with
  | nil =>
      rw [List.append_nil, List.length_nil, pow_zero, Nat.mul_one]
      rfl
  | append_singleton right octet ih =>
      rw [← List.append_assoc, toNat_append_singleton, toNat_append_singleton, ih,
        List.length_append, List.length_singleton, pow_succ, Nat.add_mul, Nat.mul_assoc,
        Nat.add_assoc]

/-- Zeros in front of octets leave their number as it is. -/
theorem toNat_replicate_append (zeros : Nat) (octets : Octets) :
    toNat (List.replicate zeros 0 ++ octets) = toNat octets := by
  have hzero : toNat (List.replicate zeros 0) = 0 := by
    induction zeros with
    | zero => rfl
    | succ zeros ih => exact ih
  rw [toNat_append, hzero, Nat.zero_mul, Nat.zero_add]

theorem ofNat_toNat (octets : Octets) : ofNat octets.length (toNat octets) = octets := by
  induction octets using List.reverseRecOn with
  | nil => rfl
  | append_singleton octets octet ih =>
      have hlt := octet.toNat_lt
      have hfront : (toNat octets * 256 + octet.toNat) / 256 = toNat octets := by omega
      have hlast : UInt8.ofNat (toNat octets * 256 + octet.toNat) = octet := by
        apply UInt8.toNat_inj.mp
        rw [UInt8.toNat_ofNat']
        omega
      rw [List.length_append, List.length_singleton, ofNat, toNat_append_singleton, hfront, ih,
        hlast]

theorem toNat_ofNat (width value : Nat) : toNat (ofNat width value) = value % 256 ^ width := by
  induction width generalizing value with
  | zero =>
      rw [pow_zero, Nat.mod_one]
      rfl
  | succ width ih =>
      have hlast : (UInt8.ofNat value).toNat = value % 256 := UInt8.toNat_ofNat'
      rw [ofNat, toNat_append_singleton, ih, hlast, pow_succ', Nat.mod_mul, Nat.mul_comm,
        Nat.add_comm]

theorem toNat_lt (octets : Octets) : toNat octets < 256 ^ octets.length := by
  induction octets using List.reverseRecOn with
  | nil => exact Nat.one_pos
  | append_singleton octets octet ih =>
      have hlast := octet.toNat_lt
      rw [toNat_append_singleton, List.length_append, List.length_singleton, pow_succ]
      omega

/-! ### Sizes -/

theorem lt_two_pow_bitLength (value : Nat) : value < 2 ^ bitLength value := by
  rw [bitLength]
  split
  · rename_i hzero
    rw [hzero]
    decide
  · exact Nat.lt_log2_self

theorem bitLength_le (value : Nat) : bitLength value ≤ 8 * byteLength value := by
  rw [byteLength]
  omega

theorem lt_pow_byteLength (value : Nat) : value < 256 ^ byteLength value := by
  calc value < 2 ^ bitLength value := lt_two_pow_bitLength value
    _ ≤ 2 ^ (8 * byteLength value) := Nat.pow_le_pow_right (by decide) (bitLength_le value)
    _ = 256 ^ byteLength value := pow_mul 2 8 _

/-- The first octet that a number takes is not zero. -/
theorem pow_le_of_byteLength {value size : Nat} (h : byteLength value = size + 1) :
    256 ^ size ≤ value := by
  have hbits : 8 * size < bitLength value := by
    rw [byteLength] at h
    omega
  have hpos : value ≠ 0 := by
    rintro rfl
    rw [bitLength, if_pos rfl] at hbits
    omega
  calc 256 ^ size = 2 ^ (8 * size) := (pow_mul 2 8 size).symm
    _ ≤ 2 ^ value.log2 := by
        apply Nat.pow_le_pow_right Nat.two_pos
        rw [bitLength, if_neg hpos] at hbits
        omega
    _ ≤ value := Nat.log2_self_le hpos

end WebToken.Octets
