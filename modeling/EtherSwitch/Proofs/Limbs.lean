import EtherSwitch.Register.Address
import EtherSwitch.Word
import Mathlib.Data.Nat.Digits.Defs

/-! Words and their limbs as numbers. To truncate a value is to take it modulo a power of two, its limbs are the
    digits of the value, and a word made of limbs is the number with those digits
    (`Word.limbs_eq_digits`, `Word.ofLimbs_eq_ofDigits`). -/

namespace EtherSwitch

theorem Width.truncate_eq_mod (w : Width) (value : BitVec 64) :
    w.truncate value = BitVec.ofNat 64 (value.toNat % 2 ^ w.bits) := by
  apply BitVec.eq_of_toNat_eq
  rw [truncate_eq_setWidth, BitVec.toNat_setWidth, BitVec.toNat_setWidth, BitVec.toNat_ofNat]

theorem Word.ofLimbs_eq_ofDigits {w : Nat} (digits : List (BitVec w)) :
    ofLimbs digits = BitVec.ofNat 64 (Nat.ofDigits (2 ^ w) (digits.map BitVec.toNat)) := by
  induction digits with
  | nil => rfl
  | cons d digits ih =>
    apply BitVec.eq_of_getLsbD_eq
    intro i hi
    rw [ofLimbs_cons, ih, List.map_cons, Nat.ofDigits_cons, Nat.add_comm, BitVec.getLsbD_or,
      BitVec.getLsbD_shiftLeft,
      BitVec.getLsbD_setWidth, BitVec.getLsbD_ofNat, BitVec.getLsbD_ofNat, Nat.testBit_two_pow_mul_add _ d.isLt]
    by_cases hw : i < w
    · simp [hi, hw, BitVec.testBit_toNat]
    · simp [hi, hw, show i - w < 64 by omega, BitVec.getLsbD_of_ge d i (by omega)]

theorem Word.limbs_eq_digits (w n : Nat) (value : BitVec 64) :
    limbs w n value = (List.range n).map fun i => BitVec.ofNat w (value.toNat / 2 ^ (w * i)) := by
  refine List.map_congr_left fun i _ => BitVec.eq_of_toNat_eq ?_
  rw [BitVec.extractLsb'_toNat, BitVec.toNat_ofNat, Nat.shiftRight_eq_div_pow]

theorem Width.toNat_truncate (w : Width) (value : BitVec 64) :
    (w.truncate value).toNat = value.toNat % 2 ^ w.bits := by
  rw [truncate_eq_mod, BitVec.toNat_ofNat]
  exact Nat.mod_eq_of_lt (Nat.lt_of_le_of_lt (Nat.mod_le _ _) value.isLt)

theorem Width.truncate_ofNat (w : Width) (n : Nat) :
    w.truncate (BitVec.ofNat 64 n) = BitVec.ofNat 64 (n % 2 ^ w.bits) := by
  rw [truncate_eq_mod, BitVec.toNat_ofNat, Nat.mod_mod_of_dvd _ (Nat.pow_dvd_pow 2 w.bits_le)]

theorem Word.limbs_truncate (w : Width) {k n : Nat} (h : k * n ≤ w.bits) (value : BitVec 64) :
    limbs k n (w.truncate value) = limbs k n value := by
  refine List.map_congr_left fun i hi => BitVec.eq_of_getLsbD_eq fun j hj => ?_
  have hle : k * (i + 1) ≤ k * n := Nat.mul_le_mul_left k (List.mem_range.mp hi)
  rw [Nat.mul_succ] at hle
  rw [BitVec.getLsbD_extractLsb', BitVec.getLsbD_extractLsb', Width.getLsbD_truncate]
  simp [show k * i + j < w.bits by omega]

/-- The limbs of a number of the given width, each with its place. -/
theorem Word.zipIdx_limbs_truncate (k n : Nat) (w : Width) (value : BitVec 64) :
    (limbs k n (w.truncate value)).zipIdx =
      (List.range n).map fun i => (BitVec.ofNat k (value.toNat % 2 ^ w.bits / 2 ^ (k * i)), i) := by
  rw [limbs_eq_digits, Width.toNat_truncate]
  apply List.ext_getElem <;> simp

end EtherSwitch
