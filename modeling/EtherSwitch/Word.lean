/-! A 64-bit word as limbs, least significant first. A bus moves a register value in limbs of 8 or 16
    bits; `ofLimbs_limbs` says that the limbs hold the value up to their common width. -/

namespace EtherSwitch.Word

/-- The `n` lowest limbs of `w` bits each, least significant first. -/
def limbs (w n : Nat) (value : BitVec 64) : List (BitVec w) :=
  (List.range n).map fun i => value.extractLsb' (w * i) w

/-- The word with the given limbs, least significant first. -/
def ofLimbs {w : Nat} (digits : List (BitVec w)) : BitVec 64 :=
  digits.foldr (fun digit high => high <<< w ||| digit.setWidth 64) 0

@[simp] theorem length_limbs (w n : Nat) (value : BitVec 64) : (limbs w n value).length = n := by
  simp [limbs]

@[simp] theorem ofLimbs_nil {w : Nat} : ofLimbs ([] : List (BitVec w)) = 0 := rfl

@[simp] theorem ofLimbs_cons {w : Nat} (d : BitVec w) (ds : List (BitVec w)) :
    ofLimbs (d :: ds) = ofLimbs ds <<< w ||| d.setWidth 64 := rfl

theorem limbs_succ (w n : Nat) (value : BitVec 64) :
    limbs w (n + 1) value = value.extractLsb' 0 w :: limbs w n (value >>> w) := by
  simp only [limbs, List.range_succ_eq_map, List.map_cons, List.map_map, Nat.mul_zero]
  congr 1
  apply List.map_congr_left
  intro i _
  apply BitVec.eq_of_getLsbD_eq
  intro j hj
  simp only [Function.comp, BitVec.getLsbD_extractLsb', BitVec.getLsbD_ushiftRight, hj,
    decide_true, Bool.true_and]
  congr 1
  rw [Nat.mul_succ]
  omega

/-- Bit `i` of the word made of the limbs of `value` is bit `i` of `value`, below their common width. -/
theorem getLsbD_ofLimbs_limbs {w : Nat} (n : Nat) (value : BitVec 64) (i : Nat) :
    (ofLimbs (limbs w n value)).getLsbD i = (decide (i < w * n) && value.getLsbD i) := by
  induction n generalizing value i with
  | zero => simp [limbs]
  | succ n ih =>
    rw [limbs_succ, ofLimbs_cons, BitVec.getLsbD_or, BitVec.getLsbD_shiftLeft, ih]
    simp only [BitVec.getLsbD_setWidth, BitVec.getLsbD_extractLsb', BitVec.getLsbD_ushiftRight,
      Nat.zero_add, Nat.mul_succ]
    by_cases h64 : i < 64
    · by_cases hi : i < w
      · have : i < w * n + w := by omega
        simp [h64, hi, this]
      · have hsub : w + (i - w) = i := by omega
        have : (i - w < w * n) ↔ (i < w * n + w) := by omega
        simp [h64, hi, hsub, this]
    · simp [h64, BitVec.getLsbD_of_ge value i (by omega)]

theorem ofLimbs_limbs {w n : Nat} (value : BitVec 64) :
    ofLimbs (limbs w n value) = (value.setWidth (w * n)).setWidth 64 := by
  apply BitVec.eq_of_getLsbD_eq
  intro i hi
  rw [getLsbD_ofLimbs_limbs, BitVec.getLsbD_setWidth, BitVec.getLsbD_setWidth]
  simp [hi]

end EtherSwitch.Word
