import EtherSwitch.Vlan.Entry
import Mathlib.Algebra.Group.Nat.Defs

/-! What a table entry tells of the sets and fields that were put into it: all of them, with the sets cut
    to the ports of the family (`FastEntry.decode_encode`, `GigabitEntry.decode_encode`). -/

namespace EtherSwitch

/-- A word with its lowest bits set. -/
theorem getLsbD_ones {w n : Nat} (h : n ≤ w) (i : Nat) :
    (BitVec.ofNat w (2 ^ n - 1)).getLsbD i = decide (i < n) := by
  rw [BitVec.getLsbD_ofNat, Nat.testBit_two_pow_sub_one, ← Bool.decide_and, decide_eq_decide]
  omega

/-- A set without ports beyond those of a mask is not cut by it. -/
theorem PortMask.and_eq_self {n : Nat} {set mask : PortMask} (hmask : ∀ i, mask.getLsbD i = decide (i < n))
    (h : ∀ i, n ≤ i → set.getLsbD i = false) : set &&& mask = set := by
  apply BitVec.eq_of_getLsbD_eq
  intro i _
  rw [BitVec.getLsbD_and, hmask]
  by_cases hi : i < n
  · simp [hi]
  · rw [h i (Nat.le_of_not_lt hi), Bool.false_and]

namespace FastEntry

theorem getLsbD_ports (i : Nat) : ports.getLsbD i = decide (i < 6) := getLsbD_ones (show 6 ≤ 16 by decide) i

/-- The fields of an entry lie side by side. -/
theorem getLsbD_encode (e : FastEntry) (i : Nat) :
    e.encode.getLsbD i =
      ((decide (i < 6) && e.members.getLsbD i) ||
        (decide (6 ≤ i) && (decide (i < 12) && e.untagged.getLsbD (i - 6))) ||
        (decide (12 ≤ i) && (decide (i < 20) && e.vidHigh.getLsbD (i - 12))) ||
          (decide (i = 20) && e.valid)) := by
  have hvalid : (if e.valid then (0x100000 : BitVec 32) else 0).getLsbD i = (decide (i = 20) && e.valid) := by
    rw [show (0x100000 : BitVec 32) = BitVec.twoPow 32 20 from rfl]
    split <;> grind
  simp only [encode, BitVec.getLsbD_or, BitVec.getLsbD_shiftLeft, BitVec.getLsbD_setWidth, BitVec.getLsbD_and,
    getLsbD_ports, hvalid]
  grind

theorem decode_encode (e : FastEntry) :
    decode e.encode = ⟨e.members &&& ports, e.untagged &&& ports, e.vidHigh, e.valid⟩ := by
  have hmembers : (decode e.encode).members = e.members &&& ports := by
    apply BitVec.eq_of_getLsbD_eq
    intro i _
    simp only [decode, BitVec.getLsbD_and, BitVec.getLsbD_setWidth, getLsbD_encode, getLsbD_ports]
    grind
  have huntagged : (decode e.encode).untagged = e.untagged &&& ports := by
    apply BitVec.eq_of_getLsbD_eq
    intro i _
    simp only [decode, BitVec.getLsbD_and, BitVec.getLsbD_setWidth, BitVec.getLsbD_ushiftRight,
      getLsbD_encode, getLsbD_ports]
    grind
  have hvidHigh : (decode e.encode).vidHigh = e.vidHigh := by
    apply BitVec.eq_of_getLsbD_eq
    intro i _
    simp only [decode, BitVec.getLsbD_setWidth, BitVec.getLsbD_ushiftRight, getLsbD_encode]
    grind
  have hvalid : (decode e.encode).valid = e.valid := by
    show e.encode.getLsbD 20 = e.valid
    rw [getLsbD_encode]
    simp
  rw [← hmembers, ← huntagged, ← hvidHigh, ← hvalid]

end FastEntry

namespace GigabitEntry

theorem getLsbD_ports (i : Nat) : ports.getLsbD i = decide (i < 9) := getLsbD_ones (show 9 ≤ 16 by decide) i

theorem getLsbD_encode (e : GigabitEntry) (i : Nat) :
    e.encode.getLsbD i =
      ((decide (i < 9) && e.members.getLsbD i) ||
        (decide (9 ≤ i) && (decide (i < 18) && e.untagged.getLsbD (i - 9)))) := by
  simp only [encode, BitVec.getLsbD_or, BitVec.getLsbD_shiftLeft, BitVec.getLsbD_setWidth,
    BitVec.getLsbD_and, getLsbD_ports]
  grind

theorem decode_encode (e : GigabitEntry) : decode e.encode = ⟨e.members &&& ports, e.untagged &&& ports⟩ := by
  have hmembers : (decode e.encode).members = e.members &&& ports := by
    apply BitVec.eq_of_getLsbD_eq
    intro i _
    simp only [decode, BitVec.getLsbD_and, BitVec.getLsbD_setWidth, getLsbD_encode, getLsbD_ports]
    grind
  have huntagged : (decode e.encode).untagged = e.untagged &&& ports := by
    apply BitVec.eq_of_getLsbD_eq
    intro i _
    simp only [decode, BitVec.getLsbD_and, BitVec.getLsbD_setWidth, BitVec.getLsbD_ushiftRight,
      getLsbD_encode, getLsbD_ports]
    grind
  rw [← hmembers, ← huntagged]

end GigabitEntry

end EtherSwitch
