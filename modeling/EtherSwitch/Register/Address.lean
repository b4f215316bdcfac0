import EtherSwitch.Text.Numeral

/-! Addresses in the paged register space: 256 pages of 256 offsets, where a register is 8, 16, 32, 48
    or 64 bits wide. Widths truncate values to their low bits (`truncate_eq_setWidth`). -/

namespace EtherSwitch

inductive Width where
  | bits8 | bits16 | bits32 | bits48 | bits64
  deriving DecidableEq, Repr

namespace Width

def bytes : Width → Nat
  | bits8 => 1
  | bits16 => 2
  | bits32 => 4
  | bits48 => 6
  | bits64 => 8

def bits (w : Width) : Nat := 8 * w.bytes

/-- The width with the given number of bits. -/
def ofBits? : Nat → Option Width
  | 8 => some bits8
  | 16 => some bits16
  | 32 => some bits32
  | 48 => some bits48
  | 64 => some bits64
  | _ => none

/-- The bits of a register of this width. -/
def mask (w : Width) : BitVec 64 := (BitVec.allOnes w.bits).setWidth 64

/-- The low bits of a value, as many as the width has. -/
def truncate (w : Width) (value : BitVec 64) : BitVec 64 := value &&& w.mask

def text (w : Width) : String := toString w.bits

theorem bytes_eq (w : Width) : w.bytes = w.bits / 8 := by cases w <;> rfl

theorem ofBits?_bits (w : Width) : ofBits? w.bits = some w := by cases w <;> rfl

theorem bits_le (w : Width) : w.bits ≤ 64 := by cases w <;> decide

theorem getLsbD_mask (w : Width) (i : Nat) : w.mask.getLsbD i = decide (i < w.bits) := by
  have h : w.bits ≤ 64 := w.bits_le
  rw [mask, BitVec.getLsbD_setWidth, BitVec.getLsbD_allOnes]
  by_cases hi : i < w.bits
  · simp [hi, Nat.lt_of_lt_of_le hi h]
  · simp [hi]

theorem getLsbD_truncate (w : Width) (value : BitVec 64) (i : Nat) :
    (w.truncate value).getLsbD i = (value.getLsbD i && decide (i < w.bits)) := by
  rw [truncate, BitVec.getLsbD_and, getLsbD_mask]

theorem truncate_eq_setWidth (w : Width) (value : BitVec 64) :
    w.truncate value = (value.setWidth w.bits).setWidth 64 := by
  apply BitVec.eq_of_getLsbD_eq
  intro i hi
  rw [getLsbD_truncate, BitVec.getLsbD_setWidth, BitVec.getLsbD_setWidth]
  simp [hi, Bool.and_comm]

@[simp] theorem truncate_truncate (w : Width) (value : BitVec 64) :
    w.truncate (w.truncate value) = w.truncate value := by
  simp [truncate, BitVec.and_assoc]

end Width

/-- A place in the register space. -/
structure Location where
  page : UInt8
  offset : UInt8
  deriving DecidableEq, Repr

/-- Page and offset, each as two hexadecimal digits. -/
def Location.text (l : Location) : String := Numeral.hexByte l.page ++ ":" ++ Numeral.hexByte l.offset

/-- A register: where it is and how wide it is. -/
structure Address where
  location : Location
  width : Width
  deriving DecidableEq, Repr

def Address.text (a : Address) : String := a.location.text ++ "/" ++ a.width.text

end EtherSwitch
