import EtherSwitch.Chip
import EtherSwitch.Vlan.Entry

/-! The registers and the VLAN table of the simulated chip. One read or write of a register is one step
    of the store, whichever bus it came by. -/

namespace EtherSwitch

/-- A register write. -/
structure RegisterWrite where
  location : Location
  value : BitVec 64
  deriving DecidableEq, Repr

structure Store where
  /-- The chip that the id registers name, if they name one. -/
  chip : Option Chip
  registers : Location → BitVec 64
  /-- The entries that table commands have written. -/
  table : UInt16 → Option (BitVec 32)
  /-- How many more reads of the device id give zero. -/
  zeroIdReads : Nat
  /-- Whether forwarding fails to stay enabled. -/
  forwardStuck : Bool
  /-- The register writes so far, oldest first. -/
  writes : List RegisterWrite

namespace Store

def set (s : Store) (l : Location) (value : BitVec 64) : Store :=
  { s with registers := fun l' => if l' = l then value else s.registers l' }

def setEntry (s : Store) (index : UInt16) (entry : BitVec 32) : Store :=
  { s with table := fun i => if i = index then some entry else s.table i }

@[simp] theorem registers_set_self (s : Store) (l : Location) (value : BitVec 64) :
    (s.set l value).registers l = value := by
  simp [set]

theorem registers_set_of_ne (s : Store) {l l' : Location} (value : BitVec 64) (h : l' ≠ l) :
    (s.set l value).registers l' = s.registers l' := by
  simp [set, h]

@[simp] theorem table_setEntry_self (s : Store) (index : UInt16) (entry : BitVec 32) :
    (s.setEntry index entry).table index = some entry := by
  simp [setEntry]

theorem table_setEntry_of_ne (s : Store) {i index : UInt16} (entry : BitVec 32) (h : i ≠ index) :
    (s.setEntry index entry).table i = s.table i := by
  simp [setEntry, h]

/-- Reads a register. The device id may give zero a number of times first. -/
def read (l : Location) (s : Store) : BitVec 64 × Store :=
  if l = Layout.deviceId ∧ 0 < s.zeroIdReads then (0, { s with zeroIdReads := s.zeroIdReads - 1 })
  else (s.registers l, s)

/-- What a register holds after a write, before any command runs. -/
def latched (s : Store) (l : Location) (value : BitVec 64) : BitVec 64 :=
  if l = Layout.switchMode ∧ s.forwardStuck then value &&& ~~~(Layout.forwarding.setWidth 64) else value

/-- Runs a table command of a fast Ethernet chip if the value starts one; the start bit clears. -/
def runCommand (s : Store) (value : BitVec 64) : Store :=
  let command := value.setWidth 16
  if command &&& Layout.commandStart = 0 then s
  else
    let s' :=
      if command &&& Layout.commandWrite = 0 then s
      else s.setEntry (UInt16.ofBitVec (command &&& 0xff)) ((s.registers Layout.tableEntry).setWidth 32)
    s'.set Layout.tableAccess (value &&& ~~~(Layout.commandStart.setWidth 64))

/-- Stores the entry of a gigabit chip's window if the value starts the operation; the start bit clears. -/
def runWindow (s : Store) (window : Layout.TableWindow) (value : BitVec 64) : Store :=
  if value &&& Layout.windowStart.setWidth 64 = 0 then s
  else
    let index := UInt16.ofBitVec ((s.registers window.index).setWidth 16)
    let s' := s.setEntry index ((s.registers window.entry).setWidth 32)
    s'.set window.access (value &&& ~~~(Layout.windowStart.setWidth 64))

/-- What the chip does when a register has taken a value. -/
def react (s : Store) (l : Location) (value : BitVec 64) : Store :=
  match s.chip with
  | none => s
  | some chip =>
    match chip.family with
    | .fastEthernet => if l = Layout.tableAccess then s.runCommand value else s
    | .gigabit => if l = chip.tableWindow.access then s.runWindow chip.tableWindow value else s

/-- Writes a register. -/
def write (l : Location) (value : BitVec 64) (s : Store) : Store :=
  let s' := { s with writes := s.writes ++ [RegisterWrite.mk l value] }
  (s'.set l (s.latched l value)).react l (s.latched l value)

end Store

end EtherSwitch
