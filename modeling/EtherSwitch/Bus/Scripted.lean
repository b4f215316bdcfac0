import EtherSwitch.Bus.Mdio
import EtherSwitch.Bus.Spi
import EtherSwitch.Protocol.PseudoPhy
import EtherSwitch.Protocol.SpiFrames

/-! Buses that answer from lists: polls from one that is used up, data from one that stays. Writes change
    nothing. -/

namespace EtherSwitch

/-- What a scripted bus answers: `polls` to the reads of its status, one each, and `data` by data register. -/
structure BusScript (α : Type) where
  polls : List α := []
  data : List α := []

namespace BusScript
variable {α : Type}

/-- The next poll, or `rest` when there are none left. -/
def poll (rest : α) (s : BusScript α) : α × BusScript α :=
  match s.polls with
  | [] => (rest, s)
  | p :: polls => (p, { s with polls })

end BusScript

/-- The index of a register among `count` registers from `first` on. -/
def registerIndex? (first : UInt8) (count : Nat) (register : UInt8) : Option Nat :=
  if first ≤ register ∧ register.toNat - first.toNat < count then some (register.toNat - first.toNat) else none

/-- An MDIO bus that answers from a script whatever the PHY. -/
def MdioBus.scripted : Device MdioBus (BusScript (BitVec 16)) := fun
  | .read _ register, s =>
    if register = PseudoPhy.addressRegister then
      match s.poll 0 with
      | (word, s') => (.ok word, s')
    else
      match registerIndex? (PseudoPhy.dataRegister 0) 4 register with
      | some i => (.ok (s.data.getD i 0), s)
      | none => (.ok 0, s)
  | .write _ _ _, s => (.ok (), s)
  | .delay _, s => ((), s)

/-- The first byte that a scripted SPI bus answers to a transfer. -/
def SpiBus.scriptedByte (register : UInt8) (s : BusScript UInt8) : UInt8 × BusScript UInt8 :=
  if register = SpiFrames.statusRegister then s.poll SpiFrames.acknowledged
  else
    match registerIndex? (SpiFrames.dataRegister 0) 8 register with
    | some i => (s.data.getD i 0, s)
    | none => (0, s)

/-- An SPI bus that answers from a script; only the first byte of a transfer is ever other than zero. -/
def SpiBus.scripted : Device SpiBus (BusScript UInt8) := fun
  | .write _, s => (.ok (), s)
  | .transfer bytes length, s =>
    match SpiBus.scriptedByte (bytes.getD 1 0) s with
    | (byte, s') => (.ok ((byte :: List.replicate (length - 1) 0).take length), s')
  | .delay _, s => ((), s)

end EtherSwitch
