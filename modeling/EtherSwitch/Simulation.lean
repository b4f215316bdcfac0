import EtherSwitch.Link
import EtherSwitch.Simulation.Ports

/-! A simulated switch chip that answers both buses from one store. -/

namespace EtherSwitch

/-- Failures put into a simulated chip. -/
structure Faults where
  /-- MDIO operations never complete. -/
  stallMdio : Bool := false
  /-- SPI reads are never acknowledged. -/
  neverAckSpi : Bool := false
  /-- Forwarding does not stay enabled. -/
  forwardStuck : Bool := false
  deriving DecidableEq, Repr

/-- What a simulated chip is made to look like. -/
structure Model where
  deviceId : BitVec 16
  vlanControl4 : BitVec 8
  revision : UInt8 := 0
  /-- How many reads of the device id give zero before the id shows. -/
  zeroIdReads : Nat := 0
  faults : Faults := {}
  deriving DecidableEq, Repr

namespace Model

def ofChip (chip : Chip) : Model := { deviceId := chip.deviceId, vlanControl4 := chip.vlanControl4 }

def standard : Model := ofChip .bcm5395

/-- The chip that the id registers name. -/
def chip? (m : Model) : Option Chip := Chip.ofIds? m.deviceId m.vlanControl4

/-- The registers of a chip that was just powered up. -/
def store (m : Model) : Store where
  chip := m.chip?
  registers := fun l =>
    if l = Layout.deviceId then m.deviceId.setWidth 64
    else if l = Layout.vlanControl4 then m.vlanControl4.setWidth 64
    else if l = Layout.coreRevision then m.revision.toBitVec.setWidth 64
    else 0
  table := fun _ => none
  zeroIdReads := m.zeroIdReads
  forwardStuck := m.faults.forwardStuck
  writes := []

end Model

/-- A simulated chip. -/
structure Simulation where
  faults : Faults
  store : Store
  mdioPort : MdioPort
  spiPort : SpiPort
  /-- The microseconds of delay asked for. -/
  elapsed : Nat

namespace Simulation

def new (m : Model) : Simulation := ⟨m.faults, m.store, {}, {}, 0⟩

/-- The chip on an MDIO bus. Other PHYs read as all ones and ignore writes. -/
def mdio : Device MdioBus Simulation := fun
  | .read phy register, s =>
    if phy = PseudoPhy.defaultPhy then
      match s.mdioPort.read register with
      | (word, port) => (.ok word, { s with mdioPort := port })
    else (.ok 0xffff, s)
  | .write phy register word, s =>
    if phy = PseudoPhy.defaultPhy then
      match s.mdioPort.write s.faults.stallMdio register word s.store with
      | (answer, port, store) => (answer, { s with mdioPort := port, store })
    else (.ok (), s)
  | .delay micros, s => ((), { s with elapsed := s.elapsed + micros })

/-- The chip on an SPI bus. -/
def spi : Device SpiBus Simulation := fun
  | .write bytes, s =>
    match s.spiPort.write bytes s.store with
    | (answer, port, store) => (answer, { s with spiPort := port, store })
  | .transfer bytes length, s =>
    match s.spiPort.transfer s.faults.neverAckSpi bytes length s.store with
    | (answer, port, store) => (answer, { s with spiPort := port, store })
  | .delay micros, s => ((), { s with elapsed := s.elapsed + micros })

/-! ### Inspection -/

def setRegister (s : Simulation) (l : Location) (value : BitVec 64) : Simulation :=
  { s with store := s.store.set l value }

/-- Forgets the writes, the polls and the delays. -/
def clearLog (s : Simulation) : Simulation :=
  { s with
    store := { s.store with writes := [] }
    mdioPort := { s.mdioPort with polls := 0 }
    spiPort := { s.spiPort with polls := 0 }
    elapsed := 0 }

/-- Changes one register by a function of its value. -/
def modifyRegister (s : Simulation) (l : Location) (f : BitVec 64 → BitVec 64) : Simulation :=
  s.setRegister l (f (s.store.registers l))

/-- Sets or clears the bit of a port. -/
def putBit (port : UInt8) (on : Bool) (summary : BitVec 64) : BitVec 64 :=
  if on then summary ||| 1#64 <<< port.toNat else summary &&& ~~~(1#64 <<< port.toNat)

/-- A speed as the field of a gigabit chip's speed summary. -/
def speedField : Speed → BitVec 64
  | .mbps10 => 0
  | .mbps100 => 1
  | .mbps1000 => 2

/-- Puts the speed of a port into the speed summary of a gigabit chip. -/
def putSpeed (port : UInt8) (speed : Speed) (summary : BitVec 64) : BitVec 64 :=
  summary &&& ~~~(3#64 <<< (2 * port.toNat)) ||| speedField speed <<< (2 * port.toNat)

/-- Sets the link status of a port. A chip that is not gigabit only tells 10 from more. -/
def setLink (s : Simulation) (port : UInt8) (up : Bool) (speed : Speed) (duplex : Duplex) : Simulation :=
  let gigabit := s.store.chip.map Chip.family = some .gigabit
  let s := s.modifyRegister Layout.linkStatus (putBit port up)
  let s := s.modifyRegister Layout.speedStatus
    (if gigabit then putSpeed port speed else putBit port (speed ≠ .mbps10))
  s.modifyRegister (if gigabit then Layout.duplexGigabit else Layout.duplexFast) (putBit port (duplex = .full))

end Simulation

end EtherSwitch
