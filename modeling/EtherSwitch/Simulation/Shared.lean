import EtherSwitch.Protocol.PseudoPhy
import EtherSwitch.Protocol.SpiFrames
import EtherSwitch.Register.Lock
import EtherSwitch.Simulation

/-! A simulated chip that several users share behind one lock: accesses over MDIO, accesses over SPI and
    whoever else is on the buses between them. -/

namespace EtherSwitch

structure SharedChip where
  /-- Whether a holder of the lock has given up while holding it. -/
  poisoned : Bool
  /-- The MDIO operations that did not complete. -/
  timeouts : Nat
  chip : Simulation

namespace SharedChip

def new (m : Model) : SharedChip := ⟨false, 0, .new m⟩

def setChip (chip : Simulation) (s : SharedChip) : SharedChip := { s with chip }

/-- The registers of the chip over MDIO. -/
def mdio (settings : PseudoPhy.Settings) : Device Registers SharedChip :=
  Device.within (fun s => Locked.mk s.poisoned (s.timeouts, s.chip))
    (fun l _ => ⟨l.poisoned, l.device.1, l.device.2⟩)
    (Device.locked (settings.layer.device Simulation.mdio))

/-- The registers of the chip over SPI. -/
def spi : Device Registers SharedChip :=
  Device.within (fun s => Locked.mk s.poisoned ((), s.chip)) (fun l s => ⟨l.poisoned, s.timeouts, l.device.2⟩)
    (Device.locked (SpiFrames.layer.device Simulation.spi))

/-- Bus cycles of others on the MDIO bus. -/
def mdioBus : Device MdioBus SharedChip := Device.within chip setChip Simulation.mdio

/-- Bus cycles of others on the SPI bus. -/
def spiBus : Device SpiBus SharedChip := Device.within chip setChip Simulation.spi

end SharedChip

end EtherSwitch
