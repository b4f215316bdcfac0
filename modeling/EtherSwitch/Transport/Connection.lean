import EtherSwitch.Linux.Mii
import EtherSwitch.Linux.Spidev
import EtherSwitch.Program
import EtherSwitch.Simulation

/-! How the registers of a switch are reached: a simulated chip over one of its buses, a spidev node or
    the MDIO bus of an interface. -/

namespace EtherSwitch

inductive Connection where
  /-- A simulated chip on MDIO, and the operations that did not complete. -/
  | simulatedMdio (timeouts : Nat) (chip : Simulation)
  | simulatedSpi (chip : Simulation)
  | spidev (port : Spidev.Port)
  /-- An interface's bus, the PHY of the switch on it and the operations that did not complete. -/
  | mii (phy : UInt8) (timeouts : Nat) (port : Mii.Port)

namespace Connection

/-- The registers behind a connection. A simulated chip asks nothing of the kernel. -/
def layer : Layer Registers Kernel Connection := fun call connection =>
  match connection with
  | simulatedMdio timeouts chip =>
    match (PseudoPhy.Settings.layer {}).device Simulation.mdio call (timeouts, chip) with
    | (answer, timeouts, chip) => pure (answer, simulatedMdio timeouts chip)
  | simulatedSpi chip =>
    match SpiFrames.layer.device Simulation.spi call ((), chip) with
    | (answer, _, chip) => pure (answer, simulatedSpi chip)
  | spidev port => do
    let (answer, _, port) ← SpiFrames.layer.comp Spidev.layer call ((), port)
    return (answer, spidev port)
  | mii phy timeouts port => do
    let (answer, timeouts, port) ← (PseudoPhy.Settings.layer { phy }).comp Mii.layer call (timeouts, port)
    return (answer, mii phy timeouts port)

/-- Runs a register program over a connection. -/
def run {α : Type} (p : Program Registers α) (connection : Connection) : Program Kernel (α × Connection) :=
  (p.through layer).run connection

end Connection

end EtherSwitch
