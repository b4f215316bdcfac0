import EtherSwitch.Family.FastEthernet
import EtherSwitch.Family.Gigabit

/-! What both families offer, selected by family. -/

namespace EtherSwitch.Family

/-- Brings a chip to its forwarding baseline. -/
def reset : Family → Chip → Script Unit
  | fastEthernet => FastEthernet.reset
  | gigabit => Gigabit.reset

/-- Makes a chip do what a configuration says. -/
def apply : Family → Chip → Config → Script Unit
  | fastEthernet => FastEthernet.apply
  | gigabit => Gigabit.apply

/-- Writes one entry of the VLAN table. -/
def programEntry : Family → Chip → UInt16 → PortMask → PortMask → Script Unit
  | fastEthernet => FastEthernet.programEntry
  | gigabit => Gigabit.programEntry

/-- Reads the link of a port. -/
def portLink : Family → Chip → UInt8 → Script PortLink
  | fastEthernet => FastEthernet.portLink
  | gigabit => Gigabit.portLink

end EtherSwitch.Family
