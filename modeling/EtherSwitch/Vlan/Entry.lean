import EtherSwitch.Register.Layout

/-! VLAN table entries as the chips store them. Fields wider than their place are cut to it. -/

namespace EtherSwitch

/-- A set of ports: bit `p` stands for port `p`. -/
abbrev PortMask : Type := BitVec 16

/-- The set of one port. -/
def PortMask.single (port : Nat) : PortMask := 1#16 <<< port

/-- An entry of a fast Ethernet chip: two sets of six ports, the upper bits of the VLAN id and a valid bit. -/
structure FastEntry where
  members : PortMask
  untagged : PortMask
  vidHigh : BitVec 8
  valid : Bool
  deriving DecidableEq, Repr

namespace FastEntry

def ports : PortMask := 0x3f

def encode (e : FastEntry) : BitVec 32 :=
  (e.members &&& ports).setWidth 32 ||| (e.untagged &&& ports).setWidth 32 <<< 6 |||
    e.vidHigh.setWidth 32 <<< 12 ||| (if e.valid then 0x100000 else 0)

def decode (raw : BitVec 32) : FastEntry where
  members := raw.setWidth 16 &&& ports
  untagged := (raw >>> 6).setWidth 16 &&& ports
  vidHigh := (raw >>> 12).setWidth 8
  valid := raw.getLsbD 20

end FastEntry

/-- An entry of a gigabit chip: two sets of nine ports. -/
structure GigabitEntry where
  members : PortMask
  untagged : PortMask
  deriving DecidableEq, Repr

namespace GigabitEntry

def ports : PortMask := 0x1ff

def encode (e : GigabitEntry) : BitVec 32 :=
  (e.untagged &&& ports).setWidth 32 <<< 9 ||| (e.members &&& ports).setWidth 32

def decode (raw : BitVec 32) : GigabitEntry where
  members := raw.setWidth 16 &&& ports
  untagged := (raw >>> 9).setWidth 16 &&& ports

end GigabitEntry

end EtherSwitch
