import EtherSwitch.Register.Address

/-! The register map of the supported chips: where each register is and what its bits mean. -/

namespace EtherSwitch.Layout

/-! ### Pages -/

def controlPage : UInt8 := 0x00

def statusPage : UInt8 := 0x01

def managementPage : UInt8 := 0x02

/-- Address resolution; the VLAN table of the gigabit chips is reached here. -/
def arlPage : UInt8 := 0x05

def vlanPage : UInt8 := 0x34

/-! ### Control -/

def portControl (port : UInt8) : Location := ⟨controlPage, port⟩

/-- Control of the CPU port. -/
def cpuControl : Location := ⟨controlPage, 0x08⟩

def switchMode : Location := ⟨controlPage, 0x0b⟩

def managed : BitVec 8 := 0x01

def forwarding : BitVec 8 := 0x02

def portOverride : Location := ⟨controlPage, 0x0e⟩

def overrideLink : BitVec 8 := 0x01

def overrideEnable : BitVec 8 := 0x80

/-! ### Status -/

def linkStatus : Location := ⟨statusPage, 0x00⟩

def speedStatus : Location := ⟨statusPage, 0x04⟩

def duplexFast : Location := ⟨statusPage, 0x06⟩

def duplexGigabit : Location := ⟨statusPage, 0x08⟩

def coreRevision : Location := ⟨statusPage, 0x50⟩

/-! ### Management -/

/-- The chip's id, 8 bits wide or, on some chips, 16. -/
def deviceId : Location := ⟨managementPage, 0x30⟩

/-! ### VLAN -/

def vlanControl0 : Location := ⟨vlanPage, 0x00⟩

def vlanControl1 : Location := ⟨vlanPage, 0x01⟩

def vlanControl4 : Location := ⟨vlanPage, 0x04⟩

def vlanControl5 : Location := ⟨vlanPage, 0x05⟩

/-- The command register of the fast Ethernet chips' VLAN table. -/
def tableAccess : Location := ⟨vlanPage, 0x06⟩

/-- The entry that a table command of the fast Ethernet chips writes. -/
def tableEntry : Location := ⟨vlanPage, 0x08⟩

/-- The tag given to untagged frames that come in at a port. -/
def defaultTag (port : UInt8) : Location := ⟨vlanPage, 0x10 + 2 * port⟩

/-- What VLAN control 0 holds while VLANs are enforced: VLANs are on, lookup and hashing go by VLAN id. -/
def enforced0 : BitVec 8 := 0x80 ||| 0x40 ||| 0x20

/-- What VLAN control 1 holds while VLANs are enforced: multicast is tagged, forwarded and untagged. -/
def enforced1 : BitVec 8 := 0x02 ||| 0x04 ||| 0x08

/-- What happens to a frame whose VLAN its ingress port is no member of. -/
inductive IngressCheck where
  | forward | drop | disabled
  deriving DecidableEq, Repr

/-- The check as a field of VLAN control 4. -/
def IngressCheck.field : IngressCheck → BitVec 8
  | forward => 0#8 <<< 6
  | drop => 1#8 <<< 6
  | disabled => 2#8 <<< 6

/-- What VLAN control 5 holds while VLANs are enforced: frames that miss the table are dropped. -/
def dropTableMiss : BitVec 8 := 0x08

/-! ### Table commands -/

/-- Starts a table command of the fast Ethernet chips. -/
def commandStart : BitVec 16 := 0x2000

/-- Makes a table command of the fast Ethernet chips a write. -/
def commandWrite : BitVec 16 := 0x1000

/-- The command that writes entry `index` of the table. -/
def writeCommand (index : UInt8) : BitVec 16 := index.toBitVec.setWidth 16 ||| commandWrite ||| commandStart

/-- The registers through which a gigabit chip's VLAN table is reached. -/
structure TableWindow where
  access : Location
  index : Location
  entry : Location
  deriving DecidableEq, Repr

def standardWindow : TableWindow := ⟨⟨arlPage, 0x80⟩, ⟨arlPage, 0x81⟩, ⟨arlPage, 0x83⟩⟩

/-- The window of the BCM5397 and BCM5398. -/
def lowWindow : TableWindow := ⟨⟨arlPage, 0x60⟩, ⟨arlPage, 0x61⟩, ⟨arlPage, 0x63⟩⟩

/-- Starts the table operation of a window. -/
def windowStart : BitVec 8 := 0x80

end EtherSwitch.Layout
