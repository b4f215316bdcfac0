import EtherSwitch.Family.Control
import EtherSwitch.Link

/-! The fast Ethernet family. A table entry is written as its data and then the command that names its
    index. Without VLANs, entry 1 spans all ports. -/

namespace EtherSwitch.FastEthernet

/-- What is stored for an entry; an entry without members is all zero. -/
def entryWord (members untagged : PortMask) (vidHigh : BitVec 8) : BitVec 32 :=
  if members = 0 then 0 else (FastEntry.mk members untagged vidHigh true).encode

def writeEntry (chip : Chip) (index : UInt16) (members untagged : PortMask) (vidHigh : BitVec 8) :
    Script Unit := do
  Config.checkVlanIndex chip index
  Script.write32 Layout.tableEntry (entryWord members untagged vidHigh)
  Script.write16 Layout.tableAccess (Layout.writeCommand index.toUInt8)

def programEntry (chip : Chip) (index : UInt16) (members untagged : PortMask) : Script Unit :=
  writeEntry chip index members untagged 0

def reset (chip : Chip) : Script Unit := enableForwarding chip

/-- The entry that spans every port while VLANs are off. -/
def flatVlan : UInt16 := 1

/-- The upper bits of the VLAN ids of the table. -/
def vidHigh (base : UInt16) : BitVec 8 := (base.toBitVec >>> 4).setWidth 8

def applyVlans (chip : Chip) (c : Config) : Script Unit := do
  setDefaultTags c.ports fun p => p.pvid + c.vlanBase
  c.vlans.zipIdx.forM fun (entry, i) =>
    writeEntry chip (UInt16.ofNat i) entry.members (c.untagMask &&& entry.members) (vidHigh c.vlanBase)

def applyFlat (chip : Chip) : Script Unit := do
  (List.range chip.numVlans.toNat).forM fun i => writeEntry chip (UInt16.ofNat i) 0 0 0
  writeEntry chip flatVlan FastEntry.ports FastEntry.ports 0
  clearPortControl (portsBelow chip.cpuPort)
  clearDefaultTags chip

def apply (chip : Chip) (c : Config) : Script Unit := do
  setManaged c.vlanEnabled true
  if c.vlanEnabled then applyVlans chip c else applyFlat chip

def portLink (chip : Chip) (port : UInt8) : Script PortLink := do
  checkLinkPort chip port
  let link ← Script.read16 Layout.linkStatus
  let speed ← Script.read16 Layout.speedStatus
  let duplex ← Script.read16 Layout.duplexFast
  PortLink.decode port link (PortLink.speedFieldFast speed port) duplex

end EtherSwitch.FastEthernet
