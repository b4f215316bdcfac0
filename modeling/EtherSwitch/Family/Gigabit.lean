import EtherSwitch.Family.Control
import EtherSwitch.Link

/-! The gigabit family. A table entry is written through the chip's window as its index, its data and
    then the start command. Entry 0 is reserved. -/

namespace EtherSwitch.Gigabit

def writeEntry (chip : Chip) (index : UInt16) (members untagged : PortMask) : Script Unit := do
  Script.write16 chip.tableWindow.index index.toBitVec
  Script.write32 chip.tableWindow.entry (GigabitEntry.mk members untagged).encode
  Script.write8 chip.tableWindow.access Layout.windowStart

def programEntry (chip : Chip) (index : UInt16) (members untagged : PortMask) : Script Unit := do
  Config.checkVlanIndex chip index
  if index = 0 then throw (.reservedVlan index)
  writeEntry chip index members untagged

/-- Forces the ports' state on the chips that can. -/
def forcePorts (chip : Chip) : Script Unit := do
  if chip.hasPortOverride then
    let current ← Script.read8 Layout.portOverride
    Script.write8 Layout.portOverride (current ||| Layout.overrideEnable ||| Layout.overrideLink)

def reset (chip : Chip) : Script Unit := do
  enableForwarding chip
  forcePorts chip

def applyVlans (chip : Chip) (c : Config) : Script Unit := do
  setDefaultTags c.ports PortConfig.pvid
  (c.vlans.zipIdx.drop 1).forM fun (entry, i) =>
    writeEntry chip (UInt16.ofNat i) entry.members (c.untagMask &&& entry.members)

def applyFlat (chip : Chip) : Script Unit := do
  ((List.range chip.numVlans.toNat).drop 1).forM fun i => writeEntry chip (UInt16.ofNat i) 0 0
  clearPortControl (portsBelow (chip.lastPhyPort + 1))
  clearDefaultTags chip

def apply (chip : Chip) (c : Config) : Script Unit := do
  setManaged c.vlanEnabled true
  if c.vlanEnabled then applyVlans chip c else applyFlat chip

def portLink (chip : Chip) (port : UInt8) : Script PortLink := do
  checkLinkPort chip port
  let link ← Script.read16 Layout.linkStatus
  let speed ← Script.read32 Layout.speedStatus
  let duplex ← Script.read16 Layout.duplexGigabit
  PortLink.decode port link (PortLink.speedFieldGigabit speed port) duplex

end EtherSwitch.Gigabit
