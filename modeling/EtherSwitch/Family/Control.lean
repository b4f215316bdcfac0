import EtherSwitch.Config
import EtherSwitch.Register.Access

/-! Programming that both chip families share: forwarding, managed mode and the VLAN controls. -/

namespace EtherSwitch

/-- Zeroes the control registers of the given ports and of the CPU port. -/
def clearPortControl (ports : List UInt8) : Script Unit := do
  ports.forM fun port => Script.write8 (Layout.portControl port) 0
  Script.write8 Layout.cpuControl 0

/-- Turns forwarding on, out of managed mode, and then clears the port control. Does nothing if
    forwarding is on already. -/
def enableForwarding (chip : Chip) : Script Unit := do
  let mode ← Script.read8 Layout.switchMode
  if mode &&& Layout.forwarding ≠ 0 then return
  Script.write8 Layout.switchMode (mode &&& ~~~Layout.managed ||| Layout.forwarding)
  let latched ← Script.read8 Layout.switchMode
  if latched &&& Layout.forwarding = 0 then throw .resetFailed
  clearPortControl (portsBelow (chip.lastPhyPort + 1))

/-- Sets VLAN controls 0, 1, 4 and 5: enforced or all zero. -/
def setVlanControls (enforced : Bool) : Script Unit := do
  let field (value : BitVec 8) : BitVec 8 := if enforced then value else 0
  Script.write8 Layout.vlanControl0 (field Layout.enforced0)
  Script.write8 Layout.vlanControl1 (field Layout.enforced1)
  Script.write8 Layout.vlanControl4 (field Layout.IngressCheck.drop.field)
  Script.write8 Layout.vlanControl5 (field Layout.dropTableMiss)

/-- Turns managed mode on or off, and with `vlan` the VLAN controls too. -/
def setManaged (on vlan : Bool) : Script Unit := do
  let mode ← Script.read8 Layout.switchMode
  if vlan then setVlanControls on
  Script.write8 Layout.switchMode (if on then mode ||| Layout.managed else mode &&& ~~~Layout.managed)

/-- Refuses ports without a PHY status. -/
def checkLinkPort (chip : Chip) (port : UInt8) : Except Error Unit :=
  if chip.numPorts ≤ port then .error (.invalidPort port chip.numPorts)
  else if chip.lastPhyPort < port then .error (.noPhyStatus port)
  else .ok ()

/-- Clears the default tags of all ports. -/
def clearDefaultTags (chip : Chip) : Script Unit :=
  (portsBelow chip.numPorts).forM fun port => Script.write16 (Layout.defaultTag port) 0

/-- Gives every port that sends untagged its VLAN as default tag; tagged ports keep theirs. -/
def setDefaultTags (ports : List PortConfig) (tag : PortConfig → UInt16) : Script Unit :=
  ports.zipIdx.forM fun (p, i) =>
    if p.tagged then pure ()
    else Script.write16 (Layout.defaultTag (UInt8.ofNat i)) (tag p).toBitVec

end EtherSwitch
