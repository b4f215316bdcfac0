import EtherSwitch.Chip
import EtherSwitch.Error
import EtherSwitch.Vlan.Entry

/-! The logical configuration of a switch and the setters that change it. A setter checks all of its
    arguments before it changes anything, so a configuration that is well formed stays so. -/

namespace EtherSwitch

structure PortConfig where
  /-- The VLAN of untagged frames that come in at the port. -/
  pvid : UInt16 := 0
  /-- Whether frames leave the port tagged. -/
  tagged : Bool := false
  deriving DecidableEq, Repr

/-- The configuration of a port that has become a member of entry `index`: a tagged member sends tagged,
    an untagged one sends untagged and takes the entry as its own VLAN. -/
def PortConfig.join (index : UInt16) (tagged : Bool) (p : PortConfig) : PortConfig :=
  if tagged then { p with tagged := true } else { pvid := index, tagged := false }

/-- An entry of the logical VLAN table. -/
structure VlanEntry where
  members : PortMask := 0
  /-- Whether the entry has members. -/
  valid : Bool := false
  deriving DecidableEq, Repr

/-- A port's part in a VLAN. -/
structure VlanPort where
  port : UInt8
  tagged : Bool
  deriving DecidableEq, Repr

/-- What a switch is meant to do. -/
structure Config where
  identity : Identity
  vlanEnabled : Bool
  /-- The id of the first VLAN of the table; only fast Ethernet chips have one. -/
  vlanBase : UInt16
  /-- The configuration of each port. -/
  ports : List PortConfig
  /-- The VLAN table. -/
  vlans : List VlanEntry
  deriving DecidableEq, Repr

namespace Config

/-- The default configuration of a chip. -/
def initial (identity : Identity) : Config where
  identity := identity
  vlanEnabled := false
  vlanBase := 0
  ports := List.replicate identity.chip.numPorts.toNat {}
  vlans := List.replicate identity.chip.numVlans.toNat {}

/-- The default configuration of the same chip. -/
def clear (c : Config) : Config := initial c.identity

def chip (c : Config) : Chip := c.identity.chip

/-- The set of the ports at the given places of a list. -/
def maskWhere {α : Type} (p : α → Bool) (items : List α) : PortMask :=
  items.zipIdx.foldl (fun mask (item, i) => if p item then mask ||| .single i else mask) 0

/-- The ports that send untagged. -/
def untagMask (c : Config) : PortMask := maskWhere (fun p => !p.tagged) c.ports

/-! ### Checks -/

def checkPort (c : Config) (port : UInt8) : Except Error Unit :=
  if port < c.chip.numPorts then .ok () else .error (.invalidPort port c.chip.numPorts)

def checkVlanIndex (chip : Chip) (index : UInt16) : Except Error Unit :=
  if index < chip.numVlans then .ok () else .error (.invalidVlanIndex index chip.numVlans)

/-! ### Setters and getters -/

def setVlanEnabled (c : Config) (on : Bool) : Config := { c with vlanEnabled := on }

/-- The largest VLAN id there is. -/
def vidLimit : UInt16 := 0xfff

/-- Sets the base, rounded down to a multiple of the table size. -/
def setVlanBase (c : Config) (base : UInt16) : Except Error Config :=
  if c.chip.family = .gigabit ∧ base ≠ 0 then .error (.unsupported .vlanBase)
  else if vidLimit < base then .error (.invalidVlanId base vidLimit)
  else .ok { c with vlanBase := base &&& ~~~(c.chip.numVlans - 1) }

/-- The configuration of a port; a port beyond the table has the default one. -/
def port (c : Config) (port : UInt8) : PortConfig := (c.ports[port.toNat]?).getD {}

def portPvid (c : Config) (port : UInt8) : Except Error UInt16 := do
  c.checkPort port
  return (c.port port).pvid

def setPortPvid (c : Config) (port : UInt8) (vid : UInt16) : Except Error Config := do
  c.checkPort port
  if c.chip.maxVid < vid then throw (.invalidVlanId vid c.chip.maxVid)
  return { c with ports := c.ports.modify port.toNat fun p => { p with pvid := vid } }

/-- The entry at an index; one beyond the table has no members. -/
def vlan (c : Config) (index : UInt16) : VlanEntry := (c.vlans[index.toNat]?).getD {}

/-- The members of an entry in ascending order; an invalid entry has none. -/
def members (c : Config) (entry : VlanEntry) : List VlanPort :=
  if entry.valid then
    c.ports.zipIdx.filterMap fun (p, i) =>
      if entry.members.getLsbD i then some ⟨UInt8.ofNat i, p.tagged⟩ else none
  else []

def vlanPorts (c : Config) (index : UInt16) : Except Error (List VlanPort) := do
  checkVlanIndex c.chip index
  return c.members (c.vlan index)

/-- Makes the listed ports the members of entry `index`. -/
def setVlanPorts (c : Config) (index : UInt16) (members : List VlanPort) : Except Error Config := do
  checkVlanIndex c.chip index
  if index = 0 ∧ c.chip.family = .gigabit then throw (.reservedVlan index)
  members.forM fun m => c.checkPort m.port
  let ports := members.foldl (fun ports m => ports.modify m.port.toNat (.join index m.tagged)) c.ports
  let mask : PortMask := members.foldl (fun mask m => mask ||| .single m.port.toNat) 0
  return { c with ports, vlans := c.vlans.set index.toNat ⟨mask, mask != 0⟩ }

end Config

end EtherSwitch
