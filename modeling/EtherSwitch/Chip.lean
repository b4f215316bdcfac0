import EtherSwitch.Register.Layout

/-! The supported chips and what tells them apart: the device id, and VLAN control 4 for the chips that
    share an id. Every chip is found again by its own id (`ofIds?_ids`). -/

namespace EtherSwitch

/-- The two families differ in ports, in VLAN table layout and in the range of VLAN ids. -/
inductive Family where
  | fastEthernet | gigabit
  deriving DecidableEq, Repr

inductive Chip where
  | bcm5325E | bcm5325F | bcm5325M | bcm5395 | bcm5397 | bcm5398 | bcm53115 | bcm53125
  deriving DecidableEq, Repr

namespace Chip

def all : List Chip := [bcm5325E, bcm5325F, bcm5325M, bcm5395, bcm5397, bcm5398, bcm53115, bcm53125]

def name : Chip → String
  | bcm5325E => "BCM5325E"
  | bcm5325F => "BCM5325F"
  | bcm5325M => "BCM5325M"
  | bcm5395 => "BCM5395"
  | bcm5397 => "BCM5397"
  | bcm5398 => "BCM5398"
  | bcm53115 => "BCM53115"
  | bcm53125 => "BCM53125"

def family : Chip → Family
  | bcm5325E | bcm5325F | bcm5325M => .fastEthernet
  | bcm5395 | bcm5397 | bcm5398 | bcm53115 | bcm53125 => .gigabit

/-! ### Identification -/

/-- What the device id register holds; ids above 255 need a 16-bit read. -/
def deviceId : Chip → BitVec 16
  | bcm5325E | bcm5325F | bcm5325M => 0x00
  | bcm5395 => 0x95
  | bcm5397 => 0x97
  | bcm5398 => 0x98
  | bcm53115 => 0x3115
  | bcm53125 => 0x3125

/-- What VLAN control 4 holds after power-up; it tells the chips of id 0 apart. -/
def vlanControl4 : Chip → BitVec 8
  | bcm5325E => 1
  | bcm5325F => 3
  | _ => 0

/-- The ids shared by the BCM5325 variants. -/
def isSharedId (id : BitVec 8) : Bool := id == 0x00 || id == 0x01

/-- The BCM5325 variant that VLAN control 4 tells. -/
def ofVlanControl4 (value : BitVec 8) : Chip :=
  if value = 1 then bcm5325E else if value = 3 then bcm5325F else bcm5325M

/-- The chip that an 8-bit device id names. -/
def ofId8? (id : BitVec 8) : Option Chip :=
  if id = 0x95 then some bcm5395
  else if id = 0x97 then some bcm5397
  else if id = 0x98 then some bcm5398
  else none

/-- The chip that a 16-bit device id names. -/
def ofId16? (id : BitVec 16) : Option Chip :=
  if id = 0x3115 then some bcm53115
  else if id = 0x3125 then some bcm53125
  else none

/-- The chip behind a device id register and a VLAN control 4 register. -/
def ofIds? (id : BitVec 16) (vc4 : BitVec 8) : Option Chip :=
  if isSharedId (id.setWidth 8) then some (ofVlanControl4 vc4)
  else (ofId8? (id.setWidth 8)).or (ofId16? id)

theorem ofIds?_ids (c : Chip) : ofIds? c.deviceId c.vlanControl4 = some c := by cases c <;> decide

/-! ### Ports and VLANs -/

/-- How many ports there are, the CPU port included. -/
def numPorts (c : Chip) : UInt8 :=
  match c.family with
  | .fastEthernet => 6
  | .gigabit => 9

/-- The port that faces the host. -/
def cpuPort (c : Chip) : UInt8 := c.numPorts - 1

/-- How many entries the VLAN table has. -/
def numVlans (_ : Chip) : UInt16 := 16

/-- How many bits a VLAN id has in the default tag of a port. -/
def vidBits (c : Chip) : Nat :=
  match c.family with
  | .fastEthernet => 4
  | .gigabit => 12

/-- The largest VLAN id that a port can be given. -/
def maxVid (c : Chip) : UInt16 := UInt16.ofBitVec ((BitVec.allOnes c.vidBits).setWidth 16)

/-- The last port with a PHY; the ports between it and the CPU port report no link status. -/
def lastPhyPort : Chip → UInt8
  | bcm5325E | bcm5325F | bcm5325M => 4
  | bcm5395 | bcm5397 => 4
  | bcm5398 => 7
  | bcm53115 | bcm53125 => 5

/-- The window to the VLAN table. -/
def tableWindow : Chip → Layout.TableWindow
  | bcm5397 | bcm5398 => Layout.lowWindow
  | _ => Layout.standardWindow

/-- Whether a reset forces the state of the ports. -/
def hasPortOverride : Chip → Bool
  | bcm53115 | bcm53125 => true
  | _ => false

theorem lastPhyPort_lt_cpuPort (c : Chip) : c.lastPhyPort < c.cpuPort := by cases c <;> decide

theorem cpuPort_lt_numPorts (c : Chip) : c.cpuPort < c.numPorts := by cases c <;> decide

end Chip

/-- The ports below `n`, in order. -/
def portsBelow (n : UInt8) : List UInt8 := (List.range n.toNat).map UInt8.ofNat

/-- The chip found at a switch, and its revision. -/
structure Identity where
  chip : Chip
  revision : UInt8
  deriving DecidableEq, Repr

def Identity.text (i : Identity) : String := s!"{i.chip.name} (rev {i.revision.toNat})"

end EtherSwitch
