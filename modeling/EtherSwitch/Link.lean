import EtherSwitch.Chip
import EtherSwitch.Error

/-! The link status of ports, and how it is read off the status summaries. -/

namespace EtherSwitch

inductive Speed where
  | mbps10 | mbps100 | mbps1000
  deriving DecidableEq, Repr

def Speed.name : Speed → String
  | mbps10 => "10baseT"
  | mbps100 => "100baseT"
  | mbps1000 => "1000baseT"

inductive Duplex where
  | half | full
  deriving DecidableEq, Repr

def Duplex.name : Duplex → String
  | half => "half"
  | full => "full"

/-- The link of one port; speed and duplex mean something while it is up. -/
structure PortLink where
  port : UInt8
  up : Bool
  speed : Speed
  duplex : Duplex
  deriving DecidableEq, Repr

namespace PortLink

/-- The status of a port without a link. -/
def down (port : UInt8) : PortLink := ⟨port, false, .mbps10, .half⟩

def text (l : PortLink) : String :=
  if l.up then s!"port:{l.port.toNat} link:up speed:{l.speed.name} {l.duplex.name}-duplex"
  else s!"port:{l.port.toNat} link:down"

/-! ### Status summaries -/

/-- The bit of a port in a summary of one bit per port. -/
def statusBit (summary : BitVec 16) (port : UInt8) : Bool := summary.getLsbD port.toNat

/-- The speed field of a port on a fast Ethernet chip, one bit per port. -/
def speedFieldFast (summary : BitVec 16) (port : UInt8) : BitVec 8 := (summary >>> port.toNat).setWidth 8 &&& 1

/-- The speed field of a port on a gigabit chip, two bits per port. -/
def speedFieldGigabit (summary : BitVec 32) (port : UInt8) : BitVec 8 :=
  (summary >>> (2 * port.toNat)).setWidth 8 &&& 3

def speedOfField? (field : BitVec 8) : Option Speed :=
  if field = 0 then some .mbps10
  else if field = 1 then some .mbps100
  else if field = 2 then some .mbps1000
  else none

/-- The link of a port from its status fields. Speed and duplex are looked at only if the link is up. -/
def decode (port : UInt8) (link : BitVec 16) (speed : BitVec 8) (duplex : BitVec 16) : Except Error PortLink :=
  if statusBit link port then
    match speedOfField? speed with
    | some s => .ok ⟨port, true, s, if statusBit duplex port then .full else .half⟩
    | none => .error (.invalidSpeed port speed)
  else .ok (down port)

end PortLink

end EtherSwitch
