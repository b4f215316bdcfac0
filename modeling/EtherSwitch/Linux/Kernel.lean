import EtherSwitch.Bus.Mdio
import EtherSwitch.Bus.Spi

/-! What the Linux backends ask of the kernel. -/

namespace EtherSwitch

/-- One transfer of an SPI message: bytes to send, or room for bytes to receive. -/
inductive SpiBuffer where
  | send (bytes : List UInt8)
  | receive (length : Nat)
  deriving DecidableEq, Repr

structure SpiTransfer where
  buffer : SpiBuffer
  speedHz : UInt32
  delayMicros : UInt16 := 0
  bitsPerWord : UInt8 := 8
  csChange : UInt8 := 0
  deriving DecidableEq, Repr

/-- The request of the MII ioctls: an interface name, padded with zero bytes, and a PHY register. -/
structure MiiRequest where
  name : List UInt8
  phy : UInt16 := 0
  register : UInt16 := 0
  valueIn : BitVec 16 := 0
  valueOut : BitVec 16 := 0
  deriving DecidableEq, Repr

inductive Kernel.Call where
  | openFile (path : String)
  /-- A datagram socket to carry interface ioctls. -/
  | openSocket
  | setSpiMode (mode : UInt8)
  | setSpiBitsPerWord (bits : UInt8)
  | setSpiMaxSpeed (hz : UInt32)
  /-- Runs transfers with chip select held between them. -/
  | spiMessage (transfers : List SpiTransfer)
  | miiRead (request : MiiRequest)
  | miiWrite (request : MiiRequest)
  | sleep (micros : Nat)
  deriving DecidableEq, Repr

abbrev Kernel.Answer : Kernel.Call → Type
  | .openFile _ => Except IoError Unit
  | .spiMessage _ => Except Errno (List UInt8)
  | .miiRead _ => Except Errno MiiRequest
  | .sleep _ => Unit
  | _ => Except Errno Unit

/-- The part of the kernel that the backends use. A message answers the bytes received, and an MII read
    answers the request as the kernel leaves it. -/
abbrev Kernel : Interface := ⟨Kernel.Call, Kernel.Answer⟩

instance : Refusable Kernel Errno where
  refusal
    | .openFile _ => none
    | .openSocket => some fun e => .error e
    | .setSpiMode _ => some fun e => .error e
    | .setSpiBitsPerWord _ => some fun e => .error e
    | .setSpiMaxSpeed _ => some fun e => .error e
    | .spiMessage _ => some fun e => .error e
    | .miiRead _ => some fun e => .error e
    | .miiWrite _ => some fun e => .error e
    | .sleep _ => none

end EtherSwitch
